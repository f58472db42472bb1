import EthernetOta.Lib.Machine

/-!
# Periodic timers on a tick counter that wraps

The counter has `w` bits. A timer is polled at any times; a poll adds what it
takes for the time since the last one and, when that is more than an interval,
calls its function and takes one interval off. The calls and the timer account
for all the time that has passed just as long as every poll adds the true time.
-/

namespace EthernetOta

universe u v

def reading (w time : Nat) : BitVec w := BitVec.ofNat w time

section
variable {w time gap : Nat}

theorem toNat_reading (w time : Nat) : (reading w time).toNat = time % 2 ^ w := BitVec.toNat_ofNat _ _

theorem reading_add (time : Nat) (hgap : gap < 2 ^ w) :
    (reading w (time + gap)).toNat = (reading w time).toNat + gap ∨
      (reading w (time + gap)).toNat + 2 ^ w = (reading w time).toNat + gap := by
  have hlt : time % 2 ^ w < 2 ^ w := Nat.mod_lt _ (Nat.two_pow_pos w)
  rw [toNat_reading, toNat_reading, Nat.add_mod, Nat.mod_eq_of_lt hgap]
  rcases Nat.lt_or_ge (time % 2 ^ w + gap) (2 ^ w) with h | h
  · exact .inl (Nat.mod_eq_of_lt h)
  · have hsub : time % 2 ^ w + gap - 2 ^ w < 2 ^ w := by omega
    rw [Nat.mod_eq_sub_mod h, Nat.mod_eq_of_lt hsub]
    exact .inr (Nat.sub_add_cancel h)

theorem toNat_reading_of_le (hgap : gap < 2 ^ w) (h : reading w time ≤ reading w (time + gap)) :
    (reading w (time + gap)).toNat = (reading w time).toNat + gap := by
  have hle : (reading w time).toNat ≤ (reading w (time + gap)).toNat := BitVec.le_def.mp h
  rcases reading_add time hgap with h | h
  · exact h
  · omega

theorem toNat_reading_of_lt (hgap : gap < 2 ^ w) (h : ¬ reading w time ≤ reading w (time + gap)) :
    (reading w (time + gap)).toNat + 2 ^ w = (reading w time).toNat + gap := by
  have hlt : ¬ (reading w time).toNat ≤ (reading w (time + gap)).toNat := mt BitVec.le_def.mpr h
  rcases reading_add time hgap with h | h
  · omega
  · exact h

end

-- ---------------------------------------------------------------------------
-- One poll
-- ---------------------------------------------------------------------------

/-- What a poll that reads `cur` makes of a timer last polled at `last`: the
`last` and the timer after it, and how often it calls the function. -/
inductive Ticked (diff : BitVec w → BitVec w → BitVec w) (interval last timer cur : BitVec w) :
    BitVec w → BitVec w → Nat → Prop
  | same (zero : diff last cur = 0) : Ticked diff interval last timer cur last timer 0
  | waiting (passed : diff last cur ≠ 0) (wait : ¬ interval < timer + diff last cur) :
    Ticked diff interval last timer cur cur (timer + diff last cur) 0
  | due (passed : diff last cur ≠ 0) (due : interval < timer + diff last cur) :
    Ticked diff interval last timer cur cur (timer + diff last cur - interval) 1

/-- The difference of two readings is the time between them. -/
def Exact (diff : BitVec w → BitVec w → BitVec w) (time gap : Nat) : Prop :=
  (diff (reading w time) (reading w (time + gap))).toNat = gap

section
variable {w : Nat} {diff : BitVec w → BitVec w → BitVec w} {interval last timer cur last' timer' : BitVec w}
  {calls : Nat}

theorem Ticked.calls_le (h : Ticked diff interval last timer cur last' timer' calls) : calls ≤ 1 := by
  cases h with
  | same => exact Nat.zero_le 1
  | waiting => exact Nat.zero_le 1
  | due => exact Nat.le_refl 1

theorem Ticked.total (h : Ticked diff interval last timer cur last' timer' calls)
    (hfits : timer.toNat + (diff last cur).toNat < 2 ^ w) :
    calls * interval.toNat + timer'.toNat = timer.toNat + (diff last cur).toNat := by
  have hadd : (timer + diff last cur).toNat = timer.toNat + (diff last cur).toNat :=
    BitVec.toNat_add_of_lt hfits
  cases h with
  | same zero =>
    have hzero : (diff last cur).toNat = 0 := congrArg BitVec.toNat zero
    omega
  | waiting => rw [hadd, Nat.zero_mul, Nat.zero_add]
  | due _ due =>
    have hle : interval ≤ timer + diff last cur := BitVec.le_of_lt due
    have hlt : interval.toNat < (timer + diff last cur).toNat := BitVec.lt_def.mp due
    rw [BitVec.toNat_sub_of_le hle, hadd] at *
    omega

theorem Ticked.interval_lt (h : Ticked diff interval last timer cur last' timer' calls)
    (hfits : timer.toNat + (diff last cur).toNat < 2 ^ w) (hcalls : 0 < calls) :
    interval.toNat < timer.toNat + (diff last cur).toNat := by
  cases h with
  | same => exact absurd hcalls (Nat.lt_irrefl 0)
  | waiting => exact absurd hcalls (Nat.lt_irrefl 0)
  | due _ due =>
    have hlt : interval.toNat < (timer + diff last cur).toNat := BitVec.lt_def.mp due
    rwa [BitVec.toNat_add_of_lt hfits] at hlt

theorem Ticked.last_eq (h : Ticked diff interval (reading w time) timer (reading w (time + gap)) last' timer' calls)
    (exact : Exact diff time gap) : last' = reading w (time + gap) := by
  cases h with
  | same zero =>
    have hzero : gap = 0 := exact.symm.trans (congrArg BitVec.toNat zero)
    rw [hzero, Nat.add_zero]
  | waiting => rfl
  | due => rfl

end

-- ---------------------------------------------------------------------------
-- Polls one after another
-- ---------------------------------------------------------------------------

structure Clocked (σ : Type u) where
  time : Nat
  timers : σ

def clocked (update : BitVec w → σ → σ × ω) : Machine (Clocked σ) Nat ω where
  step s gap :=
    let (timers, out) := update (reading w (s.time + gap)) s.timers
    (⟨s.time + gap, timers⟩, out)

/-- Where a timer is in a state, and the calls of its function in what a poll puts out. -/
structure Gauge (w : Nat) (σ : Type u) (ω : Type v) where
  last : σ → BitVec w
  timer : σ → BitVec w
  calls : ω → Nat

section
variable {w : Nat} {σ : Type u} {ω : Type v} (g : Gauge w σ ω) (update : BitVec w → σ → σ × ω)
  (interval : BitVec w)

def Gauge.Polls (diff : BitVec w → BitVec w → BitVec w) (Ok : σ → Prop) : Prop :=
  ∀ cur s, Ok s → Ok (update cur s).1 ∧
    Ticked diff interval (g.last s) (g.timer s) cur (g.last (update cur s).1) (g.timer (update cur s).1)
      (g.calls (update cur s).2)

def Gauge.fired (turns : List (Turn (Clocked σ) Nat ω)) : Nat := (turns.map fun t => g.calls t.out).sum

/-- The gaps are below `2 ^ w`, and so is at each poll the time the calls before it leave. -/
def Gauge.Bounded (s : Clocked σ) (gaps : List Nat) : Prop :=
  ∀ polls gap, polls ++ [gap] <+: gaps → gap < 2 ^ w ∧
    polls.sum + gap < g.fired ((clocked update).turns s polls) * interval.toNat + 2 ^ w

/-- At each poll: the calls and the timer account for the time since the start,
and the function is called once at most and only when more than the interval has
gathered. -/
def Gauge.Accounts (s : Clocked σ) (gaps : List Nat) : Prop :=
  ∀ polls gap, polls ++ [gap] <+: gaps →
    let fired := g.fired ((clocked update).turns s polls)
    let t := (clocked update).turn ((clocked update).run s polls) gap
    (fired + g.calls t.out) * interval.toNat + (g.timer t.post.timers).toNat = polls.sum + gap ∧
      g.calls t.out ≤ 1 ∧
      (0 < g.calls t.out → fired * interval.toNat + interval.toNat < polls.sum + gap)

structure Gauge.Kept (Ok : σ → Prop) (s : Clocked σ) (polls : List Nat) : Prop where
  ok : Ok ((clocked update).run s polls).timers
  time : ((clocked update).run s polls).time = s.time + polls.sum
  last : g.last ((clocked update).run s polls).timers = reading w (s.time + polls.sum)
  total : g.fired ((clocked update).turns s polls) * interval.toNat +
    (g.timer ((clocked update).run s polls).timers).toNat = polls.sum

variable {g update interval} {diff : BitVec w → BitVec w → BitVec w} {Ok : σ → Prop} {s : Clocked σ}

theorem Gauge.kept_nil (hok : Ok s.timers) (hlast : g.last s.timers = reading w s.time)
    (htimer : g.timer s.timers = 0) : g.Kept update interval Ok s [] where
  ok := hok
  time := rfl
  last := hlast
  total := by
    have htotal : (g.timer s.timers).toNat = 0 := congrArg BitVec.toNat htimer
    rw [Machine.run, htotal, Machine.turns, Gauge.fired, List.map_nil, List.sum_nil, Nat.zero_mul, Nat.zero_add]

/-- As long as every difference is exact, and no longer. -/
theorem Gauge.accounts_iff (hpolls : g.Polls update interval diff Ok)
    (hle : ∀ time gap, gap < 2 ^ w → (diff (reading w time) (reading w (time + gap))).toNat ≤ gap)
    (hok : Ok s.timers) (hlast : g.last s.timers = reading w s.time) (htimer : g.timer s.timers = 0)
    (bounded : g.Bounded update interval s gaps) :
    g.Accounts update interval s gaps ↔
      ∀ polls gap, polls ++ [gap] <+: gaps → Exact diff (s.time + polls.sum) gap := by
  refine forall_prefix_iff (R := g.Kept update interval Ok s) (Gauge.kept_nil hok hlast htimer) ?_
  intro polls gap hpre kept
  obtain ⟨hgap, hbacklog⟩ := bounded polls gap hpre
  have htime := kept.time
  have htotal := kept.total
  have hkeptLast := kept.last
  obtain ⟨hok', hticked⟩ := hpolls (reading w (((clocked update).run s polls).time + gap)) _ kept.ok
  have hnext : ((clocked update).next ((clocked update).run s polls) gap).timers =
      (update (reading w (((clocked update).run s polls).time + gap)) ((clocked update).run s polls).timers).1 := rfl
  have hout : ((clocked update).turn ((clocked update).run s polls) gap).out =
      (update (reading w (((clocked update).run s polls).time + gap)) ((clocked update).run s polls).timers).2 := rfl
  rw [← hnext] at hok' hticked
  rw [← hout, htime, hkeptLast] at hticked
  have hdiff := hle (s.time + polls.sum) gap hgap
  have hfits : (g.timer ((clocked update).run s polls).timers).toNat +
      (diff (reading w (s.time + polls.sum)) (reading w (s.time + polls.sum + gap))).toNat < 2 ^ w := by omega
  have hadded := hticked.total hfits
  have hdistrib := Nat.add_mul (g.fired ((clocked update).turns s polls))
    (g.calls ((clocked update).turn ((clocked update).run s polls) gap).out) interval.toNat
  refine ⟨⟨fun accounts => ?_, fun exact => ⟨?_, hticked.calls_le, fun hcalls => ?_⟩⟩, fun exact => ⟨?_, ?_, ?_, ?_⟩⟩
  · have htotal' := accounts.1
    rw [Machine.turn_post] at htotal'
    rw [Exact]
    omega
  · rw [Exact] at exact
    rw [Machine.turn_post]
    omega
  · have hlt := hticked.interval_lt hfits hcalls
    rw [Exact] at exact
    omega
  · rwa [Machine.run_snoc]
  · rw [Machine.run_snoc, List.sum_append, List.sum_singleton, ← Nat.add_assoc, ← htime]
    rfl
  · rw [Machine.run_snoc, List.sum_append, List.sum_singleton, ← Nat.add_assoc]
    exact hticked.last_eq exact
  · rw [Exact] at exact
    rw [Machine.run_snoc, Machine.turns_snoc, Gauge.fired, List.map_append, List.sum_append, List.sum_append,
      List.sum_singleton, List.map_singleton, List.sum_singleton, ← Gauge.fired]
    omega

end

end EthernetOta
