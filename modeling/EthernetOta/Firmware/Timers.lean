import EthernetOta.Lib.Ticks
import EthernetOta.Firmware.Switch

/-!
# The timers of the main loop

`timers_update` of `ethernet.c`, which serves lwIP's timers, and
`switching_timer_update` of `upgrade.c` take the difference of two readings of
`sys_get_ms()` alike. It is the time that has passed unless the counter has
wrapped in between; then it is one less.
-/

namespace EthernetOta.Firmware

inductive TmrFn
  | tcpTmr
  | ipReassTmr
  | etharpTmr
  | dhcpCoarseTmr
  | dhcpFineTmr
  deriving DecidableEq, Repr

structure TimersInfo where
  timer : Word
  timerInterval : Word
  timerFunc : Option TmrFn
  deriving DecidableEq, Repr

structure Timers where
  ulLastTime : Word
  table : List TimersInfo
  deriving DecidableEq, Repr

def gsTimersTable : List TimersInfo :=
  [⟨0, 250, some .tcpTmr⟩, ⟨0, 1000, some .ipReassTmr⟩, ⟨0, 5000, some .etharpTmr⟩,
   ⟨0, 60000, some .dhcpCoarseTmr⟩, ⟨0, 500, some .dhcpFineTmr⟩]

/-- `gs_ul_clk_tick`, which an interrupt increments every millisecond. -/
abbrev sysGetMs (time : Nat) : Word := reading 32 time

/-- The difference of two readings, as both files take it. -/
def ulTimeDiff (lastTime curTime : Word) : Word :=
  if lastTime ≤ curTime then curTime - lastTime else 0xFFFFFFFF#32 - lastTime + curTime

/-- The body of the loop: the entry after it, and the function it calls. -/
def timerUpdate (timeDiff : Word) (p : TimersInfo) : TimersInfo × Option TmrFn :=
  let p := { p with timer := p.timer + timeDiff }
  if p.timerInterval < p.timer then ({ p with timer := p.timer - p.timerInterval }, p.timerFunc) else (p, none)

def timersLoop (timeDiff : Word) : Nat → List TimersInfo → List TimersInfo × List (Nat × TmrFn)
  | _, [] => ([], [])
  | idx, p :: table =>
    let (p, call) := timerUpdate timeDiff p
    let (table, calls) := timersLoop timeDiff (idx + 1) table
    (p :: table, (call.map (idx, ·)).toList ++ calls)

def timersUpdate (curTime : Word) (t : Timers) : Timers × List (Nat × TmrFn) :=
  let timeDiff := ulTimeDiff t.ulLastTime curTime
  if timeDiff ≠ 0 then
    let (table, calls) := timersLoop timeDiff 0 t.table
    (⟨curTime, table⟩, calls)
  else (t, [])

-- ---------------------------------------------------------------------------
-- Differences
-- ---------------------------------------------------------------------------

theorem toNat_ulTimeDiff_of_le (h : lastTime ≤ curTime) :
    (ulTimeDiff lastTime curTime).toNat = curTime.toNat - lastTime.toNat := by
  rw [ulTimeDiff, if_pos h, BitVec.toNat_sub_of_le h]

theorem toNat_ulTimeDiff_of_lt (h : ¬ lastTime ≤ curTime) :
    (ulTimeDiff lastTime curTime).toNat + lastTime.toNat + 1 = curTime.toNat + 2 ^ 32 := by
  have hlt : ¬ lastTime.toNat ≤ curTime.toNat := mt BitVec.le_def.mpr h
  have hones : (0xFFFFFFFF#32).toNat = 2 ^ 32 - 1 := rfl
  have hle : lastTime ≤ 0xFFFFFFFF#32 := BitVec.le_def.mpr (by omega)
  rw [ulTimeDiff, if_neg h, BitVec.toNat_add, BitVec.toNat_sub_of_le hle, hones]
  omega

/-- The difference is exact unless the counter has wrapped. -/
theorem exact_ulTimeDiff (hgap : gap < 2 ^ 32) :
    Exact ulTimeDiff time gap ↔ reading 32 time ≤ reading 32 (time + gap) := by
  rw [Exact]
  constructor
  · intro exact
    by_contra h
    have hdiff := toNat_ulTimeDiff_of_lt h
    have hwrap := toNat_reading_of_lt hgap h
    omega
  · intro h
    have hdiff := toNat_ulTimeDiff_of_le h
    have hread := toNat_reading_of_le hgap h
    omega

theorem ulTimeDiff_le (time gap : Nat) (hgap : gap < 2 ^ 32) :
    (ulTimeDiff (reading 32 time) (reading 32 (time + gap))).toNat ≤ gap := by
  by_cases h : reading 32 time ≤ reading 32 (time + gap)
  · have hdiff := toNat_ulTimeDiff_of_le h
    have hread := toNat_reading_of_le hgap h
    omega
  · have hdiff := toNat_ulTimeDiff_of_lt h
    have hwrap := toNat_reading_of_lt hgap h
    omega

-- ---------------------------------------------------------------------------
-- The switching timer
-- ---------------------------------------------------------------------------

def switchingGauge : Gauge 32 UpgradeTimer (Option TimerFn) where
  last := UpgradeTimer.lastTime
  timer := UpgradeTimer.timer
  calls call := if call.isSome then 1 else 0

def Started (interval : Word) (t : UpgradeTimer) : Prop := t.timerInterval = interval ∧ t.timerFunc.isSome = true

theorem switchingTimerUpdate_polls (interval : Word) :
    switchingGauge.Polls switchingTimerUpdate interval ulTimeDiff (Started interval) := by
  rintro curTime ⟨timer, _, lastTime, fn⟩ ⟨rfl, hfn⟩
  have hdiff : (if lastTime ≤ curTime then curTime - lastTime else 0xFFFFFFFF#32 - lastTime + curTime) =
      ulTimeDiff lastTime curTime := rfl
  simp only [switchingTimerUpdate, hdiff]
  by_cases hzero : ulTimeDiff lastTime curTime = 0
  · rw [if_neg (not_not.mpr hzero)]
    exact ⟨⟨rfl, hfn⟩, .same hzero⟩
  rw [if_pos hzero]
  split
  · rename_i due
    refine ⟨⟨rfl, hfn⟩, ?_⟩
    simp only [switchingGauge, hfn, if_true]
    exact .due hzero due
  · rename_i wait
    exact ⟨⟨rfl, hfn⟩, .waiting hzero wait⟩

-- ---------------------------------------------------------------------------
-- The table
-- ---------------------------------------------------------------------------

def entryGauge (idx : Nat) : Gauge 32 Timers (List (Nat × TmrFn)) where
  last := Timers.ulLastTime
  timer t := (t.table[idx]?.map TimersInfo.timer).getD 0
  calls calls := calls.countP fun call => call.1 == idx

def Entry (idx : Nat) (interval : Word) (t : Timers) : Prop :=
  ∃ p, t.table[idx]? = some p ∧ p.timerInterval = interval ∧ p.timerFunc.isSome = true

theorem timersLoop_calls_before (timeDiff : Word) (table : List TimersInfo) (h : idx < start) :
    (timersLoop timeDiff start table).2.countP (fun call => call.1 == idx) = 0 := by
  induction table generalizing start with
  | nil => rfl
  | cons p table ih =>
    have hne : (start == idx) = false := beq_false_of_ne (Nat.ne_of_gt h)
    rw [timersLoop]
    simp only []
    rw [List.countP_append, ih (Nat.lt_succ_of_lt h), Nat.add_zero]
    cases (timerUpdate timeDiff p).2 with
    | none => rfl
    | some fn => simp [hne]

theorem timersLoop_entry (timeDiff : Word) (start : Nat) {table : List TimersInfo} (h : table[idx]? = some p) :
    (timersLoop timeDiff start table).1[idx]? = some (timerUpdate timeDiff p).1 ∧
      (timersLoop timeDiff start table).2.countP (fun call => call.1 == start + idx) =
        (timerUpdate timeDiff p).2.toList.length := by
  induction table generalizing start idx with
  | nil => exact absurd h (Option.some_ne_none p ∘ Eq.symm)
  | cons q table ih =>
    rw [timersLoop]
    simp only []
    cases idx with
    | zero =>
      obtain rfl := Option.some.inj h
      refine ⟨rfl, ?_⟩
      rw [Nat.add_zero, List.countP_append, timersLoop_calls_before timeDiff table (Nat.lt_succ_self start),
        Nat.add_zero]
      cases (timerUpdate timeDiff q).2 with
      | none => rfl
      | some fn => simp
    | succ idx =>
      obtain ⟨hentry, hcalls⟩ := ih (start + 1) h
      have hne : (start == start + (idx + 1)) = false := beq_false_of_ne (by omega)
      refine ⟨hentry, ?_⟩
      rw [List.countP_append, ← Nat.add_assoc, Nat.add_right_comm start idx 1, hcalls]
      cases (timerUpdate timeDiff q).2 with
      | none => exact Nat.zero_add _
      | some fn =>
        rw [Nat.add_right_comm, Nat.add_assoc]
        simp [hne]

theorem timersUpdate_polls (idx : Nat) (interval : Word) :
    (entryGauge idx).Polls timersUpdate interval ulTimeDiff (Entry idx interval) := by
  rintro curTime t ⟨⟨timer, _, fn⟩, hp, rfl, hfn⟩
  obtain ⟨hentry, hcalls⟩ := timersLoop_entry (ulTimeDiff t.ulLastTime curTime) 0 hp
  rw [Nat.zero_add] at hcalls
  have htimer : (entryGauge idx).timer t = timer := by
    rw [entryGauge]
    simp only [hp, Option.map_some, Option.getD_some]
  rw [timersUpdate]
  simp only []
  by_cases hzero : ulTimeDiff t.ulLastTime curTime = 0
  · rw [if_neg (not_not.mpr hzero)]
    exact ⟨⟨_, hp, rfl, hfn⟩, .same hzero⟩
  rw [if_pos hzero, htimer]
  simp only [timerUpdate] at hentry hcalls
  split at hentry
  · rename_i due
    rw [if_pos due] at hcalls
    refine ⟨⟨_, hentry, rfl, hfn⟩, ?_⟩
    obtain ⟨fn, rfl⟩ := Option.isSome_iff_exists.mp hfn
    simp only [entryGauge, hentry, hcalls, Option.map_some, Option.getD_some]
    exact .due hzero due
  · rename_i wait
    rw [if_neg wait] at hcalls
    refine ⟨⟨_, hentry, rfl, hfn⟩, ?_⟩
    simp only [entryGauge, hentry, hcalls, Option.map_some, Option.getD_some]
    exact .waiting hzero wait

-- ---------------------------------------------------------------------------
-- All elapsed time
-- ---------------------------------------------------------------------------

/-- No poll reads less than the one before it, or than the start. -/
def NoWraparound (start : Nat) (gaps : List Nat) : Prop :=
  ∀ polls gap, polls ++ [gap] <+: gaps → sysGetMs (start + polls.sum) ≤ sysGetMs (start + polls.sum + gap)

theorem exact_iff_noWraparound (hgaps : ∀ polls gap, polls ++ [gap] <+: gaps → gap < 2 ^ 32) :
    (∀ polls gap, polls ++ [gap] <+: gaps → Exact ulTimeDiff (start + polls.sum) gap) ↔ NoWraparound start gaps :=
  forall_congr' fun polls => forall_congr' fun gap => forall_congr' fun hpre =>
    exact_ulTimeDiff (hgaps polls gap hpre)

def switchingStarted (start : Nat) (interval : Word) (fn : TimerFn) (d : Dev) : Clocked UpgradeTimer :=
  ⟨start, (switchingTimerStart interval fn (sysGetMs start) d).switchingTimer⟩

/-- The timers account for all the time that has passed just as long as the
counter does not wrap between two polls. -/
theorem timers_account (start : Nat) (gaps : List Nat) :
    (∀ interval fn d, switchingGauge.Bounded switchingTimerUpdate interval
        (switchingStarted start interval fn d) gaps →
      (switchingGauge.Accounts switchingTimerUpdate interval (switchingStarted start interval fn d) gaps ↔
        NoWraparound start gaps)) ∧
    ∀ table idx (p : TimersInfo), table[idx]? = some p → p.timer = 0 → p.timerFunc ≠ none →
      (entryGauge idx).Bounded timersUpdate p.timerInterval ⟨start, sysGetMs start, table⟩ gaps →
      ((entryGauge idx).Accounts timersUpdate p.timerInterval ⟨start, sysGetMs start, table⟩ gaps ↔
        NoWraparound start gaps) := by
  constructor
  · intro interval fn d bounded
    rw [← exact_iff_noWraparound fun polls gap hpre => (bounded polls gap hpre).1]
    exact Gauge.accounts_iff (switchingTimerUpdate_polls interval) ulTimeDiff_le ⟨rfl, rfl⟩ rfl rfl bounded
  · intro table idx p hp htimer hfn bounded
    have hentry : (entryGauge idx).timer ⟨sysGetMs start, table⟩ = 0 := by
      simp only [entryGauge, hp, Option.map_some, Option.getD_some, htimer]
    rw [← exact_iff_noWraparound fun polls gap hpre => (bounded polls gap hpre).1]
    exact Gauge.accounts_iff (timersUpdate_polls idx p.timerInterval) ulTimeDiff_le
      ⟨p, hp, rfl, Option.isSome_iff_ne_none.mpr hfn⟩ rfl hentry bounded

theorem prefix_singleton (h : is ++ [i] <+: [j]) : is = [] ∧ i = j := by
  obtain ⟨rest, h⟩ := h
  cases is with
  | nil => exact ⟨rfl, (List.cons.inj h).1⟩
  | cons k is =>
    have hnil := congrArg List.length (List.cons.inj h).2
    simp at hnil

/-- One poll after three seconds, of the switching timer and of `tcp_tmr`. -/
theorem timers_account_once :
    (switchingGauge.Accounts switchingTimerUpdate codeSwitchingInterval
        (switchingStarted 0 codeSwitchingInterval .codeSwitching (boot 0 blankFlash)) [3001] ↔
      NoWraparound 0 [3001]) ∧
    ((entryGauge 0).Accounts timersUpdate 250 ⟨0, sysGetMs 0, gsTimersTable⟩ [3001] ↔
      NoWraparound 0 [3001]) := by
  refine ⟨(timers_account 0 [3001]).1 codeSwitchingInterval .codeSwitching (boot 0 blankFlash) ?_,
    (timers_account 0 [3001]).2 gsTimersTable 0 ⟨0, 250, some .tcpTmr⟩ rfl rfl (Option.some_ne_none _) ?_⟩
  · intro polls gap hpre
    obtain ⟨rfl, rfl⟩ := prefix_singleton hpre
    decide
  · intro polls gap hpre
    obtain ⟨rfl, rfl⟩ := prefix_singleton hpre
    decide

/-- The counter wraps between the start and the poll one millisecond later, which
adds nothing. -/
theorem timers_wraparound :
    let s := switchingStarted 0xFFFFFFFF codeSwitchingInterval .codeSwitching (boot 0 blankFlash)
    switchingGauge.Bounded switchingTimerUpdate codeSwitchingInterval s [1] ∧
      ¬ switchingGauge.Accounts switchingTimerUpdate codeSwitchingInterval s [1] := by
  constructor
  · intro polls gap hpre
    obtain ⟨rfl, rfl⟩ := prefix_singleton hpre
    decide
  · intro accounts
    have htotal := (accounts [] 1 (List.prefix_refl _)).1
    revert htotal
    decide

end EthernetOta.Firmware
