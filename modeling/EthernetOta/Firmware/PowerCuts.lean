import EthernetOta.Firmware.Switch

/-!
# Power cuts

Power may be lost at any moment, also while a flash command works, which then leaves the
cells it addresses in any state. The device comes up again in the image it ran, until a
switch that an `EXEC` asked for since the last start; and the switch leaves the image that
ran before in the other bank.
-/

namespace EthernetOta.Firmware

variable {lib : GcmLib} {idx : Int}

-- ---------------------------------------------------------------------------
-- Two images
-- ---------------------------------------------------------------------------

structure Slots where
  running : Nor.Cells 8
  standby : Nor.Cells 8

def Slots.swap (s : Slots) : Slots := ⟨s.standby, s.running⟩

inductive Slots.Step (writes swaps : Prop) : Slots → Slots → Prop
  | keep : Step writes swaps s s
  | write (h : writes) (c : Nor.Cells 8) : Step writes swaps s ⟨s.running, c⟩
  | swap (h : swaps) : Step writes swaps s s.swap

theorem Slots.Step.running {s s' : Slots} (h : Slots.Step writes swaps s s') (hs : ¬ swaps) : s'.running = s.running := by
  cases h with
  | keep => rfl
  | write => rfl
  | swap h => exact absurd h hs

theorem Slots.Step.kept {s s' : Slots} (h : Slots.Step writes swaps s s') (hw : ¬ writes) (hs : ¬ swaps) : s' = s := by
  cases h with
  | keep => rfl
  | write h => exact absurd h hw
  | swap h => exact absurd h hs

/-- The array at `IFLASH0_ADDR` as it was at the last reset, and the one at `IFLASH1_ADDR`. -/
def Dev.slots (d : Dev) : Slots := ⟨d.flash.cells d.cpuBank, d.flash.bank1⟩

/-- The images after a switch. A GPNVM bit that is written exchanges them; error flags may
leave the bit either way. -/
def Dev.switched (d : Dev) : GpnvmOutcome → Slots
  | .done => d.slots.swap
  | .error _ left => if left = d.flash.gpnvm2 then d.slots else d.slots.swap

-- ---------------------------------------------------------------------------
-- A device that loses power
-- ---------------------------------------------------------------------------

inductive Moment
  | run (e : Event)
  /-- Power is lost on the way. A flash command that was cut short is one that failed, and
  after it there are no others. -/
  | cut (e : Event)

def Moment.event : Moment → Event
  | .run e => e
  | .cut e => e

def powered (lib : GcmLib) (idx : Int) : Machine Dev Moment (Option Out × List Effect) where
  step d
    | .run e => (device lib idx).step d e
    | .cut e =>
      let (d', _, effects) := (device lib idx).step d e
      (boot idx d'.flash, none, effects)

abbrev PoweredTurn := Turn Dev Moment (Option Out × List Effect)

theorem powered_next_run (d : Dev) (e : Event) : (powered lib idx).next d (.run e) = (device lib idx).next d e := rfl

theorem powered_next_cut (d : Dev) (e : Event) :
    (powered lib idx).next d (.cut e) = boot idx ((device lib idx).next d e).flash := rfl

theorem powered_latched (d : Dev) (m : Moment) (hd : Latched d) : Latched ((powered lib idx).next d m) := by
  cases m with
  | run e => exact latched_next d e hd
  | cut e => exact latched_boot _ _

-- ---------------------------------------------------------------------------
-- What a moment does to the images
-- ---------------------------------------------------------------------------

theorem frameWrite_command {env : Env} {d : Dev} (writes : Writes env d b) :
    ∃ c, .command c ∈ (frameWrite lib env d b).effects := by
  have hseq : (frameSeq b).toNat ≤ 1023 := writes.seq_le
  have hpage : ∀ f, ∃ c, .command c ∈ (dataWritePage env.flash (frameAddr (frameSeq b)) 0
      (frameImage lib d.cryptoIv b) f).effects := by
    intro f
    rw [dataWritePage_pageAddr env.flash _ f (p := 2 * (frameSeq b).toNat) (by omega) (frameAddr_first writes.seq_le)]
    simp only []
    split
    · split <;> exact ⟨_, List.mem_cons_of_mem _ List.mem_cons_self⟩
    · exact ⟨_, List.mem_cons_of_mem _ List.mem_cons_self⟩
  obtain ⟨c, hc⟩ := hpage d.flash
  obtain ⟨a, rfl, ⟨-, heq⟩ | ⟨-, -, b', -, heq⟩⟩ := dataWrite_cases writes.seq_le writes.len_pos writes.len_le env.flash
    (frameImage lib d.cryptoIv b) d.flash
  · exact ⟨c, by rw [frameWrite, heq]; exact hc⟩
  · exact ⟨c, by rw [frameWrite, heq]; exact List.mem_append_left _ hc⟩

theorem Confined.slots {f : Flash} {w : WriteRes} {d d' : Dev} (h : Confined f w) (flash : d.flash = f) (hd : Latched d)
    (flash' : d'.flash = w.flash) (cpuBank : d'.cpuBank = d.cpuBank) : d'.slots.running = d.slots.running := by
  subst flash
  rw [Dev.slots, Dev.slots, cpuBank, hd, flash']
  exact h.bank0

theorem Handled.slots {env : Env} {d : Dev} {r : Dev × Out} (h : Handled lib env d b r) (hd : Latched d) :
    Slots.Step (∃ c, .command c ∈ r.2.effects) False d.slots r.1.slots := by
  have hwrite : ∀ {w : WriteRes} {d' : Dev} {effects : List Effect}, Writes env d b → w = frameWrite lib env d b →
      d'.flash = w.flash → d'.cpuBank = d.cpuBank → (∀ e ∈ w.effects, e ∈ effects) →
      Slots.Step (∃ c, .command c ∈ effects) False d.slots d'.slots := by
    intro w d' effects writes write flash cpuBank heffects
    obtain ⟨c, hc⟩ : ∃ c, .command c ∈ w.effects := write ▸ frameWrite_command writes
    have hrunning := (frameWrite_confined writes write).slots rfl hd flash cpuBank
    have hslots : d'.slots = ⟨d.slots.running, d'.slots.standby⟩ := by rw [← hrunning]
    rw [hslots]
    exact .write ⟨c, heffects _ hc⟩ _
  cases h with
  | writeErr writes w write => exact hwrite writes write rfl rfl fun _ => id
  | readBackErr writes w write => exact hwrite writes write rfl rfl fun _ => List.mem_append_left _
  | stored writes w write => exact hwrite writes write rfl rfl fun _ => List.mem_append_left _
  | _ => exact .keep

theorem efcPerformGpnvm_cells (o : GpnvmOutcome) (f : Flash) (bit : Bool) : (efcPerformGpnvm o f bit).2.cells = f.cells := by
  cases o <;> rfl

theorem codeSwitching_cells (o : GpnvmOutcome) (f : Flash) : (codeSwitching o f).cells = f.cells := by
  unfold codeSwitching flashClearGpnvm flashSetGpnvm
  cases flashIsGpnvmSet f with
  | false =>
    simp only [Bool.false_eq_true, if_false]
    split <;> exact efcPerformGpnvm_cells o f true
  | true =>
    simp only [if_true, Bool.not_true, Bool.false_eq_true, if_false]
    split <;> exact efcPerformGpnvm_cells o f false

theorem boot_slots (idx : Int) (f : Flash) : (boot idx f).slots = ⟨f.cells f.efcAt0, f.bank1⟩ := by
  unfold boot upgradeInit Dev.slots
  by_cases h : idx = -1 <;> simp [h, powerUp]

theorem codeSwitching_done (f : Flash) : (codeSwitching .done f).gpnvm2 = !f.gpnvm2 := by
  unfold codeSwitching flashClearGpnvm flashSetGpnvm
  cases hf : flashIsGpnvmSet f with
  | false => exact (congrArg not hf).symm
  | true => exact (congrArg not hf).symm

theorem codeSwitching_error (flags : { w : Word // w ≠ 0 }) (left : Bool) (f : Flash) :
    (codeSwitching (.error flags left) f).gpnvm2 = left := by
  unfold codeSwitching flashClearGpnvm flashSetGpnvm efcPerformGpnvm
  cases hf : flashIsGpnvmSet f with
  | false => simp only [Bool.false_eq_true, if_false, if_neg flags.property]
  | true => simp only [if_true, Bool.not_true, Bool.false_eq_true, if_false, if_neg flags.property]

theorem boot_codeSwitching {d : Dev} (o : GpnvmOutcome) (hd : Latched d) :
    (boot idx (codeSwitching o d.flash)).slots =
      if (codeSwitching o d.flash).gpnvm2 = d.flash.gpnvm2 then d.slots else d.slots.swap := by
  have hcells := codeSwitching_cells o d.flash
  generalize codeSwitching o d.flash = f at hcells
  have hold : d.slots = ⟨d.flash.cells d.flash.efcAt0, d.flash.cells d.flash.efcAt1⟩ := by
    rw [Dev.slots, hd, Flash.bank1]
  rw [boot_slots, hold, Flash.bank1, hcells, Slots.swap]
  cases hf : f.gpnvm2 <;> cases hg : d.flash.gpnvm2 <;> simp [Flash.efcAt0, Flash.efcAt1, hf, hg]

theorem switched_slots {d : Dev} (o : GpnvmOutcome) (hd : Latched d) :
    (boot idx (codeSwitching o d.flash)).slots = d.switched o := by
  rw [boot_codeSwitching o hd]
  cases o with
  | done =>
    rw [codeSwitching_done, if_neg (Bool.not_ne_self _)]
    rfl
  | error flags left => rw [codeSwitching_error, Dev.switched]

theorem Dev.switched_cases (d : Dev) (o : GpnvmOutcome) : d.switched o = d.slots ∨ d.switched o = d.slots.swap := by
  cases o with
  | done => exact .inr rfl
  | error flags left => exact ite_eq_or_eq _ _ _

theorem frame_unswitched (d : Dev) (fr : Frame) : .codeSwitching ∉ ((device lib idx).turn d (.frame fr)).out.2 := by
  intro h
  obtain ⟨r, hr, ht, -⟩ := device_frame lib idx d fr
  rw [ht] at h
  rcases hr.effects h with ⟨w, writes, rfl, hw⟩ | ⟨rc, hrc⟩ | hs
  · rcases dataWrite_effects writes.seq_le writes.len_pos writes.len_le hw with ⟨o, -, he⟩ | ⟨c, he⟩
    · exact nomatch he
    · exact nomatch he
  · exact nomatch hrc
  · exact nomatch hs

theorem switch_slots {d : Dev} {e : Event} (hd : Latched d)
    (h : .codeSwitching ∈ ((device lib idx).turn d e).out.2) :
    ∃ curTime o, e = .poll curTime o ∧ ((device lib idx).next d e).slots = d.switched o := by
  cases e with
  | frame fr => exact absurd h (frame_unswitched d fr)
  | poll curTime o =>
    obtain ⟨r, hr, ht, hn⟩ := device_poll lib idx d curTime o
    rw [ht] at h
    cases hr with
    | off => exact nomatch h
    | waiting => exact nomatch h
    | switched => exact ⟨curTime, o, rfl, by rw [hn]; exact switched_slots o hd⟩

theorem device_slots (d : Dev) (e : Event) (hd : Latched d) :
    Slots.Step (∃ c, .command c ∈ ((device lib idx).turn d e).out.2)
      (.codeSwitching ∈ ((device lib idx).turn d e).out.2) d.slots ((device lib idx).next d e).slots := by
  cases e with
  | frame fr =>
    obtain ⟨r, hr, ht, hn⟩ := device_frame lib idx d fr
    rw [ht, hn]
    have hstep := hr.slots hd
    generalize r.1.slots = s at hstep
    cases hstep with
    | keep => exact .keep
    | write h => exact .write h _
    | swap h => exact h.elim
  | poll curTime o =>
    obtain ⟨r, hr, ht, hn⟩ := device_poll lib idx d curTime o
    rw [ht, hn]
    cases hr with
    | off => exact .keep
    | waiting => exact .keep
    | switched =>
      rw [switched_slots o hd]
      rcases d.switched_cases o with h | h
      · rw [h]
        exact .keep
      · rw [h]
        exact .swap (List.mem_singleton.mpr rfl)

theorem cut_slots {d : Dev} (e : Event) (hd : Latched d) :
    ((powered lib idx).next d (.cut e)).slots = ((device lib idx).next d e).slots := by
  rw [powered_next_cut, boot_slots, Dev.slots, latched_next d e hd]

theorem powered_slots (d : Dev) (m : Moment) (hd : Latched d) :
    Slots.Step (∃ c, .command c ∈ ((powered lib idx).turn d m).out.2)
      (.codeSwitching ∈ ((powered lib idx).turn d m).out.2) d.slots ((powered lib idx).next d m).slots := by
  cases m with
  | run e => exact device_slots d e hd
  | cut e =>
    rw [cut_slots e hd]
    exact device_slots d e hd

-- ---------------------------------------------------------------------------
-- Whole lives
-- ---------------------------------------------------------------------------

def Turn.device? (t : PoweredTurn) : Option DeviceTurn :=
  match t.input with
  | .run e => some ⟨t.pre, e, t.out, t.post⟩
  | .cut _ => none

def Requested (t : PoweredTurn) : Prop := ∃ e, t.input = .run e ∧ ExecAcked ⟨t.pre, e, t.out, t.post⟩

def Restarted (t : PoweredTurn) : Prop := (∃ e, t.input = .cut e) ∨ .codeSwitching ∈ t.out.2

theorem boot_unarmed (idx : Int) (f : Flash) : (boot idx f).switchingTimerPoll = false := by
  unfold boot upgradeInit
  by_cases h : idx = -1 <;> simp [h, powerUp]

theorem armed_next (d : Dev) (m : Moment) (h : ((powered lib idx).next d m).switchingTimerPoll = true) :
    Requested ((powered lib idx).turn d m) ∨
      d.switchingTimerPoll = true ∧ ¬ Restarted ((powered lib idx).turn d m) := by
  have hframe : ∀ {fr : Frame} {d : Dev}, ¬ Restarted ((powered lib idx).turn d (.run (.frame fr))) := by
    rintro fr d (⟨e, he⟩ | he)
    · exact nomatch he
    · have hswitch : .codeSwitching ∈ ((device lib idx).turn d (.frame fr)).out.2 := he
      exact frame_unswitched d fr hswitch
  cases m with
  | cut e =>
    rw [powered_next_cut, boot_unarmed] at h
    exact absurd h Bool.false_ne_true
  | run e =>
    cases e with
    | frame fr =>
      obtain ⟨r, hr, ht, hn⟩ := device_frame lib idx d fr
      rw [powered_next_run, hn] at h
      cases hr with
      | exec command cmd =>
        refine .inl ⟨.frame fr, rfl, ⟨⟨fr, rfl, command.type, cmd⟩, ?_⟩⟩
        have hout := congrArg Turn.out ht
        exact ⟨_, congrArg Prod.fst hout, rfl⟩
      | _ => exact .inr ⟨h, hframe⟩
    | poll curTime o =>
      obtain ⟨r, hr, ht, hn⟩ := device_poll lib idx d curTime o
      have hout : ((powered lib idx).turn d (.run (.poll curTime o))).out.2 = r.2 :=
        congrArg (fun t => t.out.2) ht
      rw [powered_next_run, hn] at h
      cases hr with
      | off => exact .inr ⟨h, fun hr => hr.elim (fun ⟨e, he⟩ => nomatch he) fun he => nomatch hout ▸ he⟩
      | waiting => exact .inr ⟨h, fun hr => hr.elim (fun ⟨e, he⟩ => nomatch he) fun he => nomatch hout ▸ he⟩
      | switched =>
        rw [boot_unarmed] at h
        exact absurd h Bool.false_ne_true

theorem latched_run (idx : Int) (f : Flash) (moments : List Moment) :
    Latched ((powered lib idx).run (boot idx f) moments) :=
  Machine.inv powered_latched (latched_boot idx f) moments

/-- From any state of any life, the image that runs stays as it is through all that is received,
written and cut short, until a switch; and while nothing is written either, so does the other
one. A switch exchanges the two where the GPNVM bit is written, and where error flags are
raised it does so just when they leave the bit changed; it comes only after an `EXEC` since the
last start. -/
theorem power_safe (lib : GcmLib) (idx : Int) (f : Flash) (before after : List Moment) (m : Moment) :
    let d₀ := (powered lib idx).run (boot idx f) before
    let turns := (powered lib idx).turns d₀ after
    let d := (powered lib idx).run d₀ after
    let t := (powered lib idx).turn d m
    ((∀ t ∈ turns, .codeSwitching ∉ t.out.2) → d.slots.running = d₀.slots.running ∧
      ((∀ t ∈ turns, ∀ c, .command c ∉ t.out.2) → d.slots = d₀.slots)) ∧
    (.codeSwitching ∈ t.out.2 →
      (∃ curTime o, m.event = .poll curTime o ∧ (o = .done → t.post.slots = d.slots.swap) ∧
        ∀ flags left, o = .error flags left →
          t.post.slots = if left = d.flash.gpnvm2 then d.slots else d.slots.swap) ∧
      Since Requested Restarted ((powered lib idx).turns (boot idx f) (before ++ after))) := by
  intro d₀ turns d t
  constructor
  · have key := Machine.history (m := powered lib idx) (s := d₀)
      (R := fun turns d => Latched d ∧ ((∀ t ∈ turns, .codeSwitching ∉ t.out.2) →
        d.slots.running = d₀.slots.running ∧ ((∀ t ∈ turns, ∀ c, .command c ∉ t.out.2) → d.slots = d₀.slots)))
      (fun turns d m hr => ⟨powered_latched d m hr.1, by
        intro hs
        have hstep : Slots.Step (∃ c, .command c ∈ ((powered lib idx).turn d m).out.2)
          (.codeSwitching ∈ ((powered lib idx).turn d m).out.2) d.slots _ := powered_slots d m hr.1
        have hno : .codeSwitching ∉ ((powered lib idx).turn d m).out.2 := hs _ (by simp)
        obtain ⟨hrunning, hslots⟩ := hr.2 fun t ht => hs t (List.mem_append_left _ ht)
        refine ⟨(hstep.running hno).trans hrunning, fun hw => ?_⟩
        have hnone : ¬ ∃ c, .command c ∈ ((powered lib idx).turn d m).out.2 := fun ⟨c, hc⟩ => hw _ (by simp) c hc
        exact (hstep.kept hnone hno).trans (hslots fun t ht => hw t (List.mem_append_left _ ht))⟩)
      ⟨latched_run idx f before, fun _ => ⟨rfl, fun _ => rfl⟩⟩ after
    exact key.2
  · intro hswitch
    have hd : Latched d := Machine.inv powered_latched (latched_run idx f before) after
    have hsince := Machine.since_of_flag (F := fun d => d.switchingTimerPoll = true) (m := powered lib idx)
      armed_next (Bool.eq_false_iff.mp (boot_unarmed idx f)) (before ++ after)
    rw [Machine.run_append] at hsince
    have harmed : d.switchingTimerPoll = true := by
      cases m with
      | run e => exact codeSwitching_armed d e hswitch
      | cut e => exact codeSwitching_armed d e hswitch
    obtain ⟨curTime, o, hevent, hslots⟩ : ∃ curTime o, m.event = .poll curTime o ∧ t.post.slots = d.switched o := by
      cases m with
      | run e => exact switch_slots hd hswitch
      | cut e =>
        obtain ⟨curTime, o, he, hslots⟩ := switch_slots hd hswitch
        exact ⟨curTime, o, he, (cut_slots e hd).trans hslots⟩
    refine ⟨⟨curTime, o, hevent, ?_, ?_⟩, hsince harmed⟩
    · rintro rfl
      exact hslots
    · rintro flags left rfl
      exact hslots

-- ---------------------------------------------------------------------------
-- What runs was approved
-- ---------------------------------------------------------------------------

/-- What power cuts undo needs no guard. -/
def GuardedMoment (d : Dev) : Moment → Prop
  | .run e => Guarded d e
  | .cut _ => True

theorem Approved.requested {turns : List PoweredTurn} {d : Dev} (h : Approved (turns.filterMap Turn.device?) d) :
    ∃ x ∈ turns, Requested x ∧ 0 < x.post.fileLen ∧ d.slots.standby = x.post.slots.standby := by
  obtain ⟨before, x, after, heq, hexec, -, hlen, hbank⟩ := h
  have hmem : x ∈ turns.filterMap Turn.device? := heq ▸ List.mem_append_right _ List.mem_cons_self
  obtain ⟨t, ht, hx⟩ := List.mem_filterMap.mp hmem
  obtain ⟨pre, input, out, post⟩ := t
  cases input with
  | cut e => exact nomatch hx
  | run e =>
    obtain rfl := Option.some.inj hx
    exact ⟨_, ht, ⟨e, rfl, hexec⟩, hlen, hbank⟩

structure Trusted (f : Flash) (idx : Int) (turns : List PoweredTurn) (d : Dev) : Prop where
  latched : Latched d
  counted : Counted d
  armed : d.switchingTimerPoll = true → Approved (turns.filterMap Turn.device?) d
  running : d.slots.running = (boot idx f).slots.running ∨
    ∃ x ∈ turns, Requested x ∧ 0 < x.post.fileLen ∧ d.slots.running = x.post.slots.standby

/-- The image that runs after a turn ran before it, or was approved. -/
theorem Trusted.next (lib : GcmLib) {f : Flash} {turns : List PoweredTurn} {d d' : Dev} (h : Trusted f idx turns d)
    (e : Event) (t : PoweredTurn) (slots : d'.slots = ((device lib idx).next d e).slots) :
    d'.slots.running = (boot idx f).slots.running ∨
      ∃ x ∈ turns ++ [t], Requested x ∧ 0 < x.post.fileLen ∧ d'.slots.running = x.post.slots.standby := by
  have hkept : d'.slots.running = d.slots.running → d'.slots.running = (boot idx f).slots.running ∨
      ∃ x ∈ turns ++ [t], Requested x ∧ 0 < x.post.fileLen ∧ d'.slots.running = x.post.slots.standby := by
    intro heq
    rw [heq]
    exact h.running.imp_right fun ⟨x, hx, hr⟩ => ⟨x, List.mem_append_left _ hx, hr⟩
  by_cases hswitch : .codeSwitching ∈ ((device lib idx).turn d e).out.2
  · obtain ⟨curTime, o, -, hslots⟩ := switch_slots h.latched hswitch
    rw [← slots] at hslots
    rcases d.switched_cases o with hsame | hswap
    · exact hkept (by rw [hslots, hsame])
    · obtain ⟨x, hx, hrequested, hlen, hbank⟩ := (h.armed (codeSwitching_armed d e hswitch)).requested
      exact .inr ⟨x, List.mem_append_left _ hx, hrequested, hlen, by rw [hslots, hswap, ← hbank]; rfl⟩
  · exact hkept (by rw [slots]; exact (device_slots d e h.latched).running hswitch)

theorem trusted_next {f : Flash} (turns : List PoweredTurn) (d : Dev) (m : Moment) (h : Trusted f idx turns d)
    (hg : GuardedMoment d m) :
    Trusted f idx (turns ++ [(powered lib idx).turn d m]) ((powered lib idx).next d m) := by
  refine ⟨powered_latched d m h.latched, ?_, ?_, ?_⟩
  · cases m with
    | run e => exact counted_next d e h.counted
    | cut e => exact counted_boot _ _
  · cases m with
    | run e =>
      have hdevice : Turn.device? ((powered lib idx).turn d (.run e)) = some ((device lib idx).turn d e) := rfl
      rw [List.filterMap_append, List.filterMap_cons_some hdevice]
      exact approved_next _ d e h.counted h.armed hg
    | cut e =>
      rw [powered_next_cut, boot_unarmed]
      exact fun harmed => absurd harmed Bool.false_ne_true
  · cases m with
    | run e => exact h.next lib e _ rfl
    | cut e => exact h.next lib e _ (cut_slots e h.latched)

/-- In a life whose turns are all guarded, what runs is the image of the first start or one
that an `EXEC` found uploaded, as it was then, whatever was cut short on the way. -/
theorem runs_approved (lib : GcmLib) (idx : Int) (f : Flash) (moments : List Moment)
    (guarded : (powered lib idx).Meets GuardedMoment (boot idx f) moments) :
    let turns := (powered lib idx).turns (boot idx f) moments
    let d := (powered lib idx).run (boot idx f) moments
    d.slots.running = (boot idx f).slots.running ∨
      ∃ x ∈ turns, Requested x ∧ 0 < x.post.fileLen ∧ d.slots.running = x.post.slots.standby := by
  have hboot : Trusted f idx [] (boot idx f) :=
    ⟨latched_boot idx f, counted_boot idx f,
      fun harmed => absurd ((boot_unarmed idx f).symm.trans harmed) Bool.false_ne_true, .inl rfl⟩
  have key := Machine.history_of_meets (m := powered lib idx) (R := Trusted f idx) trusted_next hboot guarded
  exact key.running

theorem powered_meets {cond : Dev → Moment → Prop} (h : (device lib idx).Meets (fun d e => cond d (.run e)) d events)
    (hm : (powered lib idx).Meets cond ((device lib idx).run d events) moments) :
    (powered lib idx).Meets cond d (events.map .run ++ moments) := by
  induction events generalizing d with
  | nil => exact hm
  | cons e events ih => exact ⟨h.1, ih h.2 hm⟩

/-- An upload, the switch to it, and a power cut on the way to the next upload. -/
theorem runs_approved_cut :
    let moments := [sampleAuth System.gcmMemory, sampleData, sampleExec].map Moment.run ++
      [.run (.poll 3001 .done), .run (sampleAuth System.gcmMemory), .cut sampleData]
    let d := (powered System.gcmMemory 0).run (boot 0 blankFlash) moments
    d.slots.running = (boot 0 blankFlash).slots.running ∨
      ∃ x ∈ (powered System.gcmMemory 0).turns (boot 0 blankFlash) moments,
        Requested x ∧ 0 < x.post.fileLen ∧ d.slots.running = x.post.slots.standby :=
  runs_approved System.gcmMemory 0 blankFlash _
    (powered_meets guarded_block ⟨trivial, guarded_sampleAuth _ _, trivial, trivial⟩)

end EthernetOta.Firmware
