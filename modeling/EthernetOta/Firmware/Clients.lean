import EthernetOta.Firmware.Alike

/-!
# Two clients

`handle_upgrade_packet` does not know which connection a frame comes on: there is
one session, and whoever sends into it takes part in it. The frames of a second
client go unnoticed as long as no session is open when they come, or they are
refused without a change to it.
-/

namespace EthernetOta.Firmware

inductive Arrival
  | fromA (fr : Frame)
  | fromB (fr : Frame)
  | poll (curTime : Word) (o : GpnvmOutcome)

def Arrival.event : Arrival → Event
  | .fromA fr => .frame fr
  | .fromB fr => .frame fr
  | .poll curTime o => .poll curTime o

def Arrival.visible : Arrival → Bool
  | .fromB _ => false
  | _ => true

def clients (lib : GcmLib) (idx : Int) : Machine Dev Arrival (Option Out × List Effect) where
  step d a := (device lib idx).step d a.event

/-- An authentication frame without the tag for its IV, or another frame. -/
def WrongTag (lib : GcmLib) (fr : Frame) : Prop :=
  frameType fr.buffer = authenticatedFrame → aadTag lib (authIv fr.buffer) ≠ authTag fr.buffer

/-- No session is open, or the frame is one that an open session takes no notice of. -/
inductive Harmless (d : Dev) (fr : Frame) : Prop
  | closed (auth : d.isAuthenticated = false)
  | invalid (valid : ¬ Valid d fr.buffer)
  | seqRange (type : frameType fr.buffer = dataFrame) (seq : maxSeqNum < (frameSeq fr.buffer).toNat)
  | badLen (next : Next d fr.buffer)
    (len : maxPlaintextLen < (frameLen fr.buffer).toNat ∨ (frameLen fr.buffer).toNat = 0)
  | decryptErr (next : Next d fr.buffer) (err : d.cryptoIdx = -1 ∨ fr.env.gcmErr ≠ 0)
  | unknown (type : frameType fr.buffer = commandFrame) (cmd : frameCmd fr.buffer ≠ getVersion ∧
      frameCmd fr.buffer ≠ getCrc ∧ frameCmd fr.buffer ≠ exec)

def Unnoticed (d : Dev) : Arrival → Prop
  | .fromB fr => Harmless d fr
  | _ => True

-- ---------------------------------------------------------------------------
-- Harmless frames
-- ---------------------------------------------------------------------------

section
variable {lib : GcmLib} {d : Dev} {fr : Frame} {r : Dev × Out}

theorem Harmless.closed_of_auth (h : Harmless d fr) (valid : Valid d fr.buffer)
    (type : frameType fr.buffer = authenticatedFrame) : d.isAuthenticated = false := by
  have hdata : authenticatedFrame ≠ dataFrame := by decide
  have hcommand : authenticatedFrame ≠ commandFrame := by decide
  cases h with
  | closed auth => exact auth
  | invalid hv => exact absurd valid hv
  | seqRange t => exact absurd (type.symm.trans t) hdata
  | badLen next => exact absurd (type.symm.trans next.type) hdata
  | decryptErr next => exact absurd (type.symm.trans next.type) hdata
  | unknown t => exact absurd (type.symm.trans t) hcommand

theorem Harmless.seq_eq (h : Harmless d fr) (auth : d.isAuthenticated = true) (valid : Valid d fr.buffer)
    (type : frameType fr.buffer = dataFrame) (seq_le : (frameSeq fr.buffer).toNat ≤ maxSeqNum) :
    Next d fr.buffer := by
  have hcommand : dataFrame ≠ commandFrame := by decide
  cases h with
  | closed h => exact absurd (h.symm.trans auth) Bool.false_ne_true
  | invalid hv => exact absurd valid hv
  | seqRange _ seq => exact absurd seq_le (Nat.not_le_of_lt seq)
  | badLen next => exact next
  | decryptErr next => exact next
  | unknown t => exact absurd (type.symm.trans t) hcommand

theorem Harmless.not_writes (h : Harmless d fr) : ¬ Writes fr.env d fr.buffer := by
  intro writes
  have hcommand : dataFrame ≠ commandFrame := by decide
  cases h with
  | closed h => exact absurd (h.symm.trans writes.auth) Bool.false_ne_true
  | invalid hv => exact absurd writes.valid hv
  | seqRange _ seq => exact absurd writes.seq_le (Nat.not_le_of_lt seq)
  | badLen _ len =>
    rcases len with len | len
    · exact absurd writes.len_le (Nat.not_le_of_lt len)
    · exact absurd len (Nat.ne_of_gt writes.len_pos)
  | decryptErr _ err => exact err.elim writes.idx fun hne => hne writes.gcm
  | unknown t => exact absurd (writes.type.symm.trans t) hcommand

theorem Harmless.unknown_of_commands (h : Harmless d fr) (command : Commands d fr.buffer) :
    frameCmd fr.buffer ≠ getVersion ∧ frameCmd fr.buffer ≠ getCrc ∧ frameCmd fr.buffer ≠ exec := by
  have hdata : commandFrame ≠ dataFrame := by decide
  cases h with
  | closed h => exact absurd (h.symm.trans command.auth) Bool.false_ne_true
  | invalid hv => exact absurd command.valid hv
  | seqRange t => exact absurd (command.type.symm.trans t) hdata
  | badLen next => exact absurd (command.type.symm.trans next.type) hdata
  | decryptErr next => exact absurd (command.type.symm.trans next.type) hdata
  | unknown _ cmd => exact cmd

/-- Such a frame is refused, and the state is as good as the one before. -/
theorem Handled.harmless (h : Handled lib fr.env d fr.buffer r) (reset : Reset d) (tag : WrongTag lib fr)
    (harmless : Harmless d fr) : r.2.ret = failure ∧ r.2.effects = [] ∧ Alike d r.1 := by
  cases h with
  | invalid => exact ⟨rfl, rfl, .refl d⟩
  | authFail valid type =>
    have auth := harmless.closed_of_auth valid type
    obtain ⟨hseq, hlen⟩ := reset auth
    exact ⟨rfl, rfl, auth.symm, hseq.symm, hlen.symm, rfl, rfl, rfl, rfl, rfl, rfl,
      fun hopen => absurd (auth.symm.trans hopen) Bool.false_ne_true⟩
  | authPass _ type right => exact absurd right.2.2 (tag type)
  | closed => exact ⟨rfl, rfl, .refl d⟩
  | seqRange => exact ⟨rfl, rfl, .refl d⟩
  | seqMismatch auth valid type seq_le seq =>
    exact absurd (harmless.seq_eq auth valid type seq_le).seq seq
  | badLen => exact ⟨rfl, rfl, .refl d⟩
  | decryptErr _ _ p g => exact ⟨rfl, rfl, (Alike.refl d).scratch d.plaintext p d.gcm g⟩
  | writeErr writes => exact absurd writes harmless.not_writes
  | readBackErr writes => exact absurd writes harmless.not_writes
  | stored writes => exact absurd writes harmless.not_writes
  | version command cmd => exact absurd cmd (harmless.unknown_of_commands command).1
  | crc command cmd => exact absurd cmd (harmless.unknown_of_commands command).2.1
  | exec command cmd => exact absurd cmd (harmless.unknown_of_commands command).2.2
  | unknown => exact ⟨rfl, rfl, .refl d⟩

end

-- ---------------------------------------------------------------------------
-- Runs
-- ---------------------------------------------------------------------------

section
variable {lib : GcmLib} {idx : Int} {d : Dev}

theorem reset_next (d : Dev) (e : Event) (h : Reset d) : Reset ((device lib idx).next d e) := by
  cases e with
  | frame fr =>
    obtain ⟨r, hr, -, hn⟩ := device_frame lib idx d fr
    rw [hn]
    exact hr.reset h
  | poll curTime o =>
    obtain ⟨r, hr, -, hn⟩ := device_poll lib idx d curTime o
    rw [hn]
    cases hr with
    | off => exact h
    | waiting => exact h
    | switched => exact reset_boot _ _

/-- A frame of `B` is answered with an error, and does nothing else. -/
def RefusesB (t : Turn Dev Arrival (Option Out × List Effect)) : Prop :=
  ∀ fr, t.input = .fromB fr → t.out.2 = [] ∧
    ∃ out, t.out.1 = some out ∧ out.ret = failure ∧ ErrorCode out.ack

theorem clients_fromB {fr : Frame} (reset : Reset d) (tag : WrongTag lib fr) (harmless : Harmless d fr) :
    RefusesB ((clients lib idx).turn d (.fromB fr)) ∧ Alike d ((clients lib idx).next d (.fromB fr)) := by
  have h := handled lib fr.env d fr.buffer
  obtain ⟨hret, heffects, halike⟩ := h.harmless reset tag harmless
  refine ⟨fun fr' hinput => ?_, halike⟩
  obtain rfl := Arrival.fromB.inj hinput
  exact ⟨heffects, _, rfl, hret, (h.noTrace idx hret).ack⟩

theorem clients_turn {a : Arrival} (reset : Reset d) (tag : ∀ fr, a = .fromB fr → WrongTag lib fr)
    (unnoticed : Unnoticed d a) : RefusesB ((clients lib idx).turn d a) := by
  cases a with
  | fromA fr => exact fun fr' hinput => by cases hinput
  | fromB fr => exact (clients_fromB reset (tag fr rfl) unnoticed).1
  | poll curTime o => exact fun fr' hinput => by cases hinput

theorem clients_hidden {e : Dev} {a : Arrival} (h : Alike d e) (reset : Reset d) (hidden : a.visible = false)
    (tag : ∀ fr, a = .fromB fr → WrongTag lib fr) (unnoticed : Unnoticed d a) :
    Alike ((clients lib idx).next d a) e := by
  cases a with
  | fromA fr => exact absurd hidden.symm Bool.false_ne_true
  | fromB fr => exact (clients_fromB reset (tag fr rfl) unnoticed).2.symm.trans h
  | poll curTime o => exact absurd hidden.symm Bool.false_ne_true

end

structure Apart (lib : GcmLib) (idx : Int) (d : Dev) (arrivals : List Arrival) : Prop where
  seen : Machine.seen Arrival.visible ((clients lib idx).turns d arrivals) =
    ((clients lib idx).turns d (arrivals.filter Arrival.visible)).map Turn.out
  bank1 : ((clients lib idx).run d arrivals).flash.bank1 =
    ((clients lib idx).run d (arrivals.filter Arrival.visible)).flash.bank1
  timer : ((clients lib idx).run d arrivals).switchingTimer =
    ((clients lib idx).run d (arrivals.filter Arrival.visible)).switchingTimer
  refused : ∀ t ∈ (clients lib idx).turns d arrivals, RefusesB t

/-- Without the right tag, a client whose frames are harmless does not interfere with another. -/
theorem clients_apart (lib : GcmLib) (idx : Int) (f : Flash) (arrivals : List Arrival)
    (tags : ∀ a ∈ arrivals, ∀ fr, a = .fromB fr → WrongTag lib fr)
    (unnoticed : (clients lib idx).Meets Unnoticed (boot idx f) arrivals) :
    Apart lib idx (boot idx f) arrivals := by
  have hmeets := Machine.Meets.of_mem tags unnoticed
  have hseen : ∀ d e a, Alike d e ∧ Reset d → a.visible = true →
      ((clients lib idx).step d a).2 = ((clients lib idx).step e a).2 ∧
        Alike ((clients lib idx).next d a) ((clients lib idx).next e a) ∧ Reset ((clients lib idx).next d a) := by
    rintro d e a ⟨h, reset⟩ -
    obtain ⟨hout, hnext⟩ := device_alike lib idx a.event h
    exact ⟨hout.symm, hnext, reset_next d a.event reset⟩
  have hhidden : ∀ d e a, Alike d e ∧ Reset d → a.visible = false →
      ((∀ fr, a = .fromB fr → WrongTag lib fr) ∧ Unnoticed d a) →
      Alike ((clients lib idx).next d a) e ∧ Reset ((clients lib idx).next d a) := by
    rintro d e a ⟨h, reset⟩ hidden ⟨tag, hun⟩
    exact ⟨clients_hidden h reset hidden tag hun, reset_next d a.event reset⟩
  obtain ⟨hsame, halike, -⟩ := Machine.hide hseen hhidden ⟨.refl _, reset_boot idx f⟩ (hmeets.mono fun _ _ h _ => h)
  have hrefused := Machine.history_of_meets (m := clients lib idx) (R := fun ts d => Reset d ∧ ∀ t ∈ ts, RefusesB t)
    (fun ts d a h hcond => ⟨reset_next d a.event h.1, fun t ht => ?_⟩)
    ⟨reset_boot idx f, fun t ht => absurd ht List.not_mem_nil⟩ hmeets
  · exact ⟨hsame, (congrArg Flash.bank1 halike.flash).symm, halike.timer.symm, hrefused.2⟩
  · rcases List.mem_append.mp ht with ht | ht
    · exact h.2 t ht
    · rw [List.mem_singleton.mp ht]
      exact clients_turn h.1 hcond.1 hcond.2

def sampleFrame (bytes : List Byte) : Frame := ⟨.ofList bytes fun _ => 0, ⟨0, fun _ => .done, 0⟩⟩

def sampleExecFrame : Frame := sampleFrame (App.generateCommandFrame .exeFirmware)

theorem wrongTag_exec (lib : GcmLib) : WrongTag lib sampleExecFrame := by
  have htype : commandFrame ≠ authenticatedFrame := by decide
  exact fun type => absurd ((System.commandFrame_type .exeFirmware _).symm.trans type) htype

/-- `B` sends `EXEC` before `A` opens a session. -/
theorem clients_apart_closed : Apart System.gcmMemory 0 (boot 0 blankFlash)
    [.fromB sampleExecFrame, .fromA (sampleFrame (App.authenticationFrame sampleIv (aadTag System.gcmMemory sampleIv)))] := by
  refine clients_apart System.gcmMemory 0 blankFlash _ ?_ ⟨.closed rfl, trivial, trivial⟩
  intro a ha fr hfr
  rcases List.mem_cons.mp ha with rfl | ha
  · obtain rfl := Arrival.fromB.inj hfr
    exact wrongTag_exec _
  · rw [List.mem_singleton.mp ha] at hfr
    cases hfr

def mixed (lib : GcmLib) : List Arrival :=
  [.fromA (sampleFrame (App.authenticationFrame sampleIv (aadTag lib sampleIv))), .fromB sampleExecFrame]

theorem wrongTags_mixed (lib : GcmLib) : ∀ a ∈ mixed lib, ∀ fr, a = .fromB fr → WrongTag lib fr := by
  intro a ha fr hfr
  rcases List.mem_cons.mp ha with rfl | ha
  · cases hfr
  · rw [List.mem_singleton.mp ha] at hfr
    obtain rfl := Arrival.fromB.inj hfr
    exact wrongTag_exec _

theorem not_apart_mixed (lib : GcmLib) : ¬ Apart lib 0 (boot 0 blankFlash) (mixed lib) := by
  have hidx : (boot 0 blankFlash).cryptoIdx ≠ -1 := by decide
  obtain ⟨p, g, hauth⟩ := next_sampleAuth lib 0 (boot 0 blankFlash) hidx
  intro apart
  have hmem : (clients lib 0).turn ((device lib 0).next (boot 0 blankFlash) (sampleAuth lib)) (.fromB sampleExecFrame) ∈
      (clients lib 0).turns (boot 0 blankFlash) (mixed lib) :=
    List.mem_cons_of_mem _ List.mem_cons_self
  obtain ⟨heffects, -⟩ := apart.refused _ hmem sampleExecFrame rfl
  have hexec := System.handle_generateCommandFrame lib ⟨0, fun _ => .done, 0⟩ (fun _ => 0) .exeFirmware
    (d := (device lib 0).next (boot 0 blankFlash) (sampleAuth lib)) (hauth ▸ rfl)
  have hstarted := (congrArg (fun r => r.2.effects) hexec).symm.trans heffects
  exact List.cons_ne_nil _ _ hstarted

/-- `B` sends `EXEC` into the session of `A`: it is acknowledged, and the switching timer starts. -/
theorem clients_interfere :
    (∀ a ∈ mixed System.gcmMemory, ∀ fr, a = .fromB fr → WrongTag System.gcmMemory fr) ∧
      ¬ Apart System.gcmMemory 0 (boot 0 blankFlash) (mixed System.gcmMemory) :=
  ⟨wrongTags_mixed _, not_apart_mixed _⟩

end EthernetOta.Firmware
