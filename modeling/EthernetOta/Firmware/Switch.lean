import EthernetOta.Firmware.Device
import EthernetOta.Firmware.Image
import EthernetOta.System.Wire

/-!
# What the bank switch activates

`EXEC` starts a timer and the switch comes seconds later, with the session still
open. The switch activates the image that was approved when no `EXEC` is taken
without an image and nothing is written while the timer runs; the code checks
neither.
-/

namespace EthernetOta.Firmware

variable {lib : GcmLib} {idx : Int}

structure ExecAcked (t : DeviceTurn) : Prop where
  frame : ∃ fr, t.input = .frame fr ∧ frameType fr.buffer = commandFrame ∧ frameCmd fr.buffer = exec
  ack : ∃ out, t.out.1 = some out ∧ out.ret = success

/-- The last acknowledged `EXEC` found a file, and bank 1 is still what it was then. -/
def Approved (turns : List DeviceTurn) (d : Dev) : Prop :=
  ∃ before x after, turns = before ++ x :: after ∧ ExecAcked x ∧ (∀ y ∈ after, ¬ ExecAcked y) ∧
    0 < x.post.fileLen ∧ d.flash.bank1 = x.post.flash.bank1

/-- An `EXEC` of an open session comes after a data frame, and no frame is written
while the timer runs. -/
def Guarded (d : Dev) : Event → Prop
  | .frame fr =>
    (Commands d fr.buffer → frameCmd fr.buffer = exec → d.prePktSeq ≠ -1) ∧
      (Writes fr.env d fr.buffer → d.switchingTimerPoll = false)
  | .poll _ _ => True

-- ---------------------------------------------------------------------------
-- The length of the file
-- ---------------------------------------------------------------------------

/-- `file_len` counts the frames up to `pre_pkt_seq`, each with 1 to 1024 bytes. -/
structure Counted (d : Dev) : Prop where
  seq_le : d.prePktSeq ≤ maxSeqNum
  le_fileLen : d.prePktSeq + 1 ≤ d.fileLen.toNat
  fileLen_le : d.fileLen.toNat ≤ 1024 * (d.prePktSeq + 1)

theorem Counted.fresh {d : Dev} (seq : d.prePktSeq = -1) (len : d.fileLen = 0) : Counted d := by
  constructor
  · rw [seq]
    decide
  · rw [seq, len]
    decide
  · rw [seq, len]
    decide

theorem counted_boot (idx : Int) (f : Flash) : Counted (boot idx f) := by
  unfold boot upgradeInit
  by_cases h : idx = -1
  · exact .fresh (by simp [h, powerUp]) (by simp [h, powerUp])
  · exact .fresh (by simp [h, powerUp]) (by simp [h, powerUp])

theorem Counted.congr {d d' : Dev} (h : Counted d) (seq : d'.prePktSeq = d.prePktSeq)
    (len : d'.fileLen = d.fileLen) : Counted d' := by
  obtain ⟨h1, h2, h3⟩ := h
  rw [← seq] at h1 h2 h3
  rw [← len] at h2 h3
  exact ⟨h1, h2, h3⟩

theorem Counted.store {env : Env} {d d' : Dev} (h : Counted d) (writes : Writes env d buffer)
    (seq : d'.prePktSeq = (frameSeq buffer).toNat)
    (len : d'.fileLen = d.fileLen + (frameLen buffer).setWidth 32) : Counted d' := by
  have hmax : maxSeqNum = 1023 := rfl
  have hlen : maxPlaintextLen = 1024 := rfl
  have hnext := writes.seq
  have hle := writes.seq_le
  have hpos := writes.len_pos
  have hfit := writes.len_le
  obtain ⟨h1, h2, h3⟩ := h
  have hsum : d'.fileLen.toNat = d.fileLen.toNat + (frameLen buffer).toNat := by
    rw [len, BitVec.toNat_add, BitVec.toNat_setWidth]
    omega
  constructor <;> omega

theorem Handled.counted {env : Env} {d : Dev} {r : Dev × Out} (h : Handled lib env d buffer r)
    (hd : Counted d) : Counted r.1 := by
  cases h with
  | stored writes => exact hd.store writes rfl rfl
  | authFail => exact .fresh rfl rfl
  | authPass => exact .fresh rfl rfl
  | seqMismatch => exact .fresh rfl rfl
  | writeErr => exact .fresh rfl rfl
  | readBackErr => exact .fresh rfl rfl
  | _ => exact hd.congr rfl rfl

theorem counted_next (d : Dev) (e : Event) (hd : Counted d) : Counted ((device lib idx).next d e) := by
  cases e with
  | frame fr =>
    obtain ⟨r, hr, -, hn⟩ := device_frame lib idx d fr
    rw [hn]
    exact hr.counted hd
  | poll curTime o =>
    obtain ⟨r, hr, -, hn⟩ := device_poll lib idx d curTime o
    rw [hn]
    cases hr with
    | off => exact hd
    | waiting => exact hd.congr rfl rfl
    | switched => exact counted_boot _ _

theorem Counted.pos {d : Dev} (h : Counted d) (seq : d.prePktSeq ≠ -1) : 0 < d.fileLen := by
  obtain ⟨-, h2, h3⟩ := h
  rw [BitVec.lt_def]
  have hzero : (0 : Word).toNat = 0 := rfl
  omega

-- ---------------------------------------------------------------------------
-- What EXEC approved
-- ---------------------------------------------------------------------------

theorem Approved.snoc {turns : List DeviceTurn} {d d' : Dev} {t : DeviceTurn} (h : Approved turns d)
    (ht : ¬ ExecAcked t) (flash : d'.flash = d.flash) : Approved (turns ++ [t]) d' := by
  obtain ⟨before, x, after, rfl, hx, hafter, hlen, hbank⟩ := h
  refine ⟨before, x, after ++ [t], by simp, hx, ?_, hlen, flash ▸ hbank⟩
  intro y hy
  rcases List.mem_append.mp hy with hy | hy
  · exact hafter y hy
  · rw [List.mem_singleton.mp hy]
    exact ht

theorem not_execAcked_failure {t : DeviceTurn} (h : t.out.1 = some out) (ret : out.ret = failure) :
    ¬ ExecAcked t := by
  have hne : ¬ failure = success := by decide
  rintro ⟨-, out', hout, hret⟩
  rw [h] at hout
  obtain rfl := Option.some.inj hout
  exact hne (ret.symm.trans hret)

theorem not_execAcked_type {t : DeviceTurn} {fr : Frame} (h : t.input = .frame fr)
    (type : frameType fr.buffer ≠ commandFrame) : ¬ ExecAcked t := by
  rintro ⟨⟨fr', hfr, ht, -⟩, -⟩
  rw [h] at hfr
  obtain rfl := Event.frame.inj hfr
  exact type ht

theorem not_execAcked_cmd {t : DeviceTurn} {fr : Frame} (h : t.input = .frame fr)
    (cmd : frameCmd fr.buffer ≠ exec) : ¬ ExecAcked t := by
  rintro ⟨⟨fr', hfr, -, hc⟩, -⟩
  rw [h] at hfr
  obtain rfl := Event.frame.inj hfr
  exact cmd hc

theorem not_execAcked_poll {t : DeviceTurn} (h : t.out.1 = none) : ¬ ExecAcked t := by
  rintro ⟨-, out, hout, -⟩
  rw [h] at hout
  exact nomatch hout

/-- While the timer runs, the last `EXEC` approved what bank 1 holds. -/
theorem approved_next (turns : List DeviceTurn) (d : Dev) (e : Event) (hd : Counted d)
    (h : d.switchingTimerPoll = true → Approved turns d) (hg : Guarded d e) :
    ((device lib idx).next d e).switchingTimerPoll = true →
      Approved (turns ++ [(device lib idx).turn d e]) ((device lib idx).next d e) := by
  have hcmd : getVersion ≠ exec ∧ getCrc ≠ exec := by decide
  cases e with
  | poll curTime o =>
    obtain ⟨r, hr, ht, hn⟩ := device_poll lib idx d curTime o
    rw [ht, hn]
    cases hr with
    | off => exact fun hp => (h hp).snoc (not_execAcked_poll rfl) rfl
    | waiting => exact fun hp => (h hp).snoc (not_execAcked_poll rfl) rfl
    | switched =>
      intro hp
      unfold boot upgradeInit at hp
      by_cases hidx : idx = -1 <;> simp [hidx, powerUp] at hp
  | frame fr =>
    obtain ⟨r, hr, ht, hn⟩ := device_frame lib idx d fr
    rw [ht, hn]
    cases hr with
    | invalid => exact fun hp => (h hp).snoc (not_execAcked_failure rfl rfl) rfl
    | authFail => exact fun hp => (h hp).snoc (not_execAcked_failure rfl rfl) rfl
    | authPass _ type =>
      have hne : frameType fr.buffer ≠ commandFrame := by
        rw [type]
        decide
      exact fun hp => (h hp).snoc (not_execAcked_type rfl hne) rfl
    | closed => exact fun hp => (h hp).snoc (not_execAcked_failure rfl rfl) rfl
    | seqRange => exact fun hp => (h hp).snoc (not_execAcked_failure rfl rfl) rfl
    | seqMismatch => exact fun hp => (h hp).snoc (not_execAcked_failure rfl rfl) rfl
    | badLen => exact fun hp => (h hp).snoc (not_execAcked_failure rfl rfl) rfl
    | decryptErr => exact fun hp => (h hp).snoc (not_execAcked_failure rfl rfl) rfl
    | writeErr writes => exact fun hp => (Bool.false_ne_true ((hg.2 writes).symm.trans hp)).elim
    | readBackErr writes => exact fun hp => (Bool.false_ne_true ((hg.2 writes).symm.trans hp)).elim
    | stored writes => exact fun hp => (Bool.false_ne_true ((hg.2 writes).symm.trans hp)).elim
    | version command cmd => exact fun hp => (h hp).snoc (not_execAcked_cmd rfl (cmd ▸ hcmd.1)) rfl
    | crc command cmd => exact fun hp => (h hp).snoc (not_execAcked_cmd rfl (cmd ▸ hcmd.2)) rfl
    | unknown => exact fun hp => (h hp).snoc (not_execAcked_failure rfl rfl) rfl
    | exec command cmd =>
      intro _
      exact ⟨turns, _, [], rfl, ⟨⟨fr, rfl, command.type, cmd⟩, _, rfl, rfl⟩, by simp,
        hd.pos (hg.1 command cmd), rfl⟩

theorem codeSwitching_armed (d : Dev) (e : Event)
    (h : .codeSwitching ∈ ((device lib idx).turn d e).out.2) : d.switchingTimerPoll = true := by
  cases e with
  | poll curTime o =>
    obtain ⟨r, hr, ht, -⟩ := device_poll lib idx d curTime o
    rw [ht] at h
    cases hr with
    | off => exact nomatch h
    | waiting => exact nomatch h
    | switched poll => exact poll
  | frame fr =>
    obtain ⟨r, hr, ht, -⟩ := device_frame lib idx d fr
    rw [ht] at h
    rcases hr.effects h with ⟨w, writes, write, hw⟩ | ⟨rc, hrc⟩ | hs
    · rw [write] at hw
      rcases dataWrite_effects writes.seq_le writes.len_pos writes.len_le hw with ⟨o, -, he⟩ | ⟨c, he⟩
      · exact nomatch he
      · exact nomatch he
    · exact nomatch hrc
    · exact nomatch hs

/-- In a run whose turns are all guarded, the bank switch activates what the
last `EXEC` approved. -/
theorem switch_approved (lib : GcmLib) (idx : Int) (f : Flash) (events : List Event) (e : Event)
    (guarded : (device lib idx).Meets Guarded (boot idx f) events)
    (switch : .codeSwitching ∈
      ((device lib idx).turn ((device lib idx).run (boot idx f) events) e).out.2) :
    Approved ((device lib idx).turns (boot idx f) events)
      ((device lib idx).run (boot idx f) events) := by
  have hoff : (boot idx f).switchingTimerPoll = true → Approved [] (boot idx f) := by
    intro hp
    unfold boot upgradeInit at hp
    by_cases hidx : idx = -1 <;> simp [hidx, powerUp] at hp
  have key := Machine.history_of_meets (m := device lib idx)
    (R := fun turns d => Counted d ∧ (d.switchingTimerPoll = true → Approved turns d))
    (fun turns d e h hg => ⟨counted_next d e h.1, approved_next turns d e h.1 h.2 hg⟩)
    ⟨counted_boot idx f, hoff⟩ guarded
  exact key.2 (codeSwitching_armed _ e switch)

-- ---------------------------------------------------------------------------
-- Two runs
-- ---------------------------------------------------------------------------

def received (bytes : List Byte) : Event := .frame ⟨.ofList bytes fun _ => 0, ⟨0, fun _ => .done, 0⟩⟩

def sampleIv : List Byte := List.replicate 16 0

def blankFlash : Flash := ⟨fun _ _ => 0xff, false⟩

def sampleAuth (lib : GcmLib) : Event := received (App.authenticationFrame sampleIv (aadTag lib sampleIv))

def sampleData : Event := received (App.dataFrame (List.replicate 1024 0) 0)

def sampleExec : Event := received (App.generateCommandFrame .exeFirmware)

theorem next_sampleAuth (lib : GcmLib) (idx : Int) (d : Dev) (hidx : d.cryptoIdx ≠ -1) : ∃ p g,
    (device lib idx).next d (sampleAuth lib) = upgradeStart { d.scratch p g with cryptoIv := sampleIv } := by
  have hlen : sampleIv.length = 16 := rfl
  obtain ⟨p, g, h⟩ := System.handle_authenticationFrame lib ⟨0, fun _ => .done, 0⟩ (fun _ => 0)
    hlen hidx rfl
  exact ⟨p, g, congrArg Prod.fst h⟩

theorem next_dataFrame (lib : GcmLib) (idx : Int) {d : Dev} {ciphertext : List Byte} (hlen : ciphertext.length = 1024)
    (auth : d.isAuthenticated = true) (table : d.crc32Table = initCrc32Table) (hidx : d.cryptoIdx ≠ -1)
    (hseq : d.prePktSeq = -1) :
    ((device lib idx).next d (received (App.dataFrame ciphertext 0))).prePktSeq = 0 ∧
      ((device lib idx).next d (received (App.dataFrame ciphertext 0))).isAuthenticated = true := by
  have hzero : (0 : Half).toNat = 0 := rfl
  have writes := System.dataFrame_writes ⟨0, fun _ => .done, 0⟩ 0 hlen (fun _ => 0)
    auth table (by decide) (by rw [hseq, hzero]; rfl) hidx rfl
  have ready : Nor.Ready eraseGroupSize d.flash.bank1 (1024 * (0 : Half).toNat) := fun h => absurd rfl h
  rw [← System.dataFrame_seq ciphertext 0 fun _ => 0] at ready
  obtain ⟨w, p, g, effects, -, h⟩ := handle_stored lib writes (fun _ => rfl) ready
  have hstep : (device lib idx).next d (received (App.dataFrame ciphertext 0)) =
      (handleUpgradePacket lib ⟨0, fun _ => .done, 0⟩ d
        (.ofList (App.dataFrame ciphertext 0) fun _ => 0)).1 := rfl
  rw [hstep, h, System.dataFrame_seq]
  exact ⟨rfl, auth⟩

theorem next_sampleExec (lib : GcmLib) (idx : Int) (d : Dev) (auth : d.isAuthenticated = true) :
    (device lib idx).next d sampleExec =
      switchingTimerStart codeSwitchingInterval .codeSwitching 0 d :=
  congrArg Prod.fst (System.handle_generateCommandFrame lib ⟨0, fun _ => .done, 0⟩ (fun _ => 0)
    .exeFirmware auth)

theorem switch_after_exec (lib : GcmLib) (idx : Int) (d : Dev) : .codeSwitching ∈ ((device lib idx).turn
    (switchingTimerStart codeSwitchingInterval .codeSwitching 0 d) (.poll 3001 .done)).out.2 := by
  have hupdate : (switchingTimerUpdate 3001 ⟨0, codeSwitchingInterval, 0, some .codeSwitching⟩).2 =
      some .codeSwitching := by decide
  obtain ⟨r, hr, ht, -⟩ := device_poll lib idx
    (switchingTimerStart codeSwitchingInterval .codeSwitching 0 d) 3001 .done
  rw [ht]
  cases hr with
  | off poll => exact nomatch poll
  | waiting _ t update => exact nomatch (congrArg Prod.snd update).symm.trans hupdate
  | switched => exact List.mem_singleton.mpr rfl

/-- Without a single data frame, `EXEC` is acknowledged and the bank is switched. -/
theorem switch_unapproved :
    .codeSwitching ∈ ((device System.gcmMemory 0).turn
        ((device System.gcmMemory 0).run (boot 0 blankFlash) [sampleAuth System.gcmMemory, sampleExec])
        (.poll 3001 .done)).out.2 ∧
      ¬ Approved
        ((device System.gcmMemory 0).turns (boot 0 blankFlash) [sampleAuth System.gcmMemory, sampleExec])
        ((device System.gcmMemory 0).run (boot 0 blankFlash)
          [sampleAuth System.gcmMemory, sampleExec]) := by
  have hidx : (boot 0 blankFlash).cryptoIdx ≠ -1 := by decide
  obtain ⟨p, g, hauth⟩ := next_sampleAuth System.gcmMemory 0 (boot 0 blankFlash) hidx
  have hexec := next_sampleExec System.gcmMemory 0
    (upgradeStart { (boot 0 blankFlash).scratch p g with cryptoIv := sampleIv }) rfl
  have hzero : ¬ (0 : Word) < 0 := by decide
  simp only [Machine.run, Machine.turns, hauth, hexec]
  refine ⟨switch_after_exec _ _ _, ?_⟩
  rintro ⟨before, x, after, hturns, -, -, hlen, -⟩
  have hx : x ∈ before ++ x :: after := by simp
  rw [← hturns] at hx
  rcases List.mem_cons.mp hx with rfl | hx
  · rw [Machine.turn_post, hauth] at hlen
    exact absurd hlen hzero
  · rw [List.mem_singleton.mp hx, Machine.turn_post, hexec] at hlen
    exact absurd hlen hzero

theorem guarded_sampleAuth (lib : GcmLib) (d : Dev) : Guarded d (sampleAuth lib) := by
  have htype := System.authenticationFrame_type sampleIv (aadTag lib sampleIv) fun _ => 0
  constructor
  · exact fun command => absurd (command.type.symm.trans htype) (by decide)
  · exact fun writes => absurd (writes.type.symm.trans htype) (by decide)

theorem next_sampleData : ∃ d, (device System.gcmMemory 0).next
      ((device System.gcmMemory 0).next (boot 0 blankFlash) (sampleAuth System.gcmMemory)) sampleData = d ∧
    d.prePktSeq = 0 ∧ d.isAuthenticated = true := by
  have hidx : (boot 0 blankFlash).cryptoIdx ≠ -1 := by decide
  obtain ⟨p, g, hauth⟩ := next_sampleAuth System.gcmMemory 0 (boot 0 blankFlash) hidx
  rw [hauth]
  exact ⟨_, rfl, next_dataFrame System.gcmMemory 0 (List.length_replicate (a := (0 : Byte))) rfl rfl hidx rfl⟩

theorem guarded_block : (device System.gcmMemory 0).Meets Guarded (boot 0 blankFlash)
    [sampleAuth System.gcmMemory, sampleData, sampleExec] := by
  have hidx : (boot 0 blankFlash).cryptoIdx ≠ -1 := by decide
  have hdata := System.dataFrame_type (List.replicate 1024 0) 0 fun _ => 0
  have hcmd := System.commandFrame_type .exeFirmware fun _ => 0
  obtain ⟨p, g, hauth⟩ := next_sampleAuth System.gcmMemory 0 (boot 0 blankFlash) hidx
  obtain ⟨d, hd, hseq, -⟩ := next_sampleData
  refine ⟨guarded_sampleAuth _ _, ⟨?_, ?_⟩, ⟨?_, ?_⟩, trivial⟩
  · exact fun command => absurd (command.type.symm.trans hdata) (by decide)
  · rw [hauth]
    exact fun _ => rfl
  · intro _ _
    rw [hd, hseq]
    decide
  · exact fun writes => absurd (writes.type.symm.trans hcmd) (by decide)

/-- One block, `EXEC` and a poll when the timer is due. -/
theorem switch_approved_block : Approved
    ((device System.gcmMemory 0).turns (boot 0 blankFlash)
      [sampleAuth System.gcmMemory, sampleData, sampleExec])
    ((device System.gcmMemory 0).run (boot 0 blankFlash)
      [sampleAuth System.gcmMemory, sampleData, sampleExec]) := by
  obtain ⟨d, hd, -, hopen⟩ := next_sampleData
  refine switch_approved System.gcmMemory 0 blankFlash _ (.poll 3001 .done) guarded_block ?_
  simp only [Machine.run]
  rw [hd, next_sampleExec _ _ _ hopen]
  exact switch_after_exec _ _ _

/-- The first block of a session goes to the bank the CPU does not run from. -/
theorem executing_bank_untouched_block :
    let t := (device System.gcmMemory 0).turn
      ((device System.gcmMemory 0).next (boot 0 blankFlash) (sampleAuth System.gcmMemory)) sampleData
    (∀ c, .command c ∈ t.out.2 → c.efc ≠ t.pre.cpuBank ∧
        ∀ p i, c.firstPage ≤ p → p < c.firstPage + c.count → i < 512 →
          (computeAddress t.pre.flash c.efc (BitVec.ofNat 16 p) i).toNat =
              iflash1Addr.toNat + 512 * p + i ∧
            iflash1Addr.toNat + 512 * p + i < iflash1Addr.toNat + iflash1Size.toNat) ∧
      ∀ a o, .page a o ∈ t.out.2 → ∃ fr, t.input = .frame fr ∧
        NoWrap t.pre.flash (frameSeq fr.buffer) a o :=
  executing_bank_untouched System.gcmMemory 0 blankFlash [sampleAuth System.gcmMemory, sampleData] _
    (List.mem_cons_of_mem _ List.mem_cons_self)

end EthernetOta.Firmware
