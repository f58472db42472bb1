import EthernetOta.Firmware.Server
import EthernetOta.Firmware.Switch

/-!
# States that cannot be told apart

What a packet leaves in the scratch buffers, and in `crypto_iv` while no session
is open, is written again before it is read. States that differ in nothing else
answer every frame and every poll alike, and a refused frame leaves either such a
state or a closed session.
-/

namespace EthernetOta.Firmware

structure Alike (d e : Dev) : Prop where
  auth : e.isAuthenticated = d.isAuthenticated
  seq : e.prePktSeq = d.prePktSeq
  len : e.fileLen = d.fileLen
  flash : e.flash = d.flash
  timer : e.switchingTimer = d.switchingTimer
  poll : e.switchingTimerPoll = d.switchingTimerPoll
  idx : e.cryptoIdx = d.cryptoIdx
  table : e.crc32Table = d.crc32Table
  cpuBank : e.cpuBank = d.cpuBank
  iv : d.isAuthenticated = true → e.cryptoIv = d.cryptoIv

theorem Alike.refl (d : Dev) : Alike d d := ⟨rfl, rfl, rfl, rfl, rfl, rfl, rfl, rfl, rfl, fun _ => rfl⟩

theorem Alike.symm (h : Alike d e) : Alike e d :=
  ⟨h.auth.symm, h.seq.symm, h.len.symm, h.flash.symm, h.timer.symm, h.poll.symm, h.idx.symm, h.table.symm,
    h.cpuBank.symm, fun auth => (h.iv (h.auth.symm.trans auth)).symm⟩

theorem Alike.trans (h : Alike d e) (h' : Alike e f) : Alike d f :=
  ⟨h'.auth.trans h.auth, h'.seq.trans h.seq, h'.len.trans h.len, h'.flash.trans h.flash,
    h'.timer.trans h.timer, h'.poll.trans h.poll, h'.idx.trans h.idx, h'.table.trans h.table,
    h'.cpuBank.trans h.cpuBank, fun auth => (h'.iv (h.auth.trans auth)).trans (h.iv auth)⟩

structure AlikeRes (r r' : Dev × Out) : Prop where
  out : r'.2 = r.2
  dev : Alike r.1 r'.1

section
variable {lib : GcmLib} {env : Env} {d e : Dev} {buffer : Mem}

theorem Alike.scratch (h : Alike d e) (p p' : List Byte) (g g' : AesGcm) : Alike (d.scratch p g) (e.scratch p' g') :=
  ⟨h.auth, h.seq, h.len, h.flash, h.timer, h.poll, h.idx, h.table, h.cpuBank, h.iv⟩

theorem Alike.upgradeEnd (h : Alike d e) (iv iv' : List Byte) :
    Alike (upgradeEnd { d with cryptoIv := iv }) (upgradeEnd { e with cryptoIv := iv' }) :=
  ⟨rfl, rfl, rfl, h.flash, h.timer, h.poll, h.idx, h.table, h.cpuBank, fun auth => absurd auth Bool.false_ne_true⟩

theorem Alike.upgradeStart (h : Alike d e) (iv : List Byte) :
    Alike (upgradeStart { d with cryptoIv := iv }) (upgradeStart { e with cryptoIv := iv }) :=
  ⟨rfl, rfl, rfl, h.flash, h.timer, h.poll, h.idx, h.table, h.cpuBank, fun _ => rfl⟩

theorem Alike.tagMatches (h : Alike d e) : TagMatches lib env e buffer ↔ TagMatches lib env d buffer := by
  rw [TagMatches, TagMatches, h.idx]

theorem handleAuthenticatedFrame_alike (lib : GcmLib) (env : Env) (buffer : Mem) (h : Alike d e) :
    AlikeRes (handleAuthenticatedFrame lib env d buffer) (handleAuthenticatedFrame lib env e buffer) := by
  obtain ⟨p, g, rc, heq, hrc⟩ := authenticatingFrame_eq lib env d buffer
  obtain ⟨p', g', rc', heq', hrc'⟩ := authenticatingFrame_eq lib env e buffer
  rw [h.tagMatches] at hrc'
  rw [handleAuthenticatedFrame, handleAuthenticatedFrame, heq, heq']
  simp only []
  by_cases htag : TagMatches lib env d buffer
  · rw [if_neg (not_not.mpr (hrc.mpr htag)), if_neg (not_not.mpr (hrc'.mpr htag))]
    exact ⟨rfl, (h.scratch p p' g g').upgradeStart (authIv buffer)⟩
  · rw [if_pos (mt hrc.mp htag), if_pos (mt hrc'.mp htag)]
    exact ⟨rfl, (h.scratch p p' g g').upgradeEnd _ _⟩

theorem frameWritten_alike (h : Alike d e) (hpt : e.pt = d.pt) (seq len : Half) (ack : Word) (w : WriteRes) :
    AlikeRes (frameWritten d seq len ack w) (frameWritten e seq len ack w) := by
  have hwritten : Alike { d with flash := w.flash } { e with flash := w.flash } :=
    ⟨h.auth, h.seq, h.len, rfl, h.timer, h.poll, h.idx, h.table, h.cpuBank, h.iv⟩
  have hcheck : checkIntegrity { e with flash := w.flash } (frameAddr seq) len.toNat =
      checkIntegrity { d with flash := w.flash } (frameAddr seq) len.toNat := by
    have hpt' : Dev.pt { e with flash := w.flash } = Dev.pt { d with flash := w.flash } := hpt
    rw [checkIntegrity, checkIntegrity, hpt']
  rw [frameWritten, frameWritten, hcheck]
  split
  · exact ⟨rfl, hwritten.upgradeEnd _ _⟩
  · simp only []
    split
    · exact ⟨rfl, hwritten.upgradeEnd _ _⟩
    · exact ⟨rfl, h.auth, h.seq, congrArg (· + len.setWidth 32) h.len, rfl, h.timer, h.poll, h.idx, h.table,
        h.cpuBank, h.iv⟩

theorem frameStored_alike (h : Alike d e) (hpt : e.pt = d.pt) (io : EfcCmd → Outcome) (seq len : Half) (ack : Word) :
    AlikeRes (frameWritten d seq len ack (dataWrite io d.flash (frameAddr seq) d.pt len.toNat))
      (frameWritten e seq len ack (dataWrite io e.flash (frameAddr seq) e.pt len.toNat)) := by
  rw [h.flash, hpt]
  exact frameWritten_alike h hpt _ _ _ _

theorem handleDataFrame_alike (lib : GcmLib) (env : Env) (buffer : Mem) (h : Alike d e)
    (auth : d.isAuthenticated = true) (ack : Word) :
    AlikeRes (handleDataFrame lib env d buffer (frameSeq buffer) (frameLen buffer) ack)
      (handleDataFrame lib env e buffer (frameSeq buffer) (frameLen buffer) ack) := by
  rw [handleDataFrame, handleDataFrame, h.seq]
  split
  · exact ⟨rfl, h⟩
  split
  · exact ⟨rfl, h.upgradeEnd _ _⟩
  split
  · exact ⟨rfl, h⟩
  obtain ⟨p, g, err, heq, hok, herr⟩ := dataDecrypt_eq lib env d buffer
  obtain ⟨p', g', err', heq', hok', herr'⟩ := dataDecrypt_eq lib env e buffer
  have hiv := h.iv auth
  rw [h.idx] at hok' herr'
  rw [heq, heq']
  simp only []
  by_cases he : err = 0
  · obtain ⟨hidx, hgcm, hpt⟩ := hok he
    have he' : err' = 0 := by_contra fun hne => (herr' hne).elim hidx fun hne => hne hgcm
    have hpt' : (e.scratch p' g').pt = (d.scratch p g).pt := by
      rw [hpt, (hok' he').2.2, hiv]
    rw [if_neg (not_not.mpr he), if_neg (not_not.mpr he')]
    have hstored : Alike { d.scratch p g with prePktSeq := (frameSeq buffer).toInt }
        { e.scratch p' g' with prePktSeq := (frameSeq buffer).toInt } :=
      ⟨h.auth, rfl, h.len, h.flash, h.timer, h.poll, h.idx, h.table, h.cpuBank, h.iv⟩
    exact frameStored_alike hstored hpt' env.flash _ _ _
  · have he' : err' ≠ 0 := by
      intro hzero
      obtain ⟨hidx, hgcm, -⟩ := hok' hzero
      exact (herr he).elim hidx fun hne => hne hgcm
    rw [if_pos he, if_pos he']
    exact ⟨rfl, h.scratch p p' g g'⟩

theorem flashCrc_alike (h : Alike d e) : flashCrc e = flashCrc d := by
  rw [flashCrc, flashCrc, h.len, h.table, h.flash]

theorem handleCommandFrame_alike (env : Env) (buffer : Mem) (h : Alike d e) :
    AlikeRes (handleCommandFrame env d buffer) (handleCommandFrame env e buffer) := by
  rw [handleCommandFrame, handleCommandFrame, flashCrc_alike h]
  split
  · exact ⟨rfl, h⟩
  split
  · exact ⟨rfl, h⟩
  split
  · exact ⟨rfl, h.auth, h.seq, h.len, h.flash, rfl, rfl, h.idx, h.table, h.cpuBank, h.iv⟩
  · exact ⟨rfl, h⟩

theorem handle_alike (lib : GcmLib) (env : Env) (buffer : Mem) (h : Alike d e) :
    AlikeRes (handleUpgradePacket lib env d buffer) (handleUpgradePacket lib env e buffer) := by
  rw [handleUpgradePacket, handleUpgradePacket, h.table, h.auth]
  split
  · exact ⟨rfl, h⟩
  split
  · rename_i auth
    split
    · exact handleAuthenticatedFrame_alike lib env buffer h
    split
    · exact handleDataFrame_alike lib env buffer h auth _
    split
    · exact handleCommandFrame_alike env buffer h
    · exact ⟨rfl, h⟩
  · split
    · exact handleAuthenticatedFrame_alike lib env buffer h
    · exact ⟨rfl, h⟩

end

-- ---------------------------------------------------------------------------
-- Runs
-- ---------------------------------------------------------------------------

section
variable {lib : GcmLib} {idx : Int} {d e : Dev}

theorem switchingTimerPoll_alike (idx : Int) (o : GpnvmOutcome) (curTime : Word) (h : Alike d e) :
    (switchingTimerPoll idx o curTime e).2 = (switchingTimerPoll idx o curTime d).2 ∧
      Alike (switchingTimerPoll idx o curTime d).1 (switchingTimerPoll idx o curTime e).1 := by
  rw [switchingTimerPoll, switchingTimerPoll, h.poll, h.timer, h.flash]
  split
  · split
    · exact ⟨rfl, .refl _⟩
    · exact ⟨rfl, h.auth, h.seq, h.len, rfl, rfl, rfl, h.idx, h.table, h.cpuBank, h.iv⟩
  · exact ⟨rfl, h⟩

theorem device_alike (lib : GcmLib) (idx : Int) (event : Event) (h : Alike d e) :
    ((device lib idx).step e event).2 = ((device lib idx).step d event).2 ∧
      Alike ((device lib idx).next d event) ((device lib idx).next e event) := by
  cases event with
  | frame fr =>
    have hres := handle_alike lib fr.env fr.buffer h
    exact ⟨congrArg (fun out => (some out, out.effects)) hres.out, hres.dev⟩
  | poll curTime o =>
    obtain ⟨hout, hdev⟩ := switchingTimerPoll_alike idx o curTime h
    exact ⟨congrArg (none, ·) hout, hdev⟩

theorem run_alike (lib : GcmLib) (idx : Int) (events : List Event) (h : Alike d e) :
    ((device lib idx).turns e events).map Turn.out = ((device lib idx).turns d events).map Turn.out ∧
      Alike ((device lib idx).run d events) ((device lib idx).run e events) := by
  induction events generalizing d e with
  | nil => exact ⟨rfl, h⟩
  | cons event events ih =>
    obtain ⟨hout, hnext⟩ := device_alike lib idx event h
    obtain ⟨hturns, hrun⟩ := ih hnext
    rw [Machine.turns, Machine.turns, List.map_cons, List.map_cons, hturns]
    exact ⟨congrArg (· :: _) hout, hrun⟩

end

-- ---------------------------------------------------------------------------
-- Refused frames
-- ---------------------------------------------------------------------------

/-- 0xFF, 0xFF and a code that is not 0, on the wire. -/
structure ErrorCode (ack : Word) : Prop where
  status : ((generateAckFrame ack).drop 10).take 2 = [0xFF, 0xFF]
  code : ((generateAckFrame ack).drop 12).take 2 ≠ [0x00, 0x00]

/-- `is_authenticated`, `pre_pkt_seq` and `file_len` are as they were. -/
structure SameSession (d e : Dev) : Prop where
  auth : e.isAuthenticated = d.isAuthenticated
  seq : e.prePktSeq = d.prePktSeq
  len : e.fileLen = d.fileLen

structure Closed (d : Dev) : Prop where
  auth : d.isAuthenticated = false
  seq : d.prePktSeq = -1
  len : d.fileLen = 0

structure NoTrace (lib : GcmLib) (idx : Int) (d : Dev) (r : Dev × Out) : Prop where
  ack : ErrorCode r.2.ack
  timer : r.1.switchingTimer = d.switchingTimer ∧ r.1.switchingTimerPoll = d.switchingTimerPoll
  bank1 : r.2.ack ≠ uHtonl dataFrameFlashWrErr → r.1.flash.bank1 = d.flash.bank1
  session : SameSession d r.1 ∨ Closed r.1
  later : SameSession d r.1 → ∀ events,
    ((device lib idx).turns r.1 events).map Turn.out = ((device lib idx).turns d events).map Turn.out ∧
      ((device lib idx).run r.1 events).flash = ((device lib idx).run d events).flash

section
variable {lib : GcmLib} {env : Env} {d : Dev} {buffer : Mem} {r : Dev × Out}

theorem Alike.sameSession (h : Alike d e) : SameSession d e := ⟨h.auth, h.seq, h.len⟩

theorem NoTrace.of_alike (idx : Int) (ack : ErrorCode r.2.ack) (h : Alike d r.1) : NoTrace lib idx d r where
  ack := ack
  timer := ⟨h.timer, h.poll⟩
  bank1 _ := congrArg Flash.bank1 h.flash
  session := .inl h.sameSession
  later _ events := by
    obtain ⟨hout, hrun⟩ := run_alike lib idx events h
    exact ⟨hout, hrun.flash⟩

theorem NoTrace.of_closed (idx : Int) (ack : ErrorCode r.2.ack)
    (timer : r.1.switchingTimer = d.switchingTimer ∧ r.1.switchingTimerPoll = d.switchingTimerPoll)
    (bank1 : r.2.ack ≠ uHtonl dataFrameFlashWrErr → r.1.flash.bank1 = d.flash.bank1)
    (auth : d.isAuthenticated = true) (closed : Closed r.1) : NoTrace lib idx d r where
  ack := ack
  timer := timer
  bank1 := bank1
  session := .inr closed
  later same := absurd (auth.symm.trans (same.auth.symm.trans closed.auth)) (Bool.false_ne_true ∘ Eq.symm)

/-- An authentication that fails leaves an open session closed, and a closed one as it was. -/
theorem NoTrace.of_authFail (idx : Int) (ack : ErrorCode r.2.ack) (closed : Closed r.1)
    (h : SameSession d r.1 → Alike d r.1) (timer : r.1.switchingTimer = d.switchingTimer)
    (poll : r.1.switchingTimerPoll = d.switchingTimerPoll) (flash : r.1.flash = d.flash) :
    NoTrace lib idx d r where
  ack := ack
  timer := ⟨timer, poll⟩
  bank1 _ := congrArg Flash.bank1 flash
  session := .inr closed
  later same events := by
    obtain ⟨hout, hrun⟩ := run_alike lib idx events (h same)
    exact ⟨hout, hrun.flash⟩

theorem Handled.noTrace (h : Handled lib env d buffer r) (idx : Int) (ret : r.2.ret = failure) :
    NoTrace lib idx d r := by
  have hret : success ≠ failure := by decide
  have hauth : ErrorCode (uHtonl authenticatedFail) := ⟨by decide, by decide⟩
  have hseq : ErrorCode (uHtonl dataFrameSeqErr) := ⟨by decide, by decide⟩
  have hlen : ErrorCode (uHtonl dataFrameLenErr) := ⟨by decide, by decide⟩
  have hdecrypt : ErrorCode (uHtonl dataFrameDecryptErr) := ⟨by decide, by decide⟩
  have hflash : ErrorCode (uHtonl dataFrameFlashWrErr) := ⟨by decide, by decide⟩
  have hcmd : ErrorCode (uHtonl commandFrameCmdErr) := ⟨by decide, by decide⟩
  have hinvalid : ErrorCode (uHtonl pktInvalid) := ⟨by decide, by decide⟩
  have hcrc : ErrorCode (uHtonl dataFrameCrcErr) := ⟨by decide, by decide⟩
  cases h with
  | invalid hv =>
    refine .of_alike idx ?_ (.refl d)
    rcases isPktValid_error hv with rfl | rfl
    · exact hinvalid
    · exact hcrc
  | authFail =>
    refine .of_authFail idx hauth ⟨rfl, rfl, rfl⟩ (fun same => ?_) rfl rfl rfl
    exact ⟨same.auth, same.seq, same.len, rfl, rfl, rfl, rfl, rfl, rfl,
      fun auth => absurd (same.auth.trans auth) Bool.false_ne_true⟩
  | closed => exact .of_alike idx hauth (.refl d)
  | seqRange => exact .of_alike idx hseq (.refl d)
  | seqMismatch auth => exact .of_closed idx hseq ⟨rfl, rfl⟩ (fun _ => rfl) auth ⟨rfl, rfl, rfl⟩
  | badLen => exact .of_alike idx hlen (.refl d)
  | decryptErr next err p g => exact .of_alike idx hdecrypt ((Alike.refl d).scratch d.plaintext p d.gcm g)
  | writeErr writes =>
    exact .of_closed idx hflash ⟨rfl, rfl⟩ (fun hne => absurd rfl hne) writes.auth ⟨rfl, rfl, rfl⟩
  | readBackErr writes =>
    exact .of_closed idx hflash ⟨rfl, rfl⟩ (fun hne => absurd rfl hne) writes.auth ⟨rfl, rfl, rfl⟩
  | unknown => exact .of_alike idx hcmd (.refl d)
  | authPass => exact absurd ret hret
  | stored => exact absurd ret hret
  | version => exact absurd ret hret
  | crc => exact absurd ret hret
  | exec => exact absurd ret hret

/-- A refused frame leaves no trace, in whatever state it arrives. -/
theorem refused_noTrace (lib : GcmLib) (idx : Int) (env : Env) (d : Dev) (buffer : Mem)
    (refused : (handleUpgradePacket lib env d buffer).2.ret = failure) :
    NoTrace lib idx d (handleUpgradePacket lib env d buffer) :=
  (handled lib env d buffer).noTrace idx refused

end

theorem decrypt_refused (lib : GcmLib) {env env' : Env} {d : Dev} {buffer : Mem} (writes : Writes env' d buffer)
    (gcm : env.gcmErr ≠ 0) : (handleUpgradePacket lib env d buffer).2.ret = failure := by
  have hlen : ¬ (maxPlaintextLen < (frameLen buffer).toNat ∨ frameLen buffer = 0) := by
    rintro (hlt | hzero)
    · exact absurd writes.len_le (Nat.not_le.mpr hlt)
    · exact absurd writes.len_pos (by rw [hzero]; exact Nat.lt_irrefl 0)
  obtain ⟨p, g, err, heq, hok, -⟩ := dataDecrypt_eq lib env d buffer
  have herr : err ≠ 0 := fun hzero => gcm (hok hzero).2.1
  rw [handle_data lib env writes.valid writes.auth writes.type, handleDataFrame, if_neg (Nat.not_lt.mpr writes.seq_le),
    if_neg (not_not.mpr writes.seq), if_neg hlen, heq]
  simp only [if_pos herr]
  rfl

/-- No memory for the first block of a session. -/
theorem refused_noTrace_decrypt :
    let d := (device System.gcmMemory 0).next (boot 0 blankFlash) (sampleAuth System.gcmMemory)
    NoTrace System.gcmMemory 0 d (handleUpgradePacket System.gcmMemory ⟨13, fun _ => .done, 0⟩ d
      (.ofList (App.dataFrame (List.replicate 1024 0) 0) fun _ => 0)) := by
  have hidx : (boot 0 blankFlash).cryptoIdx ≠ -1 := by decide
  obtain ⟨p, g, hauth⟩ := next_sampleAuth System.gcmMemory 0 (boot 0 blankFlash) hidx
  have hnoMemory : (13 : Int) ≠ 0 := by decide
  rw [hauth]
  intro d
  have writes : Writes ⟨0, fun _ => .done, 0⟩ d (.ofList (App.dataFrame (List.replicate 1024 0) 0) fun _ => 0) :=
    System.dataFrame_writes _ 0 List.length_replicate _ rfl rfl (by decide) rfl hidx rfl
  exact refused_noTrace System.gcmMemory 0 _ d _ (decrypt_refused _ writes hnoMemory)

end EthernetOta.Firmware
