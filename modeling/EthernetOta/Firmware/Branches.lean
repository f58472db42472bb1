import EthernetOta.Firmware.FlashLaws

/-!
# What handling a packet can do

`Handled` has one constructor for each way out of `handle_upgrade_packet`, with
the guards that lead there and the state and answer it leaves. Results about the
handler go by cases on it and never unfold the handler again. The scratch data
(`plaintext` and the changing fields of `gcm_instance`) is left open: no way out
depends on what an earlier packet left in it.
-/

namespace EthernetOta.Firmware

-- ---------------------------------------------------------------------------
-- The parts of a packet
-- ---------------------------------------------------------------------------

def authIv (buffer : Mem) : List Byte := (buffer.offset (pktHeaderLen + pktTypeLen)).slice 0 gcmIvLen

def authTag (buffer : Mem) : List Byte :=
  (buffer.offset (pktHeaderLen + pktTypeLen)).slice gcmIvLen gcmTagLen

/-- The tag `gcm_memory` computes for `crypto_aad` under `crypto_key` and `iv`. -/
def aadTag (lib : GcmLib) (iv : List Byte) : List Byte := (lib.run .encrypt cryptoKey iv cryptoAad).2

def frameCmd (buffer : Mem) : Word := uHtonl (buffer.load32 (pktHeaderLen + pktTypeLen))

def framePlain (lib : GcmLib) (iv : List Byte) (buffer : Mem) : List Byte :=
  (lib.run .decrypt cryptoKey iv
    ((buffer.offset pktPayloadPos).slice 0 (frameLen buffer).toNat)).1

/-- The payload as `data_write` gets it: followed by 0xFF up to `MAX_PLAINTEXT_LEN`. -/
def frameImage (lib : GcmLib) (iv : List Byte) (buffer : Mem) : Mem :=
  .ofList (overwrite (framePlain lib iv buffer) (List.replicate maxPlaintextLen 0xff)) fun _ => 0

@[simp] theorem length_framePlain (lib : GcmLib) (iv : List Byte) (buffer : Mem) :
    (framePlain lib iv buffer).length = (frameLen buffer).toNat := by
  simp [framePlain, lib.length_output]

theorem frameImage_lt (h : i < (framePlain lib iv buffer).length) :
    frameImage lib iv buffer i = (framePlain lib iv buffer)[i] := by
  simp only [frameImage, Mem.ofList, overwrite, List.getElem?_append_left h]
  rw [List.getElem?_eq_getElem h, Option.getD_some]

theorem frameImage_ge (h : (framePlain lib iv buffer).length ≤ i) (hi : i < maxPlaintextLen) :
    frameImage lib iv buffer i = 0xff := by
  have hlt : i - (framePlain lib iv buffer).length < maxPlaintextLen - (framePlain lib iv buffer).length := by
    omega
  simp only [frameImage, Mem.ofList, overwrite, List.getElem?_append_right h, List.drop_replicate]
  rw [List.getElem?_replicate_of_lt hlt, Option.getD_some]

-- ---------------------------------------------------------------------------
-- Guards
-- ---------------------------------------------------------------------------

def Valid (d : Dev) (buffer : Mem) : Prop :=
  isPktValid d.crc32Table (frameType buffer) (frameLen buffer) buffer = .ok ()

/-- An authentication frame whose tag is the one `gcm_memory` computes. -/
def TagMatches (lib : GcmLib) (env : Env) (d : Dev) (buffer : Mem) : Prop :=
  d.cryptoIdx ≠ -1 ∧ env.gcmErr = 0 ∧ aadTag lib (authIv buffer) = authTag buffer

/-- A valid data frame of an open session with the sequence number that is next. -/
structure Next (d : Dev) (buffer : Mem) : Prop where
  auth : d.isAuthenticated = true
  valid : Valid d buffer
  type : frameType buffer = dataFrame
  seq_le : (frameSeq buffer).toNat ≤ maxSeqNum
  seq : d.prePktSeq + 1 = (frameSeq buffer).toNat

/-- A data frame that reaches `data_write`. -/
structure Writes (env : Env) (d : Dev) (buffer : Mem) : Prop extends Next d buffer where
  len_pos : 0 < (frameLen buffer).toNat
  len_le : (frameLen buffer).toNat ≤ maxPlaintextLen
  idx : d.cryptoIdx ≠ -1
  gcm : env.gcmErr = 0

structure Commands (d : Dev) (buffer : Mem) : Prop where
  auth : d.isAuthenticated = true
  valid : Valid d buffer
  type : frameType buffer = commandFrame

def frameWrite (lib : GcmLib) (env : Env) (d : Dev) (buffer : Mem) : WriteRes :=
  dataWrite env.flash d.flash (frameAddr (frameSeq buffer)) (frameImage lib d.cryptoIv buffer)
    (frameLen buffer).toNat

def ReadsBack (lib : GcmLib) (iv : List Byte) (f : Flash) (buffer : Mem) : Prop :=
  ∀ i, i < (frameLen buffer).toNat →
    f.read (frameAddr (frameSeq buffer) + BitVec.ofNat 32 i) = frameImage lib iv buffer i

def Dev.scratch (d : Dev) (plaintext : List Byte) (gcm : AesGcm) : Dev :=
  { d with plaintext := plaintext, gcm := gcm }

-- ---------------------------------------------------------------------------
-- The ways out
-- ---------------------------------------------------------------------------

inductive Handled (lib : GcmLib) (env : Env) (d : Dev) (buffer : Mem) : Dev × Out → Prop
  | invalid {ack : Word}
    (h : isPktValid d.crc32Table (frameType buffer) (frameLen buffer) buffer = .error ack) :
    Handled lib env d buffer (d, ⟨failure, ack, []⟩)
  | authFail (valid : Valid d buffer) (type : frameType buffer = authenticatedFrame)
    (tag : ¬ TagMatches lib env d buffer) (p : List Byte) (g : AesGcm) :
    Handled lib env d buffer
      (upgradeEnd { d.scratch p g with cryptoIv := authIv buffer }, .fail authenticatedFail)
  | authPass (valid : Valid d buffer) (type : frameType buffer = authenticatedFrame)
    (tag : TagMatches lib env d buffer) (p : List Byte) (g : AesGcm) :
    Handled lib env d buffer
      (upgradeStart { d.scratch p g with cryptoIv := authIv buffer },
        ⟨success, uHtonl authenticatedPass, []⟩)
  | closed (auth : d.isAuthenticated = false) (valid : Valid d buffer)
    (type : frameType buffer ≠ authenticatedFrame) :
    Handled lib env d buffer (d, .fail authenticatedFail)
  | seqRange (auth : d.isAuthenticated = true) (valid : Valid d buffer)
    (type : frameType buffer = dataFrame) (seq : maxSeqNum < (frameSeq buffer).toNat) :
    Handled lib env d buffer (d, .fail dataFrameSeqErr)
  | seqMismatch (auth : d.isAuthenticated = true) (valid : Valid d buffer)
    (type : frameType buffer = dataFrame) (seq_le : (frameSeq buffer).toNat ≤ maxSeqNum)
    (seq : d.prePktSeq + 1 ≠ (frameSeq buffer).toNat) :
    Handled lib env d buffer (upgradeEnd d, .fail dataFrameSeqErr)
  | badLen (next : Next d buffer)
    (len : maxPlaintextLen < (frameLen buffer).toNat ∨ (frameLen buffer).toNat = 0) :
    Handled lib env d buffer (d, .fail dataFrameLenErr)
  | decryptErr (next : Next d buffer) (err : d.cryptoIdx = -1 ∨ env.gcmErr ≠ 0)
    (p : List Byte) (g : AesGcm) :
    Handled lib env d buffer (d.scratch p g, .fail dataFrameDecryptErr)
  | writeErr (writes : Writes env d buffer) (w : WriteRes) (write : w = frameWrite lib env d buffer)
    (rc : w.rc ≠ success) (p : List Byte) (g : AesGcm) :
    Handled lib env d buffer
      (upgradeEnd { d.scratch p g with flash := w.flash },
        ⟨failure, uHtonl dataFrameFlashWrErr, w.effects⟩)
  | readBackErr (writes : Writes env d buffer) (w : WriteRes) (write : w = frameWrite lib env d buffer)
    (rc : w.rc = success) (back : ¬ ReadsBack lib d.cryptoIv w.flash buffer)
    (p : List Byte) (g : AesGcm) :
    Handled lib env d buffer
      (upgradeEnd { d.scratch p g with flash := w.flash },
        ⟨failure, uHtonl dataFrameFlashWrErr, w.effects ++ [.checkIntegrity failure]⟩)
  | stored (writes : Writes env d buffer) (w : WriteRes) (write : w = frameWrite lib env d buffer)
    (rc : w.rc = success) (back : ReadsBack lib d.cryptoIv w.flash buffer)
    (p : List Byte) (g : AesGcm) :
    Handled lib env d buffer
      ({ d.scratch p g with
          prePktSeq := (frameSeq buffer).toNat
          flash := w.flash
          fileLen := d.fileLen + (frameLen buffer).setWidth 32 },
        ⟨success, dataAck buffer, w.effects ++ [.checkIntegrity success]⟩)
  | version (command : Commands d buffer) (cmd : frameCmd buffer = getVersion) :
    Handled lib env d buffer (d, ⟨success, uHtonl appVersion, []⟩)
  | crc (command : Commands d buffer) (cmd : frameCmd buffer = getCrc) :
    Handled lib env d buffer (d, ⟨success, uHtonl (flashCrc d), []⟩)
  | exec (command : Commands d buffer) (cmd : frameCmd buffer = exec) :
    Handled lib env d buffer
      (switchingTimerStart codeSwitchingInterval .codeSwitching env.now d,
        ⟨success, uHtonl commandFramePass, [.switchingTimerStart]⟩)
  | unknown (command : Commands d buffer)
    (cmd : frameCmd buffer ≠ getVersion ∧ frameCmd buffer ≠ getCrc ∧ frameCmd buffer ≠ Firmware.exec) :
    Handled lib env d buffer (d, .fail commandFrameCmdErr)

variable {lib : GcmLib} {env : Env} {d : Dev} {buffer : Mem}

theorem isPktValid_type {table : Byte → Word} {type len : Half}
    (h : isPktValid table type len buffer = .ok ()) :
    type = authenticatedFrame ∨ type = dataFrame ∨ type = commandFrame := by
  unfold isPktValid at h
  split at h
  · exact .inl ‹_›
  · split at h
    · exact .inr (.inl ‹_›)
    · split at h
      · exact nomatch h
      · split at h
        · exact .inr (.inr ‹_›)
        · exact nomatch h

theorem isPktValid_error {table : Byte → Word} {type len : Half} {ack : Word}
    (h : isPktValid table type len buffer = .error ack) :
    ack = uHtonl pktInvalid ∨ ack = uHtonl dataFrameCrcErr := by
  unfold isPktValid at h
  split at h
  · split at h
    · exact .inl (Except.error.inj h).symm
    · exact nomatch h
  split at h
  · split at h
    · simp only [] at h
      split at h
      · exact .inr (Except.error.inj h).symm
      · exact nomatch h
    · exact .inl (Except.error.inj h).symm
  split at h
  · exact .inl (Except.error.inj h).symm
  split at h
  · split at h
    · exact .inl (Except.error.inj h).symm
    · exact nomatch h
  · exact .inl (Except.error.inj h).symm

theorem authenticatingFrame_eq (lib : GcmLib) (env : Env) (d : Dev) (buffer : Mem) :
    ∃ p g rc, authenticatingFrame lib env.gcmErr d (buffer.offset (pktHeaderLen + pktTypeLen)) =
        ({ d.scratch p g with cryptoIv := authIv buffer }, rc) ∧
      (rc = success ↔ TagMatches lib env d buffer) := by
  have hfail : ¬ failure = success := by decide
  unfold authenticatingFrame TagMatches
  by_cases hidx : d.cryptoIdx = -1
  · exact ⟨d.plaintext, d.gcm, failure, if_pos hidx, by simp [hidx, hfail]⟩
  by_cases herr : env.gcmErr = 0
  · let p := overwrite (lib.run .encrypt cryptoKey (authIv buffer) cryptoAad).1 d.plaintext
    let g : AesGcm := ⟨.cryptoAad, cryptoAad.length, .plaintext, aadTag lib (authIv buffer)⟩
    by_cases htag : aadTag lib (authIv buffer) = authTag buffer
    · refine ⟨p, g, success, ?_, by simp [hidx, herr, htag]⟩
      simp only [hidx, herr, if_false, ne_eq, not_true_eq_false]
      exact if_pos htag
    · refine ⟨p, g, failure, ?_, by simp [htag, hfail]⟩
      simp only [hidx, herr, if_false, ne_eq, not_true_eq_false]
      exact if_neg htag
  · let g : AesGcm := ⟨.cryptoAad, cryptoAad.length, .plaintext, d.gcm.tag⟩
    refine ⟨d.plaintext, g, failure, ?_, by simp [herr, hfail]⟩
    simp only [hidx, herr, if_false, ne_eq, not_false_eq_true, if_true]
    rfl

theorem dataDecrypt_eq (lib : GcmLib) (env : Env) (d : Dev) (buffer : Mem) :
    ∃ p g err, dataDecrypt lib env.gcmErr d (buffer.offset pktPayloadPos) (frameLen buffer).toNat =
        (d.scratch p g, err) ∧
      (err = 0 → d.cryptoIdx ≠ -1 ∧ env.gcmErr = 0 ∧
        (d.scratch p g).pt = frameImage lib d.cryptoIv buffer) ∧
      (err ≠ 0 → d.cryptoIdx = -1 ∨ env.gcmErr ≠ 0) := by
  unfold dataDecrypt
  by_cases hidx : d.cryptoIdx = -1
  · exact ⟨d.plaintext, d.gcm, 2, if_pos hidx, by simp, fun _ => .inl hidx⟩
  by_cases herr : env.gcmErr = 0
  · let p := overwrite (framePlain lib d.cryptoIv buffer) (List.replicate maxPlaintextLen 0xff)
    let g : AesGcm := ⟨.plaintext, (frameLen buffer).toNat, .frame, (lib.run .decrypt cryptoKey d.cryptoIv
      ((buffer.offset pktPayloadPos).slice 0 (frameLen buffer).toNat)).2⟩
    refine ⟨p, g, 0, ?_, fun _ => ⟨hidx, herr, rfl⟩, by simp⟩
    simp only [hidx, herr, if_false, ne_eq, not_true_eq_false]
    rfl
  · let p := List.replicate maxPlaintextLen 0xff#8
    let g : AesGcm := ⟨.plaintext, (frameLen buffer).toNat, .frame, d.gcm.tag⟩
    refine ⟨p, g, env.gcmErr, ?_, fun h => absurd h herr, fun _ => .inr herr⟩
    simp only [hidx, herr, if_false, ne_eq, not_false_eq_true, if_true]
    rfl

theorem handleAuthenticatedFrame_handled (valid : Valid d buffer)
    (type : frameType buffer = authenticatedFrame) :
    Handled lib env d buffer (handleAuthenticatedFrame lib env d buffer) := by
  obtain ⟨p, g, rc, heq, hrc⟩ := authenticatingFrame_eq lib env d buffer
  simp only [handleAuthenticatedFrame, heq]
  by_cases h : rc = success
  · simp only [h, ne_eq, not_true_eq_false, if_false]
    exact .authPass valid type (hrc.mp h) p g
  · simp only [h, ne_eq, not_false_eq_true, if_true]
    exact .authFail valid type (fun ht => h (hrc.mpr ht)) p g

theorem checkIntegrity_success {flAddr : Word} {len : Nat} : checkIntegrity d flAddr len = success ↔
    ∀ i, i < len → d.flash.read (flAddr + BitVec.ofNat 32 i) = d.pt i := by
  have hfail : ¬ failure = success := by decide
  simp [checkIntegrity, hfail]

theorem checkIntegrity_failure {flAddr : Word} {len : Nat} (h : checkIntegrity d flAddr len ≠ success) :
    checkIntegrity d flAddr len = failure := by
  unfold checkIntegrity at h ⊢
  split at h
  · exact absurd rfl h
  · rw [if_neg ‹_›]

theorem toInt_of_le_max {seq : Half} (h : seq.toNat ≤ maxSeqNum) : seq.toInt = seq.toNat := by
  have h : seq.toNat ≤ 1023 := h
  rw [BitVec.toInt_eq_toNat_of_lt (by omega)]

theorem frameWritten_handled (writes : Writes env d buffer)
    (hpt : (d.scratch p g).pt = frameImage lib d.cryptoIv buffer)
    (hw : written = frameWrite lib env d buffer) :
    Handled lib env d buffer
      (frameWritten { d.scratch p g with prePktSeq := (frameSeq buffer).toNat } (frameSeq buffer)
        (frameLen buffer) (dataAck buffer) written) := by
  have hback : ∀ f, checkIntegrity { d.scratch p g with prePktSeq := (frameSeq buffer).toNat, flash := f }
      (frameAddr (frameSeq buffer)) (frameLen buffer).toNat = success ↔
        ReadsBack lib d.cryptoIv f buffer := by
    intro f
    rw [checkIntegrity_success, ReadsBack, ← hpt]
    rfl
  unfold frameWritten
  by_cases hrc : written.rc = success
  case neg =>
    rw [if_pos hrc]
    exact .writeErr writes written hw hrc p g
  rw [if_neg (not_not.mpr hrc)]
  by_cases hread : ReadsBack lib d.cryptoIv written.flash buffer
  · rw [(hback _).mpr hread]
    exact .stored writes written hw hrc hread p g
  · have hne := fun h => hread ((hback written.flash).mp h)
    have hfail := checkIntegrity_failure hne
    rw [if_pos hne, hfail]
    exact .readBackErr writes written hw hrc hread p g

theorem handleDataFrame_handled (auth : d.isAuthenticated = true) (valid : Valid d buffer)
    (type : frameType buffer = dataFrame) :
    Handled lib env d buffer
      (handleDataFrame lib env d buffer (frameSeq buffer) (frameLen buffer) (dataAck buffer)) := by
  unfold handleDataFrame
  by_cases hmax : maxSeqNum < (frameSeq buffer).toNat
  · rw [if_pos hmax]
    exact .seqRange auth valid type hmax
  have hle : (frameSeq buffer).toNat ≤ maxSeqNum := Nat.not_lt.mp hmax
  rw [if_neg hmax]
  by_cases hseq : d.prePktSeq + 1 = (frameSeq buffer).toNat
  case neg =>
    rw [if_pos hseq]
    exact .seqMismatch auth valid type hle hseq
  have next : Next d buffer := ⟨auth, valid, type, hle, hseq⟩
  rw [if_neg (not_not.mpr hseq)]
  have hzero : frameLen buffer = 0 ↔ (frameLen buffer).toNat = 0 := by
    rw [← BitVec.toNat_inj]
    rfl
  by_cases hlen : maxPlaintextLen < (frameLen buffer).toNat ∨ (frameLen buffer).toNat = 0
  · rw [if_pos (hlen.imp_right hzero.mpr)]
    exact .badLen next hlen
  rw [if_neg (fun h => hlen (h.imp_right hzero.mp))]
  obtain ⟨p, g, err, heq, hok, herr⟩ := dataDecrypt_eq lib env d buffer
  rw [heq]
  simp only []
  by_cases he : err = 0
  case neg =>
    rw [if_pos he]
    exact .decryptErr next (herr he) p g
  obtain ⟨hidx, hgcm, hpt⟩ := hok he
  rw [if_neg (not_not.mpr he), toInt_of_le_max hle]
  refine frameWritten_handled
    { next with
      len_pos := Nat.pos_of_ne_zero fun h => hlen (.inr h)
      len_le := Nat.not_lt.mp fun h => hlen (.inl h)
      idx := hidx
      gcm := hgcm } hpt ?_
  rw [frameWrite, ← hpt]
  rfl

theorem handleCommandFrame_handled (command : Commands d buffer) :
    Handled lib env d buffer (handleCommandFrame env d buffer) := by
  unfold handleCommandFrame
  simp only []
  rw [show uHtonl (buffer.load32 (pktHeaderLen + pktTypeLen)) = frameCmd buffer from rfl]
  split
  · exact .version command ‹_›
  · split
    · exact .crc command ‹_›
    · split
      · exact .exec command ‹_›
      · exact .unknown command ⟨‹_›, ‹_›, ‹_›⟩

section
variable (lib env) (valid : Valid d buffer)
include valid

theorem handle_auth (type : frameType buffer = authenticatedFrame) :
    handleUpgradePacket lib env d buffer = handleAuthenticatedFrame lib env d buffer := by
  unfold handleUpgradePacket
  simp only []
  rw [valid]
  cases d.isAuthenticated <;> simp only [type, if_true, Bool.false_eq_true, if_false]

theorem handle_data (auth : d.isAuthenticated = true) (type : frameType buffer = dataFrame) :
    handleUpgradePacket lib env d buffer =
      handleDataFrame lib env d buffer (frameSeq buffer) (frameLen buffer) (dataAck buffer) := by
  have hauth : ¬ dataFrame = authenticatedFrame := by decide
  unfold handleUpgradePacket
  simp only []
  rw [valid]
  simp only [auth, type, if_true, hauth, if_false]

theorem handle_command (auth : d.isAuthenticated = true) (type : frameType buffer = commandFrame) :
    handleUpgradePacket lib env d buffer = handleCommandFrame env d buffer := by
  have hauth : ¬ commandFrame = authenticatedFrame := by decide
  have hdata : ¬ commandFrame = dataFrame := by decide
  unfold handleUpgradePacket
  simp only []
  rw [valid]
  simp only [auth, type, if_true, hauth, hdata, if_false]

theorem handle_closed (auth : d.isAuthenticated = false) (type : frameType buffer ≠ authenticatedFrame) :
    handleUpgradePacket lib env d buffer = (d, .fail authenticatedFail) := by
  unfold handleUpgradePacket
  simp only []
  rw [valid]
  simp only [auth, type, Bool.false_eq_true, if_false]

theorem handle_pass (type : frameType buffer = authenticatedFrame) (tag : TagMatches lib env d buffer) :
    ∃ p g, handleUpgradePacket lib env d buffer =
      (upgradeStart { d.scratch p g with cryptoIv := authIv buffer },
        ⟨success, uHtonl authenticatedPass, []⟩) := by
  obtain ⟨p, g, rc, heq, hrc⟩ := authenticatingFrame_eq lib env d buffer
  refine ⟨p, g, ?_⟩
  rw [handle_auth lib env valid type, handleAuthenticatedFrame, heq]
  simp only [hrc.mpr tag, ne_eq, not_true_eq_false, if_false]

end

theorem handled (lib : GcmLib) (env : Env) (d : Dev) (buffer : Mem) :
    Handled lib env d buffer (handleUpgradePacket lib env d buffer) := by
  cases hvalid : isPktValid d.crc32Table (frameType buffer) (frameLen buffer) buffer with
  | error ack =>
    unfold handleUpgradePacket
    simp only []
    rw [hvalid]
    exact .invalid hvalid
  | ok =>
    by_cases ht : frameType buffer = authenticatedFrame
    · rw [handle_auth lib env hvalid ht]
      exact handleAuthenticatedFrame_handled hvalid ht
    cases hauth : d.isAuthenticated with
    | false =>
      rw [handle_closed lib env hvalid hauth ht]
      exact .closed hauth hvalid ht
    | true =>
      rcases (isPktValid_type hvalid).resolve_left ht with ht | ht
      · rw [handle_data lib env hvalid hauth ht]
        exact handleDataFrame_handled hauth hvalid ht
      · rw [handle_command lib env hvalid hauth ht]
        exact handleCommandFrame_handled ⟨hauth, hvalid, ht⟩

theorem upgrade_handled (lib : GcmLib) (d : Dev) (fr : Frame) : ∃ r,
    Handled lib fr.env d fr.buffer r ∧ (upgrade lib).turn d fr = ⟨d, fr, r.2, r.1⟩ ∧
      (upgrade lib).next d fr = r.1 := ⟨_, handled lib fr.env d fr.buffer, rfl, rfl⟩

end EthernetOta.Firmware
