import EthernetOta.System.Crypto

/-!
# The app's frames as the device reads them

Each frame the app builds, delivered whole, is valid for the device, with the
fields the app put in, whatever lies in memory behind it.
-/

namespace EthernetOta.System

open Firmware

-- ---------------------------------------------------------------------------
-- CRC
-- ---------------------------------------------------------------------------

theorem initCrc32Entry_eq (crc : Word) : initCrc32Entry crc = Crc.bitStep 0xEDB88320#32 crc := by
  have hbit : crc &&& 1 ≠ 0 ↔ crc.getLsbD 0 = true := by
    rw [show (1 : Word) = 1#32 from rfl, BitVec.and_one_eq_setWidth_ofBool_getLsbD]
    cases crc.getLsbD 0 <;> decide
  simp only [initCrc32Entry, Crc.bitStep, hbit]

theorem initCrc32Table_eq : initCrc32Table = Crc.tableEntry 0xEDB88320#32 := by
  funext i
  simp [initCrc32Table, initCrc32Entry_eq, Crc.tableEntry, Crc.bitSteps, List.range_succ]

theorem calcCrc_eq (buf : Mem) (len : Nat) :
    calcCrc initCrc32Table buf len = Crc.crc32 (buf.slice 0 len) := by
  have hstep : crcStep (Crc.tableEntry 0xEDB88320#32) = Crc.tableStep (Crc.tableEntry 0xEDB88320#32) := by
    funext ret b
    have hmask : (0xFF#32).setWidth 8 = BitVec.allOnes 8 := by decide
    have hbyte : (b.setWidth 32).setWidth 8 = b := by
      rw [BitVec.setWidth_setWidth_of_le b (by decide), BitVec.setWidth_eq]
    have hidx : ((ret &&& 0xFF#32) ^^^ b.setWidth 32).setWidth 8 = ret.setWidth 8 ^^^ b := by
      rw [BitVec.setWidth_xor, BitVec.setWidth_and, hmask, BitVec.and_allOnes, hbyte]
    rw [crcStep, hidx, Crc.tableStep]
  rw [calcCrc, initCrc32Table_eq, hstep, Crc.foldl_tableStep, Crc.crc32]

-- ---------------------------------------------------------------------------
-- Network order
-- ---------------------------------------------------------------------------

theorem getLsbD_mask (m : Word) (k : Nat) (hk : k + 8 ≤ 32)
    (h : ∀ i, i < 32 → m.getLsbD i = (decide (k ≤ i) && decide (i < k + 8))) (i : Nat) :
    m.getLsbD i = (decide (k ≤ i) && decide (i < k + 8)) := by
  by_cases hi : i < 32
  · exact h i hi
  · rw [BitVec.getLsbD_of_ge m i (by omega)]
    simp
    omega

theorem uHtons_append (a b : Byte) : uHtons (a ++ b) = b ++ a := by
  have h0 : ∀ i, i < 16 → (0xff#16).getLsbD i = decide (i < 8) := by decide
  have h1 : ∀ i, i < 8 → (0xff00#16).getLsbD (8 + i) = true := by decide
  apply BitVec.eq_of_getLsbD_eq
  intro i hi
  simp only [uHtons, BitVec.getLsbD_or, BitVec.getLsbD_shiftLeft, BitVec.getLsbD_ushiftRight,
    BitVec.getLsbD_and, BitVec.getLsbD_append]
  by_cases h : i < 8
  · simp [h, h1 i h]
  · have h8 : i - 8 < 8 := by omega
    simp [h, hi, h8, h0 (i - 8) (by omega), BitVec.getLsbD_of_ge a i (by omega)]

theorem uHtonl_append (a b c d : Byte) : uHtonl ((d ++ c) ++ (b ++ a)) = (a ++ b) ++ (c ++ d) := by
  have h0 := getLsbD_mask 0xff#32 0 (by decide) (by decide)
  have h1 := getLsbD_mask 0xff00#32 8 (by decide) (by decide)
  have h2 := getLsbD_mask 0xff0000#32 16 (by decide) (by decide)
  have h3 := getLsbD_mask 0xff000000#32 24 (by decide) (by decide)
  have hge : ∀ (x : Byte) i, 8 ≤ i → x.getLsbD i = false := fun x i hi => BitVec.getLsbD_of_ge x i hi
  apply BitVec.eq_of_getLsbD_eq
  intro i hi
  simp only [uHtonl, BitVec.getLsbD_or, BitVec.getLsbD_shiftLeft, BitVec.getLsbD_ushiftRight,
    BitVec.getLsbD_and, BitVec.getLsbD_append, h0, h1, h2, h3]
  have hlast : i < 8 ∨ 8 ≤ i ∧ i < 16 ∨ 16 ≤ i ∧ i < 24 ∨ 24 ≤ i := by omega
  grind

theorem half_bytes (n : Half) : (n >>> 8).setWidth 8 ++ n.setWidth 8 = n := by
  apply BitVec.eq_of_getLsbD_eq
  intro i hi
  simp only [BitVec.getLsbD_append, BitVec.getLsbD_setWidth, BitVec.getLsbD_ushiftRight]
  grind

theorem word_bytes (n : Word) : ((n >>> 24).setWidth 8 ++ (n >>> 16).setWidth 8) ++
    ((n >>> 8).setWidth 8 ++ n.setWidth 8) = n := by
  apply BitVec.eq_of_getLsbD_eq
  intro i hi
  simp only [BitVec.getLsbD_append, BitVec.getLsbD_setWidth, BitVec.getLsbD_ushiftRight]
  grind

-- ---------------------------------------------------------------------------
-- The three frames
-- ---------------------------------------------------------------------------

section
variable {iv tag : List Byte} {rest : Mem}

theorem authenticationFrame_type (iv tag : List Byte) (rest : Mem) :
    frameType (.ofList (App.authenticationFrame iv tag) rest) = authenticatedFrame := by
  have h8 : Mem.ofList (App.authenticationFrame iv tag) rest 8 = 0x08 := rfl
  have h9 : Mem.ofList (App.authenticationFrame iv tag) rest 9 = 0x00 := rfl
  rw [frameType, Mem.load16, pktHeaderLen, h8, h9]
  decide

theorem authenticationFrame_drop : (App.authenticationFrame iv tag).drop 10 = iv ++ (tag ++ App.tail) := by
  rw [← List.append_assoc]
  rfl

theorem length_authenticationFrame (hiv : iv.length = 16) (htag : tag.length = 16) :
    (App.authenticationFrame iv tag).length = 43 := by
  simp [App.authenticationFrame, App.header, App.tail, hiv, htag]

theorem authenticationFrame_iv (hiv : iv.length = 16) (htag : tag.length = 16) :
    authIv (.ofList (App.authenticationFrame iv tag) rest) = iv := by
  have hlen := length_authenticationFrame hiv htag
  have hpos : pktHeaderLen + pktTypeLen + 0 = 10 := rfl
  have hsize : gcmIvLen = 16 := rfl
  rw [authIv, Mem.slice_offset, hpos, hsize, Mem.slice_ofList (by omega), authenticationFrame_drop,
    List.take_left' hiv]

theorem authenticationFrame_tag (hiv : iv.length = 16) (htag : tag.length = 16) :
    authTag (.ofList (App.authenticationFrame iv tag) rest) = tag := by
  have hlen := length_authenticationFrame hiv htag
  have hpos : pktHeaderLen + pktTypeLen + gcmIvLen = 10 + 16 := rfl
  have hsize : gcmTagLen = 16 := rfl
  rw [authTag, Mem.slice_offset, hpos, hsize, Mem.slice_ofList (by omega), ← List.drop_drop,
    authenticationFrame_drop, List.drop_left' hiv, List.take_left' htag]

theorem authenticationFrame_valid (hiv : iv.length = 16) (htag : tag.length = 16) (d : Dev) :
    Valid d (.ofList (App.authenticationFrame iv tag) rest) := by
  have hbos : (App.header ++ [0x08, 0x00] ++ iv ++ tag).length = 42 := by
    simp [App.header, hiv, htag]
  have htail : Mem.ofList (App.authenticationFrame iv tag) rest 42 = packetTail := by
    rw [App.authenticationFrame, ← Nat.add_zero 42, ← hbos, Mem.ofList_append_right]
    rfl
  have hpos : pktHeaderLen + pktTypeLen + gcmIvLen + gcmTagLen = 42 := rfl
  rw [Valid, authenticationFrame_type, isPktValid, if_pos rfl, hpos, htail, if_neg (fun h => h rfl)]

end

section
variable {ciphertext : List Byte} {num : Half} {rest : Mem}

theorem dataFrame_type (ciphertext : List Byte) (num : Half) (rest : Mem) :
    frameType (.ofList (App.dataFrame ciphertext num) rest) = Firmware.dataFrame := by
  have h8 : Mem.ofList (App.dataFrame ciphertext num) rest 8 = 0x08 := rfl
  have h9 : Mem.ofList (App.dataFrame ciphertext num) rest 9 = 0x01 := rfl
  rw [frameType, Mem.load16, pktHeaderLen, h8, h9]
  decide

theorem dataFrame_seq (ciphertext : List Byte) (num : Half) (rest : Mem) :
    frameSeq (.ofList (App.dataFrame ciphertext num) rest) = num := by
  have h10 : Mem.ofList (App.dataFrame ciphertext num) rest 10 = (num >>> 8).setWidth 8 := rfl
  have h11 : Mem.ofList (App.dataFrame ciphertext num) rest 11 = num.setWidth 8 := rfl
  have hpos : pktHeaderLen + pktTypeLen = 10 := rfl
  rw [frameSeq, Mem.load16, hpos, h10, h11, uHtons_append, half_bytes]

theorem dataFrame_len (ciphertext : List Byte) (num : Half) (rest : Mem) :
    frameLen (.ofList (App.dataFrame ciphertext num) rest) = 1024 := by
  have h12 : Mem.ofList (App.dataFrame ciphertext num) rest 12 = 0x04 := rfl
  have h13 : Mem.ofList (App.dataFrame ciphertext num) rest 13 = 0x00 := rfl
  have hpos : pktHeaderLen + pktTypeLen + pktSeqLen = 12 := rfl
  rw [frameLen, Mem.load16, hpos, h12, h13]
  decide

def dataFrameBody (ciphertext : List Byte) (num : Half) : List Byte :=
  App.header ++ [0x08, 0x01] ++ App.shortToByteArray num ++ [0x04, 0x00] ++ ciphertext

theorem dataFrame_eq (ciphertext : List Byte) (num : Half) : App.dataFrame ciphertext num =
    dataFrameBody ciphertext num ++
      (App.crcBytes (Crc.crc32 (dataFrameBody ciphertext num)) ++ App.tail) :=
  List.append_assoc _ _ _

theorem length_dataFrameBody (num : Half) (hlen : ciphertext.length = 1024) :
    (dataFrameBody ciphertext num).length = 1038 := by
  simp [dataFrameBody, App.header, App.shortToByteArray, hlen]

theorem length_dataFrame (num : Half) (hlen : ciphertext.length = 1024) :
    (App.dataFrame ciphertext num).length = 1043 := by
  rw [dataFrame_eq, List.length_append, length_dataFrameBody num hlen]
  rfl

theorem dataFrame_payload (num : Half) (rest : Mem) (hlen : ciphertext.length = 1024) :
    (Mem.offset (.ofList (App.dataFrame ciphertext num) rest) pktPayloadPos).slice 0 1024 = ciphertext := by
  have hframe := length_dataFrame num hlen
  have hpos : pktPayloadPos + 0 = 14 := rfl
  have hdrop : (dataFrameBody ciphertext num).drop 14 = ciphertext := rfl
  have hbody := length_dataFrameBody num hlen
  rw [Mem.slice_offset, hpos, Mem.slice_ofList (by omega), dataFrame_eq,
    List.drop_append_of_le_length (by omega), hdrop, List.take_left' hlen]

theorem dataFrame_crc (hlen : ciphertext.length = 1024) :
    uHtonl ((Mem.ofList (App.dataFrame ciphertext num) rest).load32 1038) =
      Crc.crc32 (dataFrameBody ciphertext num) := by
  have hbody := length_dataFrameBody num hlen
  have hbyte : ∀ i, Mem.ofList (App.dataFrame ciphertext num) rest (1038 + i) =
      Mem.ofList (App.crcBytes (Crc.crc32 (dataFrameBody ciphertext num)) ++ App.tail)
        (rest.offset 1038) i := by
    intro i
    rw [dataFrame_eq, ← hbody, Mem.ofList_append_right]
  rw [Mem.load32, hbyte 3, hbyte 2, hbyte 1, ← Nat.add_zero 1038, hbyte 0]
  generalize Crc.crc32 (dataFrameBody ciphertext num) = crc
  exact (uHtonl_append _ _ _ _).trans (word_bytes crc)

theorem dataFrame_valid (hlen : ciphertext.length = 1024) {d : Dev} (table : d.crc32Table = initCrc32Table) :
    Valid d (.ofList (App.dataFrame ciphertext num) rest) := by
  have hbody := length_dataFrameBody num hlen
  have hframe := length_dataFrame num hlen
  have hpos : pktPayloadPos + (1024 : Half).toNat = 1038 := rfl
  have htail : Mem.ofList (App.dataFrame ciphertext num) rest (1038 + pktCrcLen) = packetTail := by
    have hcrc : ∀ crc, (dataFrameBody ciphertext num ++ App.crcBytes crc).length = 1038 + pktCrcLen := by
      intro crc
      rw [List.length_append, hbody]
      rfl
    rw [dataFrame_eq, ← List.append_assoc, ← Nat.add_zero (1038 + pktCrcLen), ← hcrc, Mem.ofList_append_right]
    rfl
  have hcalc : calcCrc initCrc32Table (.ofList (App.dataFrame ciphertext num) rest) 1038 =
      Crc.crc32 (dataFrameBody ciphertext num) := by
    rw [calcCrc_eq, Mem.slice_ofList (by omega), List.drop_zero, dataFrame_eq, List.take_left' hbody]
  have hauth : ¬ Firmware.dataFrame = authenticatedFrame := by decide
  rw [Valid, dataFrame_type, dataFrame_len, isPktValid, if_neg hauth, if_pos rfl, hpos, if_pos htail,
    table, hcalc, dataFrame_crc hlen]
  exact if_neg (fun h => h rfl)

end

section
variable {c : App.CommandType} {rest : Mem}

def commandCode : App.CommandType → Word
  | .getVersion => getVersion
  | .getCRC => getCrc
  | .exeFirmware => exec

theorem commandFrame_type (c : App.CommandType) (rest : Mem) :
    frameType (.ofList (App.generateCommandFrame c) rest) = commandFrame := by
  have h8 : Mem.ofList (App.generateCommandFrame c) rest 8 = 0x08 := rfl
  have h9 : Mem.ofList (App.generateCommandFrame c) rest 9 = 0x02 := rfl
  rw [frameType, Mem.load16, pktHeaderLen, h8, h9]
  decide

theorem commandFrame_valid (c : App.CommandType) (rest : Mem) (d : Dev) :
    Valid d (.ofList (App.generateCommandFrame c) rest) := by
  have htail : Mem.ofList (App.generateCommandFrame c) rest 14 = packetTail := rfl
  have hpos : pktHeaderLen + pktTypeLen + pktCmdLen = 14 := rfl
  have hauth : ¬ commandFrame = authenticatedFrame := by decide
  have hdata : ¬ commandFrame = Firmware.dataFrame := by decide
  have hack : ¬ commandFrame = ackFrame := by decide
  rw [Valid, commandFrame_type, isPktValid, if_neg hauth, if_neg hdata, if_neg hack, if_pos rfl, hpos,
    htail, if_neg (fun h => h rfl)]

theorem commandFrame_cmd (c : App.CommandType) (rest : Mem) :
    frameCmd (.ofList (App.generateCommandFrame c) rest) = commandCode c := by
  have hpos : pktHeaderLen + pktTypeLen = 10 := rfl
  have h10 : Mem.ofList (App.generateCommandFrame c) rest 10 = 0x55 := rfl
  have h11 : Mem.ofList (App.generateCommandFrame c) rest (10 + 1) = 0xAA := rfl
  have h12 : Mem.ofList (App.generateCommandFrame c) rest (10 + 2) = 0x04 := rfl
  rw [frameCmd, Mem.load32, hpos, h10, h11, h12]
  cases c with
  | getVersion =>
    have h13 : Mem.ofList (App.generateCommandFrame .getVersion) rest (10 + 3) = 0x00 := rfl
    rw [h13]
    decide
  | getCRC =>
    have h13 : Mem.ofList (App.generateCommandFrame .getCRC) rest (10 + 3) = 0x01 := rfl
    rw [h13]
    decide
  | exeFirmware =>
    have h13 : Mem.ofList (App.generateCommandFrame .exeFirmware) rest (10 + 3) = 0x02 := rfl
    rw [h13]
    decide

end

-- ---------------------------------------------------------------------------
-- What they do
-- ---------------------------------------------------------------------------

section
variable (lib : GcmLib) (env : Env) {d : Dev} {iv : List Byte} (rest : Mem)

theorem length_aadTag (iv : List Byte) : (aadTag lib iv).length = 16 := lib.length_tag _ _ _ _

theorem handle_authenticationFrame (hiv : iv.length = 16) (idx : d.cryptoIdx ≠ -1) (gcm : env.gcmErr = 0) :
    ∃ p g, handleUpgradePacket lib env d (.ofList (App.authenticationFrame iv (aadTag lib iv)) rest) =
      (upgradeStart { d.scratch p g with cryptoIv := iv }, ⟨success, uHtonl authenticatedPass, []⟩) := by
  have htag := length_aadTag lib iv
  have hmatch : TagMatches lib env d (.ofList (App.authenticationFrame iv (aadTag lib iv)) rest) := by
    refine ⟨idx, gcm, ?_⟩
    rw [authenticationFrame_iv hiv htag, authenticationFrame_tag hiv htag]
  obtain ⟨p, g, h⟩ := handle_pass lib env (authenticationFrame_valid hiv htag d)
    (authenticationFrame_type _ _ _) hmatch
  rw [authenticationFrame_iv hiv htag] at h
  exact ⟨p, g, h⟩

theorem handle_generateCommandFrame (c : App.CommandType) (auth : d.isAuthenticated = true) :
    handleUpgradePacket lib env d (.ofList (App.generateCommandFrame c) rest) =
      match c with
      | .getVersion => (d, ⟨success, uHtonl appVersion, []⟩)
      | .getCRC => (d, ⟨success, uHtonl (flashCrc d), []⟩)
      | .exeFirmware => (switchingTimerStart codeSwitchingInterval .codeSwitching env.now d,
          ⟨success, uHtonl commandFramePass, [.switchingTimerStart]⟩) := by
  have hcrc : ¬ getCrc = getVersion := by decide
  have hexec : ¬ exec = getVersion ∧ ¬ exec = getCrc := by decide
  have hcmd := commandFrame_cmd c rest
  rw [frameCmd] at hcmd
  rw [handle_command lib env (commandFrame_valid c rest d) auth (commandFrame_type c rest),
    handleCommandFrame, hcmd]
  cases c with
  | getVersion => exact if_pos rfl
  | getCRC => exact (if_neg hcrc).trans (if_pos rfl)
  | exeFirmware => exact (if_neg hexec.1).trans ((if_neg hexec.2).trans (if_pos rfl))

end

section
variable {lib : GcmLib} (env : Env) {d : Dev} (num : Half)

theorem dataFrame_writes {ciphertext : List Byte} (hlen : ciphertext.length = 1024) (rest : Mem)
    (auth : d.isAuthenticated = true) (table : d.crc32Table = initCrc32Table) (le : num.toNat ≤ maxSeqNum)
    (next : d.prePktSeq + 1 = num.toNat) (idx : d.cryptoIdx ≠ -1) (gcm : env.gcmErr = 0) :
    Writes env d (.ofList (App.dataFrame ciphertext num) rest) where
  auth := auth
  valid := dataFrame_valid hlen table
  type := dataFrame_type _ _ _
  seq_le := by
    rw [dataFrame_seq]
    exact le
  seq := by
    rw [dataFrame_seq]
    exact next
  len_pos := by
    rw [dataFrame_len]
    decide
  len_le := by
    rw [dataFrame_len]
    decide
  idx := idx
  gcm := gcm

theorem length_take_encrypt (cipher : App.Cipher) {plaintext : List Byte} (hlen : plaintext.length = 1024)
    (key iv : List Byte) : ((cipher.encryptWithAesGcm plaintext key iv).take 1024).length = 1024 := by
  rw [List.length_take, cipher.length_encrypt, hlen]
  rfl

theorem generateDataFrame_plain {cipher : App.Cipher} (undoes : Undoes lib cipher) {plaintext : List Byte}
    (hlen : plaintext.length = 1024) (iv : List Byte) (rest : Mem) :
    framePlain lib iv (.ofList (App.generateDataFrame cipher iv plaintext num) rest) = plaintext := by
  have hpayload := dataFrame_payload num rest
    (length_take_encrypt cipher hlen App.cryptoKey iv)
  have h1024 : (1024 : Half).toNat = 1024 := rfl
  rw [App.generateDataFrame, framePlain, dataFrame_len, h1024, hpayload]
  exact undoes iv plaintext hlen

end

-- ---------------------------------------------------------------------------
-- The codec
-- ---------------------------------------------------------------------------

/-- A device that has set up its CRC table takes the frame. -/
def Accepted (m : Mem) : Prop := isPktValid initCrc32Table (frameType m) (frameLen m) m = .ok ()

structure ReadsAuthentication (iv tag : List Byte) (m : Mem) : Prop where
  accepted : Accepted m
  type : frameType m = authenticatedFrame
  iv : authIv m = iv
  tag : authTag m = tag

structure ReadsData (ciphertext : List Byte) (num : Half) (m : Mem) : Prop where
  accepted : Accepted m
  type : frameType m = Firmware.dataFrame
  seq : frameSeq m = num
  len : (frameLen m).toNat = ciphertext.length
  payload : (m.offset pktPayloadPos).slice 0 (frameLen m).toNat = ciphertext

structure ReadsCommand (c : App.CommandType) (m : Mem) : Prop where
  accepted : Accepted m
  type : frameType m = commandFrame
  cmd : frameCmd m = commandCode c

/-- The device reads what the app encoded, whatever lies behind the frame. -/
theorem request_codec (rest : Mem) :
    (∀ iv tag, iv.length = 16 → tag.length = 16 →
      ReadsAuthentication iv tag (.ofList (App.authenticationFrame iv tag) rest)) ∧
    (∀ ciphertext num, ciphertext.length = 1024 →
      ReadsData ciphertext num (.ofList (App.dataFrame ciphertext num) rest)) ∧
    ∀ c, ReadsCommand c (.ofList (App.generateCommandFrame c) rest) := by
  let d := { powerUp ⟨fun _ _ => 0, false⟩ with crc32Table := initCrc32Table }
  refine ⟨fun iv tag hiv htag => ?_, fun ciphertext num hlen => ?_, fun c => ?_⟩
  · exact
      { accepted := authenticationFrame_valid hiv htag d
        type := authenticationFrame_type iv tag rest
        iv := authenticationFrame_iv hiv htag
        tag := authenticationFrame_tag hiv htag }
  · have hframe : (frameLen (.ofList (App.dataFrame ciphertext num) rest)).toNat = 1024 := by
      rw [dataFrame_len]
      rfl
    exact
      { accepted := dataFrame_valid hlen (d := d) rfl
        type := dataFrame_type ciphertext num rest
        seq := dataFrame_seq ciphertext num rest
        len := hframe.trans hlen.symm
        payload := by rw [hframe, dataFrame_payload num rest hlen] }
  · exact
      { accepted := commandFrame_valid c rest d
        type := commandFrame_type c rest
        cmd := commandFrame_cmd c rest }

end EthernetOta.System
