import EthernetOta.Firmware.Switch
import EthernetOta.System.AckFrames

/-!
# Statuses and values in the device's acks

A status starts with 0xFF, 0xFF on the wire. The version and the ack of a data
frame never do, but the CRC of an image is any word at all.
-/

namespace EthernetOta.System

open Firmware App

-- ---------------------------------------------------------------------------
-- The four bytes of an ack
-- ---------------------------------------------------------------------------

theorem bytes_append (a b c d : Byte) : Word.bytes ((d ++ c) ++ (b ++ a)) = [a, b, c, d] := by
  simp only [Word.bytes, List.cons.injEq, and_true]
  refine ⟨?_, ?_, ?_, ?_⟩ <;> apply BitVec.eq_of_getLsbD_eq <;> intro i hi <;>
    simp only [BitVec.getLsbD_extractLsb', BitVec.getLsbD_append] <;> simp <;> grind

theorem generateAckFrame_append (a b c d : Byte) :
    generateAckFrame ((d ++ c) ++ (b ++ a)) = ackMessage a b c d := by
  have htype : (uHtons ackFrame).bytes = [0x08, 0x03] := by decide
  rw [generateAckFrame, bytes_append, htype]
  rfl

theorem generateAckFrame_uHtonl (w : Word) : generateAckFrame (uHtonl w) =
    ackMessage ((w >>> 24).setWidth 8) ((w >>> 16).setWidth 8) ((w >>> 8).setWidth 8) (w.setWidth 8) := by
  rw [← generateAckFrame_append, ← uHtonl_append, word_bytes]

theorem generateAckFrame_dataAck (buffer : Mem) : generateAckFrame (dataAck buffer) =
    ackMessage (buffer 12) (buffer 13) (buffer 10) (buffer 11) := by
  have hack : dataAck buffer = (buffer 11 ++ buffer 10) ++ (buffer 13 ++ buffer 12) := by
    have hseq : pktHeaderLen + pktTypeLen = 10 := rfl
    have hlen : pktHeaderLen + pktTypeLen + pktSeqLen = 12 := rfl
    rw [dataAck, hlen, hseq]
    apply BitVec.eq_of_getLsbD_eq
    intro i hi
    simp only [Mem.load16, BitVec.getLsbD_or, BitVec.getLsbD_shiftLeft, BitVec.getLsbD_setWidth,
      BitVec.getLsbD_append]
    grind
  rw [hack, generateAckFrame_append]

-- ---------------------------------------------------------------------------
-- Statuses
-- ---------------------------------------------------------------------------

/-- The first two bytes an ack frame carries are 0xFF. -/
def IsStatus (message : List Byte) : Prop := (message.drop 10).take 2 = [0xFF, 0xFF]

theorem isStatus_ackMessage (b0 b1 b2 b3 : Byte) :
    IsStatus (ackMessage b0 b1 b2 b3) ↔ b0 = 0xFF ∧ b1 = 0xFF := by
  have h : ((ackMessage b0 b1 b2 b3).drop 10).take 2 = [b0, b1] := rfl
  rw [IsStatus, h]
  simp

theorem high_bytes (w : Word) :
    (w >>> 24).setWidth 8 = 0xFF#8 ∧ (w >>> 16).setWidth 8 = 0xFF#8 ↔ 0xFFFF0000#32 ≤ w := by
  have hlt := w.isLt
  rw [← BitVec.toNat_inj, ← BitVec.toNat_inj, BitVec.le_def]
  simp only [BitVec.toNat_setWidth, BitVec.toNat_ushiftRight, Nat.shiftRight_eq_div_pow, BitVec.toNat_ofNat]
  omega

theorem isStatus_uHtonl (w : Word) : IsStatus (generateAckFrame (uHtonl w)) ↔ 0xFFFF0000#32 ≤ w := by
  rw [generateAckFrame_uHtonl, isStatus_ackMessage]
  exact high_bytes w

theorem takenAsCrc_uHtonl (w : Word) :
    TakenAsCrc (generateAckFrame (uHtonl w)) w ↔ ¬ 0xFFFF0000#32 ≤ w := by
  have hvalue : ackValue ((w >>> 24).setWidth 8) ((w >>> 16).setWidth 8) ((w >>> 8).setWidth 8)
      (w.setWidth 8) = w := word_bytes w
  have htaken := takenAsCrc_ackMessage ((w >>> 24).setWidth 8) ((w >>> 16).setWidth 8)
    ((w >>> 8).setWidth 8) (w.setWidth 8)
  rw [hvalue] at htaken
  rw [generateAckFrame_uHtonl]
  exact htaken.trans (not_congr (high_bytes w))

/-- A payload that fits is shorter than 0xFF00 bytes. -/
theorem not_isStatus_dataAck {buffer : Mem} (len : (frameLen buffer).toNat ≤ maxPlaintextLen) :
    ¬ IsStatus (generateAckFrame (dataAck buffer)) := by
  rw [generateAckFrame_dataAck, isStatus_ackMessage]
  rintro ⟨h12, h13⟩
  have hpos : pktHeaderLen + pktTypeLen + pktSeqLen = 12 := rfl
  rw [frameLen, Mem.load16, hpos, h12, h13] at len
  exact absurd len (by decide)

-- ---------------------------------------------------------------------------
-- The ack of a data frame
-- ---------------------------------------------------------------------------

/-- "Data ACK frame: first 2 bytes is sequence of the current Data frame, last 2bytes
is length of the current Data frame", in network order. -/
structure Documented (ack : List Byte) (seq len : Half) : Prop where
  length : ack.length = 15
  seq : (ack.drop 10).take 2 = App.shortToByteArray seq
  len : (ack.drop 12).take 2 = App.shortToByteArray len

theorem shortToByteArray_uHtons (m : Mem) (i : Nat) :
    App.shortToByteArray (uHtons (m.load16 i)) = [m i, m (i + 1)] := by
  rw [Mem.load16, uHtons_append, App.shortToByteArray, List.cons.injEq, List.cons.injEq]
  refine ⟨?_, ?_, rfl⟩ <;> apply BitVec.eq_of_getLsbD_eq <;> intro j hj <;>
    simp only [BitVec.getLsbD_setWidth, BitVec.getLsbD_ushiftRight, BitVec.getLsbD_append] <;> grind

theorem documented_dataAck (buffer : Mem) :
    Documented (generateAckFrame (dataAck buffer)) (frameSeq buffer) (frameLen buffer) ↔
      frameSeq buffer = frameLen buffer := by
  have hack := generateAckFrame_dataAck buffer
  have hseq : App.shortToByteArray (frameSeq buffer) = [buffer 10, buffer 11] := shortToByteArray_uHtons buffer 10
  have hlen : App.shortToByteArray (frameLen buffer) = [buffer 12, buffer 13] := shortToByteArray_uHtons buffer 12
  have hfirst : ((generateAckFrame (dataAck buffer)).drop 10).take 2 = [buffer 12, buffer 13] := by rw [hack]; rfl
  constructor
  · intro h
    have hbytes := hfirst.symm.trans (h.seq.trans hseq)
    obtain ⟨h10, h11⟩ := List.cons.inj hbytes
    rw [frameSeq, frameLen, Mem.load16, Mem.load16]
    exact congrArg uHtons (congrArg₂ (· ++ ·) (List.cons.inj h11).1.symm h10.symm)
  · intro h
    refine ⟨by rw [hack]; rfl, ?_, ?_⟩
    · rw [hfirst, h, hlen]
    · rw [← h, hseq, hack]
      rfl

/-- The ack of an accepted data frame says what it is documented to say just when
the frame's number is its length: the two have changed places. -/
theorem dataAck_documented (lib : GcmLib) (env : Env) (d : Dev) (buffer : Mem)
    (type : frameType buffer = Firmware.dataFrame)
    (accepted : (handleUpgradePacket lib env d buffer).2.ret = success) :
    Documented (generateAckFrame (handleUpgradePacket lib env d buffer).2.ack) (frameSeq buffer)
      (frameLen buffer) ↔ frameSeq buffer = frameLen buffer := by
  have h := handled lib env d buffer
  generalize handleUpgradePacket lib env d buffer = r at h accepted ⊢
  have hfail : failure ≠ success := by decide
  have hauth : Firmware.dataFrame ≠ authenticatedFrame := by decide
  have hcommand : Firmware.dataFrame ≠ commandFrame := by decide
  cases h with
  | stored => exact documented_dataAck buffer
  | authPass _ type' => exact absurd (type.symm.trans type') hauth
  | version command => exact absurd (type.symm.trans command.type) hcommand
  | crc command => exact absurd (type.symm.trans command.type) hcommand
  | exec command => exact absurd (type.symm.trans command.type) hcommand
  | _ => exact absurd accepted hfail

def sampleDev : Dev := (device gcmMemory 0).next (boot 0 blankFlash) (sampleAuth gcmMemory)

def sampleBlock : Mem := .ofList (App.dataFrame (List.replicate 1024 0) 0) fun _ => 0

theorem handle_sampleBlock : ∃ effects,
    (handleUpgradePacket gcmMemory ⟨0, fun _ => .done, 0⟩ sampleDev sampleBlock).2 =
      ⟨success, dataAck sampleBlock, effects⟩ := by
  have hidx : (boot 0 blankFlash).cryptoIdx ≠ -1 := by decide
  have hlen : (List.replicate 1024 (0 : Byte)).length = 1024 := List.length_replicate
  have hzero : (0 : Half).toNat = 0 := rfl
  obtain ⟨p, g, hauth⟩ := next_sampleAuth gcmMemory 0 (boot 0 blankFlash) hidx
  rw [sampleDev, hauth]
  have writes := dataFrame_writes ⟨0, fun _ => .done, 0⟩ (d := upgradeStart
    { (boot 0 blankFlash).scratch p g with cryptoIv := sampleIv }) 0 hlen (fun _ => 0)
    rfl rfl (by decide) (by rw [hzero]; rfl) hidx rfl
  have ready : Nor.Ready eraseGroupSize (boot 0 blankFlash).flash.bank1 (1024 * (0 : Half).toNat) :=
    fun h => absurd rfl h
  rw [← dataFrame_seq (List.replicate 1024 0) 0 fun _ => 0] at ready
  obtain ⟨w, p', g', effects, -, h⟩ := handle_stored gcmMemory writes (fun _ => rfl) ready
  exact ⟨effects, congrArg Prod.snd h⟩

theorem dataAck_documented_block :
    Documented (generateAckFrame (handleUpgradePacket gcmMemory ⟨0, fun _ => .done, 0⟩ sampleDev
      sampleBlock).2.ack) (frameSeq sampleBlock) (frameLen sampleBlock) ↔
        frameSeq sampleBlock = frameLen sampleBlock := by
  obtain ⟨effects, h⟩ := handle_sampleBlock
  have htype : frameType sampleBlock = Firmware.dataFrame := dataFrame_type _ _ _
  have hret : (handleUpgradePacket gcmMemory ⟨0, fun _ => .done, 0⟩ sampleDev sampleBlock).2.ret = success := by
    rw [h]
  exact dataAck_documented gcmMemory ⟨0, fun _ => .done, 0⟩ sampleDev sampleBlock htype hret

/-- Number 0 and length 1024: the bytes of the sequence say 1024. -/
theorem dataAck_swapped :
    let out := (handleUpgradePacket gcmMemory ⟨0, fun _ => .done, 0⟩ sampleDev sampleBlock).2
    frameType sampleBlock = Firmware.dataFrame ∧ out.ret = success ∧
      ¬ Documented (generateAckFrame out.ack) (frameSeq sampleBlock) (frameLen sampleBlock) := by
  intro out
  obtain ⟨effects, h⟩ := handle_sampleBlock
  have hne : (0 : Half) ≠ 1024 := by decide
  have hret : out.ret = success := by rw [show out = _ from h]
  have hack : out.ack = dataAck sampleBlock := by rw [show out = _ from h]
  refine ⟨dataFrame_type _ _ _, hret, fun hd => hne ?_⟩
  have heq := (documented_dataAck sampleBlock).mp (hack ▸ hd)
  exact (dataFrame_seq _ _ _).symm.trans (heq.trans (dataFrame_len _ _ _))

-- ---------------------------------------------------------------------------
-- The CRC of the image
-- ---------------------------------------------------------------------------

def bankImage (d : Dev) : List Byte := Mem.slice d.flash.bank1 0 d.fileLen.toNat

structure TableReady (d : Dev) : Prop where
  table : d.cryptoIdx ≠ -1 → d.crc32Table = initCrc32Table
  idx : d.isAuthenticated = true → d.cryptoIdx ≠ -1

theorem TableReady.of_open {d : Dev} (h : TableReady d) (auth : d.isAuthenticated = true) :
    d.crc32Table = initCrc32Table := h.table (h.idx auth)

theorem tableReady_boot (idx : Int) (f : Flash) : TableReady (boot idx f) := by
  unfold boot upgradeInit
  by_cases hidx : idx = -1
  · rw [if_pos hidx]
    exact ⟨fun h => absurd hidx h, fun h => nomatch h⟩
  · rw [if_neg hidx]
    exact ⟨fun _ => rfl, fun h => nomatch h⟩

theorem tableReady_handled {env : Env} {d : Dev} {r : Dev × Out} (h : Handled lib env d buffer r)
    (hd : TableReady d) : TableReady r.1 := by
  cases h with
  | authPass valid type tag => exact ⟨hd.table, fun _ => tag.1⟩
  | authFail => exact ⟨hd.table, fun h => nomatch h⟩
  | seqMismatch => exact ⟨hd.table, fun h => nomatch h⟩
  | writeErr => exact ⟨hd.table, fun h => nomatch h⟩
  | readBackErr => exact ⟨hd.table, fun h => nomatch h⟩
  | _ => exact ⟨hd.table, hd.idx⟩

theorem tableReady_next (d : Dev) (e : Event) (hd : TableReady d) :
    TableReady ((device lib idx).next d e) := by
  cases e with
  | frame fr =>
    obtain ⟨r, hr, -, hn⟩ := device_frame lib idx d fr
    rw [hn]
    exact tableReady_handled hr hd
  | poll curTime o =>
    obtain ⟨r, hr, -, hn⟩ := device_poll lib idx d curTime o
    rw [hn]
    cases hr with
    | off => exact hd
    | waiting => exact ⟨hd.table, hd.idx⟩
    | switched => exact tableReady_boot _ _

theorem flashCrc_eq {d : Dev} (table : d.crc32Table = initCrc32Table)
    (len : 0 < d.fileLen ∧ d.fileLen < iflash1Size) : flashCrc d = Crc.crc32 (bankImage d) := by
  have hlen : d.fileLen.toNat < 0x100000 := BitVec.lt_def.mp len.2
  rw [flashCrc, if_pos len, table, calcCrc_eq, bankImage]
  congr 1
  apply Mem.slice_congr
  intro i _ hi
  have hread := read_pageAddr d.flash (p := 0) (i := i) (by omega)
  rw [Nat.mul_zero, Nat.zero_add] at hread
  exact hread

-- ---------------------------------------------------------------------------
-- Replies
-- ---------------------------------------------------------------------------

/-- What the app makes of the answer to a frame is what the device means by it. -/
structure Unambiguous (d : Dev) (buffer : Mem) (out : Out) : Prop where
  status : IsStatus (generateAckFrame out.ack) → out.ret ≠ success ∨
    frameType buffer = authenticatedFrame ∨ (frameType buffer = commandFrame ∧ frameCmd buffer = exec)
  crc : Commands d buffer → frameCmd buffer = getCrc → TakenAsCrc (generateAckFrame out.ack) (flashCrc d)

/-- `GET_CRC` for an image whose CRC-32 looks like a status. -/
structure CrcClash (d : Dev) (buffer : Mem) : Prop where
  command : Commands d buffer
  cmd : frameCmd buffer = getCrc
  len : 0 < d.fileLen ∧ d.fileLen < iflash1Size
  crc : 0xFFFF0000#32 ≤ Crc.crc32 (bankImage d)

theorem crcClash_iff {d : Dev} {buffer : Mem} (hd : TableReady d) (command : Commands d buffer)
    (cmd : frameCmd buffer = getCrc) : CrcClash d buffer ↔ 0xFFFF0000#32 ≤ flashCrc d := by
  have htable := hd.of_open command.auth
  constructor
  · intro h
    rw [flashCrc_eq htable h.len]
    exact h.crc
  · intro h
    have hlen : 0 < d.fileLen ∧ d.fileLen < iflash1Size := by
      refine by_contra fun hlen => ?_
      rw [flashCrc, if_neg hlen] at h
      exact absurd h (by decide)
    rw [flashCrc_eq htable hlen] at h
    exact ⟨command, cmd, hlen, h⟩

section
variable {env : Env} {d : Dev} {buffer : Mem}

theorem handle_getCrc (lib : GcmLib) (env : Env) (command : Commands d buffer)
    (cmd : frameCmd buffer = getCrc) :
    handleUpgradePacket lib env d buffer = (d, ⟨success, uHtonl (flashCrc d), []⟩) := by
  have hversion : ¬ getCrc = getVersion := by decide
  rw [frameCmd] at cmd
  rw [handle_command lib env command.valid command.auth command.type, handleCommandFrame, cmd]
  exact (if_neg hversion).trans (if_pos rfl)

theorem not_unambiguous (lib : GcmLib) (env : Env) (hd : TableReady d) (clash : CrcClash d buffer) :
    ¬ Unambiguous d buffer (handleUpgradePacket lib env d buffer).2 := by
  intro hun
  have hhigh := (crcClash_iff hd clash.command clash.cmd).mp clash
  have htaken := hun.crc clash.command clash.cmd
  rw [handle_getCrc lib env clash.command clash.cmd] at htaken
  exact (takenAsCrc_uHtonl _).mp htaken hhigh

theorem unambiguous_of_ret {out : Out}
    (h : out.ret ≠ success ∨ frameType buffer = authenticatedFrame)
    (command : ¬ Commands d buffer ∨ frameCmd buffer ≠ getCrc) : Unambiguous d buffer out where
  status _ := h.imp_right .inl
  crc hc cmd := command.elim (fun h => absurd hc h) fun h => absurd cmd h

theorem unambiguous_of_handled {r : Dev × Out} (h : Handled lib env d buffer r) (hd : TableReady d)
    (clash : ¬ CrcClash d buffer) : Unambiguous d buffer r.2 := by
  have hfail : failure ≠ success := by decide
  have hauth : authenticatedFrame ≠ commandFrame := by decide
  have hdata : Firmware.dataFrame ≠ commandFrame := by decide
  cases h with
  | invalid hv => exact unambiguous_of_ret (.inl hfail) (.inl fun hc => nomatch hv.symm.trans hc.valid)
  | closed auth => exact unambiguous_of_ret (.inl hfail) (.inl fun hc => nomatch auth.symm.trans hc.auth)
  | authFail _ type => exact unambiguous_of_ret (.inl hfail) (.inl fun hc => hauth (type.symm.trans hc.type))
  | authPass _ type => exact unambiguous_of_ret (.inr type) (.inl fun hc => hauth (type.symm.trans hc.type))
  | seqRange _ _ type => exact unambiguous_of_ret (.inl hfail) (.inl fun hc => hdata (type.symm.trans hc.type))
  | seqMismatch _ _ type =>
    exact unambiguous_of_ret (.inl hfail) (.inl fun hc => hdata (type.symm.trans hc.type))
  | badLen next => exact unambiguous_of_ret (.inl hfail) (.inl fun hc => hdata (next.type.symm.trans hc.type))
  | decryptErr next =>
    exact unambiguous_of_ret (.inl hfail) (.inl fun hc => hdata (next.type.symm.trans hc.type))
  | writeErr writes =>
    exact unambiguous_of_ret (.inl hfail) (.inl fun hc => hdata (writes.type.symm.trans hc.type))
  | readBackErr writes =>
    exact unambiguous_of_ret (.inl hfail) (.inl fun hc => hdata (writes.type.symm.trans hc.type))
  | unknown _ cmd => exact unambiguous_of_ret (.inl hfail) (.inr cmd.2.1)
  | stored writes =>
    exact ⟨fun hs => absurd hs (not_isStatus_dataAck writes.len_le),
      fun hc => absurd (writes.type.symm.trans hc.type) hdata⟩
  | version _ cmd =>
    have hlow : ¬ 0xFFFF0000#32 ≤ appVersion := by decide
    have hcrc : getVersion ≠ getCrc := by decide
    exact ⟨fun hs => absurd ((isStatus_uHtonl _).mp hs) hlow, fun _ h => absurd (cmd.symm.trans h) hcrc⟩
  | crc command cmd =>
    have hlow := (not_congr (crcClash_iff hd command cmd)).mp clash
    exact ⟨fun hs => absurd ((isStatus_uHtonl _).mp hs) hlow, fun _ _ => (takenAsCrc_uHtonl _).mpr hlow⟩
  | exec command cmd =>
    have hcrc : exec ≠ getCrc := by decide
    exact ⟨fun _ => .inr (.inr ⟨command.type, cmd⟩), fun _ h => absurd (cmd.symm.trans h) hcrc⟩

end

/-- In every state a run of the device leads to, and for every frame, the answer
is unambiguous just when it is not the CRC of an image that looks like a status. -/
theorem replies_unambiguous (lib : GcmLib) (idx : Int) (f : Flash) (events : List Event) (env : Env)
    (buffer : Mem) :
    let d := (device lib idx).run (boot idx f) events
    Unambiguous d buffer (handleUpgradePacket lib env d buffer).2 ↔ ¬ CrcClash d buffer := by
  intro d
  have hd : TableReady d := Machine.inv tableReady_next (tableReady_boot idx f) events
  exact ⟨fun hun clash => not_unambiguous lib env hd clash hun,
    unambiguous_of_handled (handled lib env d buffer) hd⟩

-- ---------------------------------------------------------------------------
-- A clash
-- ---------------------------------------------------------------------------

theorem stored_first {env : Env} {d : Dev} {buffer : Mem} (lib : GcmLib) (writes : Writes env d buffer)
    (done : ∀ c, env.flash c = .done) (hseq : (frameSeq buffer).toNat = 0) :
    ∃ d', (handleUpgradePacket lib env d buffer).1 = d' ∧ d'.isAuthenticated = true ∧
      d'.fileLen = d.fileLen + (frameLen buffer).setWidth 32 ∧
      Mem.slice d'.flash.bank1 0 (frameLen buffer).toNat = framePlain lib d.cryptoIv buffer := by
  have ready : Nor.Ready eraseGroupSize d.flash.bank1 (1024 * (frameSeq buffer).toNat) := by
    rw [hseq]
    exact fun h => absurd rfl h
  obtain ⟨w, p, g, effects, appended, h⟩ := handle_stored lib writes done ready
  refine ⟨_, congrArg Prod.fst h, writes.auth, rfl, ?_⟩
  apply List.ext_getElem
  · simp
  · intro j _ hj
    have hlen := hj
    rw [length_framePlain] at hlen
    have hdata := appended.data j (Nat.lt_of_lt_of_le hlen (le_framePages _))
    rw [hseq, Nat.mul_zero, Nat.zero_add, frameImage_lt hj] at hdata
    rw [Mem.getElem_slice, Nat.zero_add]
    exact hdata

theorem next_first (idx : Int) {cipher : App.Cipher} (undoes : Undoes lib cipher) {d : Dev} {block : List Byte}
    (hblock : block.length = 1024) (auth : d.isAuthenticated = true)
    (table : d.crc32Table = initCrc32Table) (hidx : d.cryptoIdx ≠ -1) (hseq : d.prePktSeq = -1)
    (hlen : d.fileLen = 0) :
    ∃ d', (device lib idx).next d (received (generateDataFrame cipher d.cryptoIv block 0)) = d' ∧
      d'.isAuthenticated = true ∧ d'.fileLen = 1024 ∧ bankImage d' = block := by
  have hzero : (0 : Half).toNat = 0 := rfl
  have hcipher := length_take_encrypt cipher hblock App.cryptoKey d.cryptoIv
  have hplain := generateDataFrame_plain 0 undoes hblock d.cryptoIv fun _ => 0
  rw [generateDataFrame] at hplain
  have writes := dataFrame_writes ⟨0, fun _ => .done, 0⟩ 0 hcipher (fun _ => 0)
    auth table (by decide) (by rw [hseq, hzero]; rfl) hidx rfl
  have hnum : (frameSeq (Mem.ofList (App.dataFrame ((cipher.encryptWithAesGcm block App.cryptoKey
      d.cryptoIv).take 1024) 0) fun _ => 0)).toNat = 0 := by
    rw [dataFrame_seq]
    rfl
  obtain ⟨d', h, hauth, hfile, hslice⟩ := stored_first lib writes (fun _ => rfl) hnum
  rw [dataFrame_len, hlen] at hfile
  rw [dataFrame_len, hplain] at hslice
  refine ⟨d', h, hauth, hfile, ?_⟩
  rw [bankImage, hfile]
  exact hslice

/-- Four bytes 0xFF clear the CRC register, and zeros leave it clear. -/
def clashBlock : List Byte := List.replicate 4 0xff ++ List.replicate 1020 0

theorem crc32_ones_zeros (n : Nat) :
    Crc.crc32 (List.replicate 4 0xff ++ List.replicate n 0) = 0xFFFFFFFF#32 := by
  have hones : Crc.update 0xEDB88320#32 0xFFFFFFFF#32 (List.replicate 4 0xff) = 0 := by decide +kernel
  have hzero : Crc.byteStep 0xEDB88320#32 0 0 = 0 := by decide +kernel
  have hzeros : Crc.update 0xEDB88320#32 0 (List.replicate n 0) = 0 := by
    induction n with
    | zero => rfl
    | succ n ih =>
      rw [List.replicate_succ, Crc.update, List.foldl_cons, hzero]
      exact ih
  rw [Crc.crc32, Crc.update_append, hones, hzeros]
  rfl

theorem crc32_clashBlock : Crc.crc32 clashBlock = 0xFFFFFFFF#32 := crc32_ones_zeros 1020

/-- The reply to `GET_CRC` for an image that was accepted is a status to the app. -/
theorem crc_taken_as_status :
    let d := (device gcmMemory 0).run (boot 0 blankFlash) [sampleAuth gcmMemory,
      received (generateDataFrame aesGcmNoPadding sampleIv clashBlock 0)]
    let buffer := Mem.ofList (generateCommandFrame .getCRC) fun _ => 0
    bankImage d = clashBlock ∧
      ¬ Unambiguous d buffer (handleUpgradePacket gcmMemory ⟨0, fun _ => .done, 0⟩ d buffer).2 := by
  intro d buffer
  have hidx : (boot 0 blankFlash).cryptoIdx ≠ -1 := by decide
  have hblock : clashBlock.length = 1024 := by
    rw [clashBlock, List.length_append, List.length_replicate, List.length_replicate]
  obtain ⟨p, g, hauth⟩ := next_sampleAuth gcmMemory 0 (boot 0 blankFlash) hidx
  obtain ⟨d', h, hopen, hlen, himage⟩ := next_first 0 aesGcm_undoes (d := upgradeStart
    { (boot 0 blankFlash).scratch p g with cryptoIv := sampleIv }) hblock rfl rfl hidx rfl rfl
  have hd : d = d' := by
    simp only [d, Machine.run, hauth]
    exact h
  have hready : TableReady d := Machine.inv tableReady_next (tableReady_boot 0 blankFlash) _
  rw [hd] at hready ⊢
  refine ⟨himage, not_unambiguous gcmMemory _ hready ?_⟩
  exact
    { command := ⟨hopen, commandFrame_valid _ _ _, commandFrame_type _ _⟩
      cmd := commandFrame_cmd _ _
      len := by
        rw [hlen]
        decide
      crc := by
        rw [himage, crc32_clashBlock]
        decide }

end EthernetOta.System
