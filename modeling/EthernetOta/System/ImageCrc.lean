import EthernetOta.Firmware.FileLen
import EthernetOta.System.Replies

/-!
# The CRC of an uploaded image

`GET_CRC` answers with the CRC-32 of the blocks that were accepted, but for an
image that fills the bank: then its length is not below `IFLASH1_SIZE`, and the
answer is 0.
-/

namespace EthernetOta.System

open Firmware

def logImage (lib : GcmLib) (l : Log) : List Byte := (l.frames.map (framePlain lib l.iv)).flatten

section
variable {lib : GcmLib} {l : Log} {d : Dev}

theorem fileLen_full (measured : Measured l d) (full : ∀ b ∈ l.frames, (frameLen b).toNat = 1024) :
    d.fileLen.toNat = 1024 * l.frames.length := by
  have hsum : l.lens.sum = 1024 * l.lens.length := by
    refine sum_eq_mul fun x hx => ?_
    obtain ⟨b, hb, rfl⟩ := List.mem_map.mp hx
    exact full b hb
  rw [measured.fileLen, hsum, Log.lens, List.length_map]

theorem bankImage_full (image : Image lib l d) (measured : Measured l d)
    (full : ∀ b ∈ l.frames, (frameLen b).toNat = 1024) : bankImage d = logImage lib l := by
  have hcount : (l.frames.map (framePlain lib l.iv)).length = l.frames.length := List.length_map _
  rw [bankImage, fileLen_full measured full, ← hcount]
  refine Mem.slice_flatten fun i hi => ?_
  rw [hcount] at hi
  have hlen : (framePlain lib l.iv l.frames[i]).length = 1024 := by
    rw [length_framePlain, full _ (List.getElem_mem hi)]
  rw [List.getElem_map, Nat.zero_add]
  apply List.ext_getElem
  · rw [Mem.length_slice, hlen]
  · intro j _ hj
    rw [Mem.getElem_slice]
    exact (image.stored i hi).data j hj

theorem flashCrc_full (table : d.crc32Table = initCrc32Table) (image : Image lib l d) (measured : Measured l d)
    (full : ∀ b ∈ l.frames, (frameLen b).toNat = 1024) :
    flashCrc d = if l.frames.length < 1024 then Crc.crc32 (logImage lib l) else 0 := by
  have hlen := fileLen_full measured full
  have hsize : iflash1Size.toNat = 1024 * 1024 := rfl
  by_cases hempty : l.frames = []
  · have hzero : d.fileLen = 0 := BitVec.eq_of_toNat_eq (by rw [hlen, hempty]; rfl)
    have himage : logImage lib l = [] := by rw [logImage, hempty]; rfl
    have hcrc : Crc.crc32 [] = 0 := by decide
    rw [flashCrc, hzero, if_neg (fun h => absurd h.1 (by decide)), himage, hcrc, ite_self]
  have hpos : 0 < l.frames.length := List.length_pos_of_ne_nil hempty
  by_cases hfit : l.frames.length < 1024
  · have hbounds : 0 < d.fileLen ∧ d.fileLen < iflash1Size := by
      rw [BitVec.lt_def, BitVec.lt_def, hlen, hsize]
      exact ⟨by simpa using hpos, by omega⟩
    rw [flashCrc_eq table hbounds, bankImage_full image measured full, if_pos hfit]
  · have hbounds : ¬ (0 < d.fileLen ∧ d.fileLen < iflash1Size) := by
      rw [BitVec.lt_def, BitVec.lt_def, hlen, hsize]
      omega
    rw [flashCrc, if_neg hbounds, if_neg hfit]

end

theorem crcBytes_injective (h : App.crcBytes x = App.crcBytes y) : x = y := by
  simp only [App.crcBytes, List.cons.injEq, and_true] at h
  rw [← word_bytes x, ← word_bytes y, h.1, h.2.1, h.2.2.1, h.2.2.2]

theorem tableReady_run (lib : GcmLib) (idx : Int) (f : Flash) (frames : List Frame) :
    TableReady ((upgrade lib).run (boot idx f) frames) := by
  refine Machine.inv (fun d fr hd => ?_) (tableReady_boot idx f) frames
  exact tableReady_handled (handled lib fr.env d fr.buffer) hd

theorem getCrc_bytes (lib : GcmLib) (idx : Int) (f : Flash) (frames : List Frame) (env : Env) (buffer : Mem) :
    let l := sessionLog ((upgrade lib).turns (boot idx f) frames)
    let d := (upgrade lib).run (boot idx f) frames
    Commands d buffer → frameCmd buffer = getCrc → (∀ b ∈ l.frames, (frameLen b).toNat = 1024) →
      ((generateAckFrame (handleUpgradePacket lib env d buffer).2.ack).drop 10).take 4 =
        App.crcBytes (if l.frames.length < 1024 then Crc.crc32 (logImage lib l) else 0) := by
  intro l d command cmd full
  have h := session_run lib idx f frames
  have hcrc : flashCrc d = if l.frames.length < 1024 then Crc.crc32 (logImage lib l) else 0 :=
    flashCrc_full ((tableReady_run lib idx f frames).of_open command.auth) (h.follows command.auth)
      (h.measured command.auth) full
  have hbytes : ((generateAckFrame (uHtonl (flashCrc d))).drop 10).take 4 = App.crcBytes (flashCrc d) := by
    rw [generateAckFrame_uHtonl]
    rfl
  rw [handle_getCrc lib env command cmd, hbytes, hcrc]

/-- In every state a run leads to: if the blocks accepted in the session are full, the
reply to `GET_CRC` is the CRC-32 of the image they make, the highest byte first, just
when they do not fill the bank or that CRC is 0. -/
theorem getCrc_reports (lib : GcmLib) (idx : Int) (f : Flash) (frames : List Frame) (env : Env) (buffer : Mem) :
    let l := sessionLog ((upgrade lib).turns (boot idx f) frames)
    let d := (upgrade lib).run (boot idx f) frames
    Commands d buffer → frameCmd buffer = getCrc → (∀ b ∈ l.frames, (frameLen b).toNat = 1024) →
      (((generateAckFrame (handleUpgradePacket lib env d buffer).2.ack).drop 10).take 4 =
          App.crcBytes (Crc.crc32 (logImage lib l)) ↔
        l.frames.length < 1024 ∨ Crc.crc32 (logImage lib l) = 0) := by
  intro l d command cmd full
  rw [getCrc_bytes lib idx f frames env buffer command cmd full]
  by_cases hfit : l.frames.length < 1024
  · rw [if_pos hfit]
    exact ⟨fun _ => .inl hfit, fun _ => rfl⟩
  · rw [if_neg hfit]
    constructor
    · intro hzero
      exact .inr (crcBytes_injective hzero).symm
    · rintro (hlt | hzero)
      · exact absurd hlt hfit
      · rw [hzero]

-- ---------------------------------------------------------------------------
-- Uploads
-- ---------------------------------------------------------------------------

def blockFrame (cipher : App.Cipher) (iv : List Byte) (k : Nat) (block : List Byte) : Frame :=
  ⟨.ofList (App.generateDataFrame cipher iv block (BitVec.ofNat 16 k)) fun _ => 0, ⟨0, fun _ => .done, 0⟩⟩

def blockFrames (cipher : App.Cipher) (iv : List Byte) : Nat → List (List Byte) → List Frame
  | _, [] => []
  | k, block :: blocks => blockFrame cipher iv k block :: blockFrames cipher iv (k + 1) blocks

structure Uploading (iv : List Byte) (k : Nat) (d : Dev) : Prop where
  auth : d.isAuthenticated = true
  table : d.crc32Table = initCrc32Table
  idx : d.cryptoIdx ≠ -1
  iv : d.cryptoIv = iv
  seq : d.prePktSeq + 1 = k
  ready : Nor.Ready eraseGroupSize d.flash.bank1 (1024 * k)

section
variable {iv : List Byte} {d : Dev} {block : List Byte}

theorem blockFrame_type (cipher : App.Cipher) (iv : List Byte) (k : Nat) (block : List Byte) :
    frameType (blockFrame cipher iv k block).buffer = Firmware.dataFrame := dataFrame_type _ _ _

theorem uploading_next (lib : GcmLib) (cipher : App.Cipher) (h : Uploading iv k d) (hblock : block.length = 1024) (hk : k ≤ 1023) :
    ∃ d' out, (upgrade lib).turn d (blockFrame cipher iv k block) = ⟨d, blockFrame cipher iv k block, out, d'⟩ ∧
      out.ret = success ∧ Uploading iv (k + 1) d' := by
  have hnum : (BitVec.ofNat 16 k).toNat = k := by rw [BitVec.toNat_ofNat]; omega
  have hcipher := length_take_encrypt cipher hblock App.cryptoKey iv
  have hseq : (frameSeq (blockFrame cipher iv k block).buffer).toNat = k := by
    rw [blockFrame, App.generateDataFrame, dataFrame_seq, hnum]
  have writes : Writes (blockFrame cipher iv k block).env d (blockFrame cipher iv k block).buffer :=
    dataFrame_writes _ (BitVec.ofNat 16 k) hcipher (fun _ => 0) h.auth h.table
      (by rw [hnum]; exact hk) (by rw [hnum]; exact h.seq) h.idx rfl
  obtain ⟨w, p, g, effects, appended, hhandle⟩ := handle_stored lib writes (fun _ => rfl) (by
    rw [hseq]
    exact h.ready)
  rw [hseq] at appended
  refine ⟨_, _, congrArg (fun r : Dev × Out => (⟨d, _, r.2, r.1⟩ : UpgradeTurn)) hhandle, rfl, ?_⟩
  exact ⟨h.auth, h.table, h.idx, h.iv, by rw [hseq]; rfl, appended.ready⟩

theorem uploading_run (lib : GcmLib) (cipher : App.Cipher) (blocks : List (List Byte)) (h : Uploading iv k d)
    (hblocks : ∀ b ∈ blocks, b.length = 1024) (hk : k + blocks.length ≤ 1024) (l : Log) :
    ∃ d', (upgrade lib).run d (blockFrames cipher iv k blocks) = d' ∧ Uploading iv (k + blocks.length) d' ∧
      ((upgrade lib).turns d (blockFrames cipher iv k blocks)).foldl Log.turn l =
        { l with frames := l.frames ++ (blockFrames cipher iv k blocks).map Frame.buffer } := by
  induction blocks generalizing k d l with
  | nil => exact ⟨d, rfl, h, by simp [blockFrames, Machine.turns]⟩
  | cons b blocks ih =>
    rw [List.length_cons] at hk
    obtain ⟨d', out, hturn, hret, hd'⟩ := uploading_next lib cipher h
      (hblocks b List.mem_cons_self) (by omega)
    have hnext : (upgrade lib).next d (blockFrame cipher iv k b) = d' := congrArg Turn.post hturn
    have hlog : l.turn ((upgrade lib).turn d (blockFrame cipher iv k b)) =
        { l with frames := l.frames ++ [(blockFrame cipher iv k b).buffer] } := by
      rw [hturn]
      exact l.turn_data hret (blockFrame_type cipher iv k b)
    obtain ⟨d'', hrun, hup, hturns⟩ := ih hd' (fun x hx => hblocks x (List.mem_cons_of_mem _ hx)) (by omega)
      (l.turn ((upgrade lib).turn d (blockFrame cipher iv k b)))
    refine ⟨d'', ?_, ?_, ?_⟩
    · rw [blockFrames, Machine.run, hnext]
      exact hrun
    · rw [List.length_cons, Nat.add_comm blocks.length, ← Nat.add_assoc]
      exact hup
    · rw [blockFrames, Machine.turns, List.foldl_cons, hnext, hturns, hlog, List.map_cons, List.append_assoc]
      rfl

theorem upload_start (lib : GcmLib) : ∃ d out,
    (upgrade lib).turn (boot 0 blankFlash) (authFrame lib) = ⟨boot 0 blankFlash, authFrame lib, out, d⟩ ∧
      out.ret = success ∧ Uploading sampleIv 0 d := by
  have hlen : sampleIv.length = 16 := rfl
  have hidx : (boot 0 blankFlash).cryptoIdx ≠ -1 := by decide
  obtain ⟨p, g, h⟩ := handle_authenticationFrame lib ⟨0, fun _ => .done, 0⟩ (fun _ => 0) hlen hidx rfl
  have hready : Nor.Ready eraseGroupSize (boot 0 blankFlash).flash.bank1 (1024 * 0) := fun h => absurd rfl h
  refine ⟨_, _, congrArg (fun r : Dev × Out => (⟨_, _, r.2, r.1⟩ : UpgradeTurn)) h, rfl, ?_⟩
  exact { auth := rfl, table := rfl, idx := hidx, iv := rfl, seq := rfl, ready := hready }

theorem upload_run (lib : GcmLib) (cipher : App.Cipher) (blocks : List (List Byte))
    (hblocks : ∀ b ∈ blocks, b.length = 1024) (hcount : blocks.length ≤ 1024) :
    ∃ d, (upgrade lib).run (boot 0 blankFlash) (authFrame lib :: blockFrames cipher sampleIv 0 blocks) = d ∧
      d.isAuthenticated = true ∧
      sessionLog ((upgrade lib).turns (boot 0 blankFlash)
          (authFrame lib :: blockFrames cipher sampleIv 0 blocks)) =
        ⟨sampleIv, (blockFrames cipher sampleIv 0 blocks).map Frame.buffer⟩ := by
  obtain ⟨d₀, out, hturn, hret, hstart⟩ := upload_start lib
  have hnext : (upgrade lib).next (boot 0 blankFlash) (authFrame lib) = d₀ := congrArg Turn.post hturn
  have hlog : Log.turn ⟨[], []⟩ ((upgrade lib).turn (boot 0 blankFlash) (authFrame lib)) = ⟨sampleIv, []⟩ := by
    have htype : frameType (authFrame lib).buffer = authenticatedFrame := authenticationFrame_type _ _ _
    rw [hturn, Log.turn_auth (t := ⟨boot 0 blankFlash, authFrame lib, out, d₀⟩) ⟨[], []⟩ hret htype]
    exact congrArg (Log.mk · []) (authenticationFrame_iv rfl (length_aadTag lib sampleIv))
  obtain ⟨d, hrun, hup, hturns⟩ := uploading_run lib cipher blocks hstart hblocks (by omega) ⟨sampleIv, []⟩
  refine ⟨d, ?_, hup.auth, ?_⟩
  · rw [Machine.run, hnext]
    exact hrun
  · rw [sessionLog, Machine.turns, List.foldl_cons, hlog, hnext]
    exact hturns

end

theorem length_blockFrames (cipher : App.Cipher) (iv : List Byte) (k : Nat) (blocks : List (List Byte)) :
    (blockFrames cipher iv k blocks).length = blocks.length := by
  induction blocks generalizing k with
  | nil => rfl
  | cons b blocks ih => rw [blockFrames, List.length_cons, ih, List.length_cons]

theorem blockFrames_full (cipher : App.Cipher) (iv : List Byte) (k : Nat) (blocks : List (List Byte)) :
    ∀ b ∈ (blockFrames cipher iv k blocks).map Frame.buffer, (frameLen b).toNat = 1024 := by
  induction blocks generalizing k with
  | nil => exact fun b hb => absurd hb List.not_mem_nil
  | cons block blocks ih =>
    intro b hb
    rw [blockFrames, List.map_cons] at hb
    rcases List.mem_cons.mp hb with rfl | hb
    · rw [blockFrame, App.generateDataFrame, dataFrame_len]
      rfl
    · exact ih (k + 1) b hb

theorem blockFrames_image {lib : GcmLib} {cipher : App.Cipher} (undoes : Undoes lib cipher) (iv : List Byte)
    (k : Nat) (blocks : List (List Byte)) (hblocks : ∀ b ∈ blocks, b.length = 1024) :
    logImage lib ⟨iv, (blockFrames cipher iv k blocks).map Frame.buffer⟩ = blocks.flatten := by
  have hmap : ((blockFrames cipher iv k blocks).map Frame.buffer).map (framePlain lib iv) = blocks := by
    induction blocks generalizing k with
    | nil => rfl
    | cons b blocks ih =>
      rw [blockFrames, List.map_cons, List.map_cons, ih (k + 1) fun x hx => hblocks x (List.mem_cons_of_mem _ hx),
        blockFrame, generateDataFrame_plain _ undoes (hblocks b List.mem_cons_self)]
  rw [logImage, hmap]

theorem getCrc_commands {d : Dev} (auth : d.isAuthenticated = true) :
    Commands d (.ofList (App.generateCommandFrame .getCRC) fun _ => 0) :=
  ⟨auth, commandFrame_valid _ _ _, commandFrame_type _ _⟩

/-- An image of a block with CRC-32 0xFFFFFFFF and zeros behind it. -/
def zerosAfter (n : Nat) : List (List Byte) := clashBlock :: List.replicate n (List.replicate 1024 0)

theorem zerosAfter_length (n : Nat) : ∀ b ∈ zerosAfter n, b.length = 1024 := by
  intro b hb
  rcases List.mem_cons.mp hb with rfl | hb
  · rw [clashBlock, List.length_append, List.length_replicate, List.length_replicate]
  · rw [List.eq_of_mem_replicate hb, List.length_replicate]

theorem crc32_zerosAfter (n : Nat) : Crc.crc32 (zerosAfter n).flatten = 0xFFFFFFFF#32 := by
  rw [zerosAfter, List.flatten_cons, List.flatten_replicate_replicate, clashBlock, List.append_assoc,
    List.replicate_append_replicate]
  exact crc32_ones_zeros _

theorem zerosAfter_uploaded {lib : GcmLib} {cipher : App.Cipher} (undoes : Undoes lib cipher) (hn : n < 1024) :
    let frames := authFrame lib :: blockFrames cipher sampleIv 0 (zerosAfter n)
    let l := sessionLog ((upgrade lib).turns (boot 0 blankFlash) frames)
    ((upgrade lib).run (boot 0 blankFlash) frames).isAuthenticated = true ∧ l.frames.length = n + 1 ∧
      (∀ b ∈ l.frames, (frameLen b).toNat = 1024) ∧ Crc.crc32 (logImage lib l) = 0xFFFFFFFF#32 := by
  have hlength : (zerosAfter n).length = n + 1 := by rw [zerosAfter, List.length_cons, List.length_replicate]
  obtain ⟨d, hd, auth, hlog⟩ := upload_run lib cipher (zerosAfter n) (zerosAfter_length n) (by omega)
  intro frames l
  have hl : l = ⟨sampleIv, (blockFrames cipher sampleIv 0 (zerosAfter n)).map Frame.buffer⟩ := hlog
  rw [hl]
  refine ⟨(congrArg Dev.isAuthenticated hd).trans auth, ?_, blockFrames_full _ _ _ _, ?_⟩
  · rw [List.length_map, length_blockFrames, hlength]
  · rw [blockFrames_image undoes _ _ _ (zerosAfter_length n), crc32_zerosAfter]

/-- One block. -/
theorem getCrc_reports_block :
    let frames := authFrame gcmMemory :: blockFrames aesGcmNoPadding sampleIv 0 (zerosAfter 0)
    let l := sessionLog ((upgrade gcmMemory).turns (boot 0 blankFlash) frames)
    let d := (upgrade gcmMemory).run (boot 0 blankFlash) frames
    ((generateAckFrame (handleUpgradePacket gcmMemory ⟨0, fun _ => .done, 0⟩ d
        (.ofList (App.generateCommandFrame .getCRC) fun _ => 0)).2.ack).drop 10).take 4 =
      App.crcBytes (Crc.crc32 (logImage gcmMemory l)) := by
  obtain ⟨auth, hlen, hfull, -⟩ := zerosAfter_uploaded aesGcm_undoes (n := 0) (by decide)
  exact (getCrc_reports gcmMemory 0 blankFlash (authFrame gcmMemory :: blockFrames aesGcmNoPadding sampleIv 0
    (zerosAfter 0)) ⟨0, fun _ => .done, 0⟩ _ (getCrc_commands auth) (commandFrame_cmd _ _) hfull).mpr
    (.inl (by rw [hlen]; decide))

/-- An image that fills the bank is reported as 0. -/
theorem getCrc_full_bank :
    let frames := authFrame gcmMemory :: blockFrames aesGcmNoPadding sampleIv 0 (zerosAfter 1023)
    let l := sessionLog ((upgrade gcmMemory).turns (boot 0 blankFlash) frames)
    let d := (upgrade gcmMemory).run (boot 0 blankFlash) frames
    let buffer := Mem.ofList (App.generateCommandFrame .getCRC) fun _ => 0
    l.frames.length = 1024 ∧ (∀ b ∈ l.frames, (frameLen b).toNat = 1024) ∧ Commands d buffer ∧
      frameCmd buffer = getCrc ∧
      ((generateAckFrame (handleUpgradePacket gcmMemory ⟨0, fun _ => .done, 0⟩ d buffer).2.ack).drop 10).take 4 ≠
        App.crcBytes (Crc.crc32 (logImage gcmMemory l)) := by
  obtain ⟨auth, hlen, hfull, hcrc⟩ := zerosAfter_uploaded aesGcm_undoes (n := 1023) (by decide)
  have hne : App.crcBytes 0 ≠ App.crcBytes 0xFFFFFFFF#32 := by decide
  have hbytes := getCrc_bytes gcmMemory 0 blankFlash (authFrame gcmMemory :: blockFrames aesGcmNoPadding sampleIv 0
    (zerosAfter 1023)) ⟨0, fun _ => .done, 0⟩ _ (getCrc_commands auth) (commandFrame_cmd _ _) hfull
  refine ⟨hlen, hfull, getCrc_commands auth, commandFrame_cmd _ _, ?_⟩
  rw [hbytes, hcrc, if_neg (by rw [hlen]; decide)]
  exact hne

end EthernetOta.System
