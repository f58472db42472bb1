import Mathlib.Data.List.Forall2
import EthernetOta.Firmware.Beside
import EthernetOta.Firmware.FileLen
import EthernetOta.System.FrameCrc

/-!
# Data frames that anyone can change

A data frame carries a CRC and no tag, and GCM xors a key stream into the text. So who can
change frames on their way needs no key to change the image, bit by bit as they like: the
device answers as before, to everything but `GET_CRC`.
-/

namespace EthernetOta.System

open Firmware

-- ---------------------------------------------------------------------------
-- Forging
-- ---------------------------------------------------------------------------

def maskPayload (mask : Nat → Byte) (b : Mem) : Mem := fun i =>
  if pktPayloadPos ≤ i ∧ i < pktPayloadPos + (frameLen b).toNat then b i ^^^ mask (i - pktPayloadPos) else b i

/-- `b` with the CRC that goes with its first `n` bytes. -/
def reseal (n : Nat) (b : Mem) : Mem := fun i =>
  if n ≤ i ∧ i < n + pktCrcLen then (App.crcBytes (Crc.crc32 (b.slice 0 n))).getD (i - n) 0 else b i

def Passing (b : Mem) : Prop :=
  frameType b = dataFrame ∧ isPktValid initCrc32Table dataFrame (frameLen b) b = .ok ()

instance : DecidablePred Passing := fun _ => inferInstanceAs (Decidable (_ ∧ _))

/-- What becomes of a frame on its way: data frames that would pass are changed. -/
def forge (rule : Mem → Nat → Byte) (b : Mem) : Mem :=
  if Passing b then reseal (pktPayloadPos + (frameLen b).toNat) (maskPayload (rule b) b) else b

def forgeFrame (rule : Mem → Nat → Byte) (fr : Frame) : Frame := ⟨forge rule fr.buffer, fr.env⟩

section
variable {rule : Mem → Nat → Byte} {b : Mem}

theorem forge_header (hi : i < pktPayloadPos) : forge rule b i = b i := by
  rw [forge]
  split
  · rw [reseal, if_neg (by omega), maskPayload, if_neg (by omega)]
  · rfl

theorem forge_other (h : frameType b ≠ dataFrame) : forge rule b = b := if_neg fun hb => h hb.1

theorem load16_forge (h : k + 1 < pktPayloadPos) : (forge rule b).load16 k = b.load16 k := by
  rw [Mem.load16, Mem.load16, forge_header (by omega), forge_header (by omega)]

theorem load32_reseal (n : Nat) (m : Mem) : uHtonl ((reseal n m).load32 n) = Crc.crc32 (m.slice 0 n) := by
  have hbyte : ∀ k, k < 4 → reseal n m (n + k) = (App.crcBytes (Crc.crc32 (m.slice 0 n))).getD k 0 := by
    intro k hk
    have hlen : pktCrcLen = 4 := rfl
    rw [reseal, if_pos (by omega), Nat.add_sub_cancel_left]
  have hfirst : reseal n m n = _ := hbyte 0 (by decide)
  rw [Mem.load32, hbyte 3 (by decide), hbyte 2 (by decide), hbyte 1 (by decide), hfirst]
  generalize Crc.crc32 (m.slice 0 n) = crc
  exact (uHtonl_append _ _ _ _).trans (word_bytes crc)

theorem forge_valid (h : Passing b) :
    isPktValid initCrc32Table dataFrame (frameLen b) (forge rule b) = .ok () := by
  have hcrc : pktCrcLen = 4 := rfl
  have hforge : forge rule b = reseal (pktPayloadPos + (frameLen b).toNat) (maskPayload (rule b) b) :=
    if_pos h
  have htail : b (pktPayloadPos + (frameLen b).toNat + pktCrcLen) = packetTail := by
    have hvalid := h.2
    rw [isPktValid_dataFrame] at hvalid
    exact by_contra fun htail => by simp [htail] at hvalid
  have htail' : forge rule b (pktPayloadPos + (frameLen b).toNat + pktCrcLen) = packetTail := by
    rw [hforge, reseal, if_neg (by omega), maskPayload, if_neg (by omega), htail]
  have hslice : (forge rule b).slice 0 (pktPayloadPos + (frameLen b).toNat) =
      (maskPayload (rule b) b).slice 0 (pktPayloadPos + (frameLen b).toNat) := by
    refine Mem.slice_congr fun i _ hi => ?_
    rw [hforge, reseal, if_neg (by omega)]
  rw [isPktValid_dataFrame, if_pos htail', calcCrc_eq, hslice, hforge, load32_reseal]
  exact if_neg fun h => h rfl

/-- What the device goes by is the same, but for the payload. -/
theorem forge_twin (rule : Mem → Nat → Byte) (b : Mem) : Twin initCrc32Table b (forge rule b) := by
  have hlen : frameLen (forge rule b) = frameLen b := by
    rw [frameLen, frameLen, load16_forge (by decide)]
  have hother : ∀ {type}, frameType b = type → type ≠ dataFrame → forge rule b = b := by
    rintro _ rfl h
    exact forge_other h
  constructor
  · rw [frameType, frameType, load16_forge (by decide)]
  · rw [frameSeq, frameSeq, load16_forge (by decide)]
  · exact hlen
  · rw [dataAck, dataAck, load16_forge (by decide), load16_forge (by decide)]
  · by_cases h : Passing b
    · rw [h.1, forge_valid h, h.2]
    · rw [forge, if_neg h]
  · exact fun type => by rw [hother type (by decide)]
  · exact fun type => by rw [hother type (by decide)]
  · exact fun type => by rw [hother type (by decide)]

theorem framePlain_forge (iv : List Byte) (h : Passing b) (hj : j < (framePlain gcmMemory iv b).length)
    (hj' : j < (framePlain gcmMemory iv (forge rule b)).length) :
    (framePlain gcmMemory iv (forge rule b))[j] = (framePlain gcmMemory iv b)[j] ^^^ rule b j := by
  have hlen : j < (frameLen b).toNat := by rwa [length_framePlain] at hj
  have hbyte : forge rule b (pktPayloadPos + j) = b (pktPayloadPos + j) ^^^ rule b j := by
    rw [forge, if_pos h, reseal, if_neg (by omega), maskPayload, if_pos (by omega), Nat.add_sub_cancel_left]
  simp only [framePlain, gcmMemory, Gcm.crypt, List.getElem_mapIdx, Mem.slice_offset, Mem.getElem_slice,
    Nat.add_zero, hbyte]
  rw [BitVec.xor_assoc, BitVec.xor_comm (rule b j), ← BitVec.xor_assoc]

end

-- ---------------------------------------------------------------------------
-- A forged run
-- ---------------------------------------------------------------------------

structure Shadows (rule : Mem → Nat → Byte) (t t' : UpgradeTurn) : Prop where
  input : t'.input = forgeFrame rule t.input
  ret : t'.out.ret = t.out.ret
  effects : t'.out.effects = t.out.effects
  ack : t'.out.ack = t.out.ack ∨ frameType t.input.buffer = commandFrame ∧ frameCmd t.input.buffer = getCrc
  passing : frameType t.input.buffer = dataFrame → t.out.ret = success → Passing t.input.buffer

def forgeLog (rule : Mem → Nat → Byte) (l : Log) : Log := ⟨l.iv, l.frames.map (forge rule)⟩

section
variable {rule : Mem → Nat → Byte} {idx : Int}

theorem forgeLog_turn {l : Log} {t t' : UpgradeTurn} (h : Shadows rule t t') :
    (forgeLog rule l).turn t' = forgeLog rule (l.turn t) := by
  have hbuffer : t'.input.buffer = forge rule t.input.buffer := congrArg Frame.buffer h.input
  have htype := (forge_twin rule t.input.buffer).type
  have hiv := (forge_twin rule t.input.buffer).iv
  rw [Log.turn, Log.turn, h.ret, hbuffer, htype]
  split
  · rfl
  split
  · rw [hiv ‹_›]
    rfl
  split
  · simp [forgeLog]
  · rfl

theorem passing_turn {l : Log} {t : UpgradeTurn} (h : ∀ b ∈ l.frames, Passing b)
    (ht : frameType t.input.buffer = dataFrame → t.out.ret = success → Passing t.input.buffer) :
    ∀ b ∈ (l.turn t).frames, Passing b := by
  rw [Log.turn]
  split
  · exact h
  split
  · exact fun b hb => absurd hb List.not_mem_nil
  split
  · intro b hb
    rcases List.mem_append.mp hb with hb | hb
    · exact h b hb
    · exact List.mem_singleton.mp hb ▸ ht ‹_› (not_not.mp ‹_›)
  · exact h

theorem sessionLog_forged {turns turns' : List UpgradeTurn} (h : List.Forall₂ (Shadows rule) turns turns') :
    sessionLog turns' = forgeLog rule (sessionLog turns) ∧ ∀ b ∈ (sessionLog turns).frames, Passing b := by
  suffices key : ∀ l : Log, (∀ b ∈ l.frames, Passing b) →
      turns'.foldl Log.turn (forgeLog rule l) = forgeLog rule (turns.foldl Log.turn l) ∧
        ∀ b ∈ (turns.foldl Log.turn l).frames, Passing b from
    key ⟨[], []⟩ fun b hb => absurd hb List.not_mem_nil
  induction h with
  | nil => exact fun l hl => ⟨rfl, hl⟩
  | cons ht _ ih =>
    intro l hl
    rw [List.foldl_cons, List.foldl_cons, forgeLog_turn ht]
    exact ih _ (passing_turn hl ht.passing)

theorem valid_of_success {lib : GcmLib} {env : Env} {d : Dev} {r : Dev × Out} (h : Handled lib env d b r)
    (ret : r.2.ret = success) : Valid d b := by
  have hfail : ¬ failure = success := by decide
  cases h with
  | authPass valid => exact valid
  | stored writes => exact writes.valid
  | version command => exact command.valid
  | crc command => exact command.valid
  | exec command => exact command.valid
  | _ => exact absurd ret hfail

theorem shadows_next (hidx : idx ≠ -1) {d e : Dev} (h : Beside d e) (hd : Initialized idx d) (fr : Frame) :
    Shadows rule ((upgrade gcmMemory).turn d fr) ((upgrade gcmMemory).turn e (forgeFrame rule fr)) ∧
      Beside ((upgrade gcmMemory).next d fr) ((upgrade gcmMemory).next e (forgeFrame rule fr)) := by
  have htable : d.crc32Table = initCrc32Table := hd.table.trans (if_neg hidx)
  have htwin : Twin d.crc32Table fr.buffer (forge rule fr.buffer) := htable ▸ forge_twin rule fr.buffer
  have hpassing : frameType fr.buffer = dataFrame → ((upgrade gcmMemory).step d fr).2.ret = success →
      Passing fr.buffer := by
    intro type ret
    have hvalid : Valid d fr.buffer := valid_of_success (handled gcmMemory fr.env d fr.buffer) ret
    rw [Valid, htable, type] at hvalid
    exact ⟨type, hvalid⟩
  have hstep : InStep gcmMemory fr.env d e fr.buffer (forge rule fr.buffer) ((upgrade gcmMemory).step d fr)
      ((upgrade gcmMemory).step e (forgeFrame rule fr)) := handle_inStep h htwin
  rw [Machine.turn, Machine.turn, Machine.next, Machine.next]
  generalize (upgrade gcmMemory).step d fr = r, (upgrade gcmMemory).step e (forgeFrame rule fr) = r' at hstep hpassing ⊢
  cases hstep with
  | same dev out => exact ⟨⟨rfl, congrArg _ out, congrArg _ out, .inl (congrArg _ out), hpassing⟩, dev⟩
  | fresh dev out => exact ⟨⟨rfl, congrArg _ out, congrArg _ out, .inl (congrArg _ out), hpassing⟩, dev⟩
  | stored dev out => exact ⟨⟨rfl, congrArg _ out, congrArg _ out, .inl (congrArg _ out), hpassing⟩, dev⟩
  | crc command cmd => exact ⟨⟨rfl, rfl, rfl, .inr ⟨command.type, cmd⟩, hpassing⟩, h⟩

theorem image_forged {l : Log} {d e : Dev} (image : Image gcmMemory l d) (image' : Image gcmMemory (forgeLog rule l) e)
    (passing : ∀ b ∈ l.frames, Passing b) (h : i < l.frames.length) (hj : j < (frameLen l.frames[i]).toNat) :
    e.flash.bank1 (1024 * i + j) = d.flash.bank1 (1024 * i + j) ^^^ rule l.frames[i] j := by
  have h' : i < (forgeLog rule l).frames.length := by simp [forgeLog, h]
  have hframe : (forgeLog rule l).frames[i] = forge rule l.frames[i] := List.getElem_map _
  have hlen : j < (framePlain gcmMemory l.iv l.frames[i]).length := by rwa [length_framePlain]
  have hlen' : j < (framePlain gcmMemory l.iv (forge rule l.frames[i])).length := by
    rwa [length_framePlain, (forge_twin rule _).len]
  have hdata := (image.stored i h).data j hlen
  have hdata' := (image'.stored i h').data j (hframe ▸ hlen')
  simp only [hframe] at hdata'
  rw [hdata', hdata]
  exact framePlain_forge l.iv (passing _ (List.getElem_mem h)) hlen hlen'

theorem beside_boot (idx : Int) (f : Flash) : Beside (boot idx f) (boot idx f) := by
  have hend : (boot idx f).end = 0 := by
    unfold boot upgradeInit
    by_cases h : idx = -1 <;> simp [h, powerUp, Dev.end]
  have hready : Nor.Ready eraseGroupSize (boot idx f).flash.bank1 (boot idx f).end := hend ▸ ready_zero _
  exact ⟨rfl, rfl, rfl, rfl, rfl, rfl, fun _ => rfl, hready, hready⟩

/-- Forging is noticed by nothing but `GET_CRC`, and what the bank holds of each frame of an
open session is its text with the attacker's mask xored in. -/
theorem forged_run (idx : Int) (f : Flash) (rule : Mem → Nat → Byte) (frames : List Frame) (hidx : idx ≠ -1) :
    let forged := frames.map (forgeFrame rule)
    let d := (upgrade gcmMemory).run (boot idx f) frames
    let e := (upgrade gcmMemory).run (boot idx f) forged
    let l := sessionLog ((upgrade gcmMemory).turns (boot idx f) frames)
    List.Forall₂ (Shadows rule) ((upgrade gcmMemory).turns (boot idx f) frames)
        ((upgrade gcmMemory).turns (boot idx f) forged) ∧
      (e.isAuthenticated = d.isAuthenticated ∧ e.prePktSeq = d.prePktSeq ∧ e.fileLen = d.fileLen) ∧
      (d.isAuthenticated = true → ∀ i (h : i < l.frames.length), ∀ j, j < (frameLen l.frames[i]).toNat →
        e.flash.bank1 (1024 * i + j) = d.flash.bank1 (1024 * i + j) ^^^ rule l.frames[i] j) := by
  intro forged d e l
  have hframes : List.Forall₂ (fun fr fr' => fr' = forgeFrame rule fr) frames forged := by
    rw [List.forall₂_map_right_iff]
    exact List.forall₂_same.mpr fun _ _ => rfl
  obtain ⟨hturns, hrun, -⟩ := Machine.lockstep (m := upgrade gcmMemory) (n := upgrade gcmMemory)
    (R := fun d e => Beside d e ∧ Initialized idx d) (O := Shadows rule)
    (fun d e fr _ h hfr => by
      subst hfr
      obtain ⟨hturn, hnext⟩ : Shadows rule _ _ ∧ Beside _ _ := shadows_next hidx h.1 h.2 fr
      exact ⟨hturn, hnext, (handled gcmMemory fr.env d fr.buffer).initialized h.2⟩)
    ⟨beside_boot idx f, initialized_boot idx f⟩ hframes
  refine ⟨hturns, ⟨hrun.auth, hrun.seq, hrun.len⟩, fun auth i hi j hj => ?_⟩
  obtain ⟨hlog, hpassing⟩ := sessionLog_forged hturns
  have himage := (session_run gcmMemory idx f frames).follows auth
  have himage' := (session_run gcmMemory idx f forged).follows (hrun.auth.trans auth)
  rw [hlog] at himage'
  exact image_forged himage himage' hpassing hi hj

/-- A block with all its bits turned over. -/
theorem forged_run_block :
    let frames : List Frame :=
      [⟨.ofList (App.authenticationFrame sampleIv (aadTag gcmMemory sampleIv)) fun _ => 0, ⟨0, fun _ => .done, 0⟩⟩,
        ⟨.ofList (App.dataFrame (List.replicate 1024 0) 0) fun _ => 0, ⟨0, fun _ => .done, 0⟩⟩]
    List.Forall₂ (Shadows fun _ _ => 0xff) ((upgrade gcmMemory).turns (boot 0 blankFlash) frames)
      ((upgrade gcmMemory).turns (boot 0 blankFlash) (frames.map (forgeFrame fun _ _ => 0xff))) :=
  (forged_run 0 blankFlash (fun _ _ => 0xff) _ (by decide)).1

end

end EthernetOta.System
