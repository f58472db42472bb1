import EthernetOta.System.Wire

/-!
# The CRC of a data frame

The device's table-driven CRC is the standard one, so a frame that was changed
within four bytes of its payload never passes the check.
-/

namespace EthernetOta.System

open Firmware

/-- Over any string, `calc_crc` is the division by the reflected polynomial bit by
bit, from all ones and complemented; and its loop goes on where it stopped. -/
theorem calcCrc_standard :
    (∀ (buf : Mem) (len : Nat), calcCrc initCrc32Table buf len =
      ~~~ Crc.divide 0xEDB88320#32 0xFFFFFFFF#32 (Crc.messageBits (buf.slice 0 len))) ∧
    ∀ (ret : Word) (a b : List Byte), (a ++ b).foldl (crcStep initCrc32Table) ret =
      b.foldl (crcStep initCrc32Table) (a.foldl (crcStep initCrc32Table) ret) := by
  constructor
  · intro buf len
    rw [calcCrc_eq, Crc.crc32, Crc.update_eq_divide _ (by decide)]
  · intro ret a b
    exact List.foldl_append

-- ---------------------------------------------------------------------------
-- Burst errors
-- ---------------------------------------------------------------------------

/-- `m'` is `m` but for at least one byte in a window of at most four bytes of the payload. -/
structure Burst (m m' : Mem) (len : Nat) : Prop where
  burst : ∃ start n, n ≤ 4 ∧ pktPayloadPos ≤ start ∧ start + n ≤ pktPayloadPos + len ∧
    ∀ i, ¬ (start ≤ i ∧ i < start + n) → m' i = m i
  changed : ∃ i, m' i ≠ m i

theorem crc32_top : (0xEDB88320#32).getLsbD (32 - 1) = true := by decide

theorem slice_eq_of_crc32_eq {m m' : Mem} (hn : n ≤ 4) (hend : start + n ≤ len)
    (same : ∀ i, ¬ (start ≤ i ∧ i < start + n) → m' i = m i)
    (h : Crc.crc32 (m'.slice 0 len) = Crc.crc32 (m.slice 0 len)) : m'.slice start n = m.slice start n := by
  obtain ⟨rest, rfl⟩ := Nat.exists_eq_add_of_le hend
  have hbefore : m'.slice 0 start = m.slice 0 start := Mem.slice_congr fun i _ hi => same i (by omega)
  have hafter : m'.slice (start + n) rest = m.slice (start + n) rest :=
    Mem.slice_congr fun i hi _ => same i (by omega)
  have hsplit (x : Mem) : x.slice 0 (start + n + rest) =
      x.slice 0 start ++ x.slice start n ++ x.slice (start + n) rest := by
    rw [Mem.slice_append, Mem.slice_append, Nat.zero_add, Nat.zero_add]
  rw [Crc.crc32, Crc.crc32, hsplit, hsplit, hbefore, hafter] at h
  have hregister := BitVec.not_inj.mp h
  simp only [Crc.update_append] at hregister
  have hwindow := Crc.update_injective crc32_top _ hregister
  exact Crc.update_injective_bytes crc32_top (by simp) (by rw [Mem.length_slice]; omega) hwindow

theorem Burst.header {m m' : Mem} (h : Burst m m' len) (hi : i < pktPayloadPos) : m' i = m i := by
  obtain ⟨start, n, -, hstart, -, same⟩ := h.burst
  exact same i (by omega)

theorem Burst.trailer {m m' : Mem} (h : Burst m m' len) (hi : pktPayloadPos + len ≤ i) : m' i = m i := by
  obtain ⟨start, n, -, -, hend, same⟩ := h.burst
  exact same i (by omega)

theorem Burst.crc {m m' : Mem} (h : Burst m m' len) :
    calcCrc initCrc32Table m' (pktPayloadPos + len) ≠ calcCrc initCrc32Table m (pktPayloadPos + len) := by
  rw [calcCrc_eq, calcCrc_eq]
  intro hcrc
  obtain ⟨start, n, hn, -, hend, same⟩ := h.burst
  obtain ⟨i, hi⟩ := h.changed
  have hin : start ≤ i ∧ i < start + n := by_contra fun hout => hi (same i hout)
  have hslice := slice_eq_of_crc32_eq hn hend same hcrc
  have hbyte : (m'.slice start n)[i - start]? = (m.slice start n)[i - start]? := by rw [hslice]
  rw [List.getElem?_eq_getElem (by rw [Mem.length_slice]; omega),
    List.getElem?_eq_getElem (by rw [Mem.length_slice]; omega), Mem.getElem_slice, Mem.getElem_slice,
    Nat.add_sub_cancel' hin.1] at hbyte
  exact hi (Option.some.inj hbyte)

theorem isPktValid_dataFrame (table : Byte → Word) (len : Half) (m : Mem) :
    isPktValid table Firmware.dataFrame len m = if m (pktPayloadPos + len.toNat + pktCrcLen) = packetTail then
      if uHtonl (m.load32 (pktPayloadPos + len.toNat)) ≠ calcCrc table m (pktPayloadPos + len.toNat) then
        .error (uHtonl dataFrameCrcErr) else .ok ()
    else .error (uHtonl dataFrameInvalid) := rfl

/-- A valid data frame of any length, changed within four bytes of its payload, is refused. -/
theorem burst_refused {m m' : Mem} (type : frameType m = Firmware.dataFrame)
    (valid : isPktValid initCrc32Table (frameType m) (frameLen m) m = .ok ())
    (burst : Burst m m' (frameLen m).toNat) :
    isPktValid initCrc32Table (frameType m') (frameLen m') m' = .error (uHtonl dataFrameCrcErr) := by
  have htype : frameType m' = frameType m := by
    rw [frameType, frameType, Mem.load16, Mem.load16, burst.header (by decide), burst.header (by decide)]
  have hlen : frameLen m' = frameLen m := by
    rw [frameLen, frameLen, Mem.load16, Mem.load16, burst.header (by decide), burst.header (by decide)]
  have hfield : m'.load32 (pktPayloadPos + (frameLen m).toNat) = m.load32 (pktPayloadPos + (frameLen m).toNat) := by
    rw [Mem.load32, Mem.load32, burst.trailer (by omega), burst.trailer (by omega), burst.trailer (by omega),
      burst.trailer (by omega)]
  rw [type, isPktValid_dataFrame] at valid
  split at valid
  case isFalse => exact absurd valid (by simp)
  case isTrue htail =>
  split at valid
  case isTrue => exact absurd valid (by simp)
  case isFalse hcrc =>
  have htail' : m' (pktPayloadPos + (frameLen m).toNat + pktCrcLen) = packetTail :=
    (burst.trailer (by omega)).trans htail
  rw [htype, hlen, type, isPktValid_dataFrame, if_pos htail', hfield, Decidable.not_not.mp hcrc]
  exact if_pos burst.crc.symm

/-- One byte of a full frame of zeros. -/
theorem burst_refused_zeros :
    let m := Mem.ofList (App.dataFrame (List.replicate 1024 0) 0) fun _ => 0
    let m' : Mem := fun i => if i = 14 then m i + 1 else m i
    isPktValid initCrc32Table (frameType m') (frameLen m') m' = .error (uHtonl dataFrameCrcErr) := by
  intro m m'
  have hvalid : Valid (boot 0 ⟨fun _ _ => 0xff, false⟩) m := dataFrame_valid List.length_replicate rfl
  have hlen : frameLen m = 1024 := dataFrame_len _ _ _
  refine burst_refused (dataFrame_type _ _ _) hvalid ?_
  rw [hlen]
  refine ⟨⟨14, 1, by decide, by decide, by decide, fun i hi => if_neg (by omega)⟩, 14, ?_⟩
  have hne : ∀ b : Byte, b + 1 ≠ b := by decide
  exact hne (m 14)

end EthernetOta.System
