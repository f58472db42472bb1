import Mathlib.Algebra.Order.Ring.Nat
import Mathlib.Data.List.Basic

/-!
# Reflected CRCs, bit by bit and by table

`update` divides bit by bit, least significant bit first, as the standards
write it. A table indexed by a byte does eight of those steps at once:
`byteStep_eq_tableStep` is the identity behind every table-driven CRC. It holds
because a step is linear in the register and only shifts a register whose low
bit is clear. When the polynomial has its top bit, a step loses nothing: two
strings that differ within one register's width never share a CRC.
-/

namespace EthernetOta.Crc

variable {w : Nat} (poly : BitVec w)

/-- One step of the division: shift out a bit, and subtract the polynomial if it was set. -/
def bitStep (r : BitVec w) : BitVec w := if r.getLsbD 0 then (r >>> 1) ^^^ poly else r >>> 1

def bitSteps : Nat → BitVec w → BitVec w
  | 0, r => r
  | n + 1, r => bitSteps n (bitStep poly r)

def byteStep (r : BitVec w) (b : BitVec 8) : BitVec w := bitSteps poly 8 (r ^^^ b.setWidth w)

def update (r : BitVec w) (bytes : List (BitVec 8)) : BitVec w := bytes.foldl (byteStep poly) r

def tableEntry (i : BitVec 8) : BitVec w := bitSteps poly 8 (i.setWidth w)

def tableStep (table : BitVec 8 → BitVec w) (r : BitVec w) (b : BitVec 8) : BitVec w :=
  table (r.setWidth 8 ^^^ b) ^^^ (r >>> 8)

theorem bitStep_xor (x y : BitVec w) : bitStep poly (x ^^^ y) = bitStep poly x ^^^ bitStep poly y := by
  simp only [bitStep, BitVec.getLsbD_xor, BitVec.ushiftRight_xor_distrib]
  cases x.getLsbD 0 <;> cases y.getLsbD 0 <;> ext i <;> simp <;> grind

theorem bitSteps_xor (n : Nat) (x y : BitVec w) :
    bitSteps poly n (x ^^^ y) = bitSteps poly n x ^^^ bitSteps poly n y := by
  induction n generalizing x y with
  | zero => rfl
  | succ n ih => simp only [bitSteps, bitStep_xor, ih]

theorem bitSteps_of_low_clear (n : Nat) (x : BitVec w) (h : ∀ i, i < n → x.getLsbD i = false) :
    bitSteps poly n x = x >>> n := by
  induction n generalizing x with
  | zero => simp [bitSteps]
  | succ n ih =>
    have hx : bitStep poly x = x >>> 1 := by simp [bitStep, h 0 (by omega)]
    rw [bitSteps, hx, ih (x >>> 1) (by intro i hi; simpa using h (1 + i) (by omega)),
      ← BitVec.shiftRight_add, Nat.add_comm]

theorem register_split (r : BitVec w) (b : BitVec 8) :
    r ^^^ b.setWidth w = (r.setWidth 8 ^^^ b).setWidth w ^^^ ((r >>> 8) <<< 8) := by
  ext i hi
  by_cases h : i < 8 <;> simp [h, hi]; grind

theorem byteStep_eq_tableStep (r : BitVec w) (b : BitVec 8) :
    byteStep poly r b = tableStep (tableEntry poly) r b := by
  have hhigh : bitSteps poly 8 ((r >>> 8) <<< 8) = r >>> 8 := by
    rw [bitSteps_of_low_clear poly 8 _ (by intro i hi; simp [hi])]
    ext i hi
    simp
    grind
  rw [byteStep, register_split, bitSteps_xor, hhigh]
  rfl

/-- Byte by byte through the table, or bit by bit: the same register. -/
theorem foldl_tableStep (bytes : List (BitVec 8)) (r : BitVec w) :
    bytes.foldl (tableStep (tableEntry poly)) r = update poly r bytes := by
  simp only [update, funext₂ (byteStep_eq_tableStep poly)]

theorem update_append (r : BitVec w) (a b : List (BitVec 8)) :
    update poly r (a ++ b) = update poly (update poly r a) b := List.foldl_append

-- ---------------------------------------------------------------------------
-- Bit by bit
-- ---------------------------------------------------------------------------

/-- One step of the division by `poly`, with the next bit of the message. -/
def divideBit (r : BitVec w) (b : Bool) : BitVec w :=
  if r.getLsbD 0 ^^ b then (r >>> 1) ^^^ poly else r >>> 1

def divide (r : BitVec w) (bits : List Bool) : BitVec w := bits.foldl (divideBit poly) r

def lowBits : Nat → BitVec w → List Bool
  | 0, _ => []
  | n + 1, x => x.getLsbD 0 :: lowBits n (x >>> 1)

/-- The bits of a string, as a reflected CRC takes them. -/
def messageBits (bytes : List (BitVec 8)) : List Bool := bytes.flatMap (lowBits 8)

theorem bitSteps_eq_divide (n : Nat) (r x : BitVec w) (h : ∀ i, n ≤ i → x.getLsbD i = false) :
    bitSteps poly n (r ^^^ x) = divide poly r (lowBits n x) := by
  induction n generalizing r x with
  | zero =>
    have hx : x = 0 := BitVec.eq_of_getLsbD_eq fun i _ => (h i (Nat.zero_le i)).trans BitVec.getLsbD_zero.symm
    rw [hx]
    exact BitVec.xor_zero
  | succ n ih =>
    have hstep : bitStep poly (r ^^^ x) = divideBit poly r (x.getLsbD 0) ^^^ (x >>> 1) := by
      simp only [bitStep, divideBit, BitVec.getLsbD_xor, BitVec.ushiftRight_xor_distrib]
      cases r.getLsbD 0 ^^ x.getLsbD 0 with
      | false => rfl
      | true => exact (BitVec.xor_assoc _ _ _).trans ((congrArg _ (BitVec.xor_comm _ _)).trans
          (BitVec.xor_assoc _ _ _).symm)
    rw [bitSteps, hstep, ih _ _ (by intro i hi; simpa using h (1 + i) (by omega))]
    rfl

theorem lowBits_eq (n : Nat) (x : BitVec w) : lowBits n x = (List.range n).map x.getLsbD := by
  induction n generalizing x with
  | zero => rfl
  | succ n ih =>
    rw [lowBits, ih, List.range_succ_eq_map, List.map_cons, List.map_map]
    simp [Function.comp_def, Nat.add_comm]

theorem lowBits_setWidth (hw : 8 ≤ w) (b : BitVec 8) : lowBits 8 (b.setWidth w) = lowBits 8 b := by
  rw [lowBits_eq, lowBits_eq]
  refine List.map_congr_left fun i hi => ?_
  have hlt : i < w := Nat.lt_of_lt_of_le (List.mem_range.mp hi) hw
  simp [hlt]

theorem update_eq_divide (hw : 8 ≤ w) (r : BitVec w) (bytes : List (BitVec 8)) :
    update poly r bytes = divide poly r (messageBits bytes) := by
  induction bytes generalizing r with
  | nil => rfl
  | cons b bytes ih =>
    have hbyte : byteStep poly r b = divide poly r (lowBits 8 b) := by
      rw [byteStep, bitSteps_eq_divide, lowBits_setWidth hw]
      intro i hi
      rw [BitVec.getLsbD_setWidth, BitVec.getLsbD_of_ge b i hi, Bool.and_false]
    have hsplit : messageBits (b :: bytes) = lowBits 8 b ++ messageBits bytes := rfl
    rw [hsplit, divide, List.foldl_append, ← divide, ← divide, ← hbyte, ← ih]
    rfl

-- ---------------------------------------------------------------------------
-- Differences
-- ---------------------------------------------------------------------------

def pack : List (BitVec 8) → BitVec w
  | [] => 0
  | b :: bytes => b.setWidth w ^^^ (pack bytes <<< 8)

theorem pack_high (bytes : List (BitVec 8)) (h : 8 * bytes.length ≤ i) :
    (pack bytes : BitVec w).getLsbD i = false := by
  induction bytes generalizing i with
  | nil => exact BitVec.getLsbD_zero
  | cons b bytes ih =>
    rw [List.length_cons] at h
    have hrest := ih (i := i - 8) (by omega)
    rw [pack, BitVec.getLsbD_xor, BitVec.getLsbD_setWidth, BitVec.getLsbD_of_ge b i (by omega),
      BitVec.getLsbD_shiftLeft, hrest]
    simp

theorem pack_shiftLeft (bytes : List (BitVec 8)) (h : 8 * (bytes.length + 1) ≤ w) :
    (pack bytes <<< 8 : BitVec w) >>> 8 = pack bytes := by
  apply BitVec.eq_of_getLsbD_eq
  intro i hi
  rw [BitVec.getLsbD_ushiftRight, BitVec.getLsbD_shiftLeft, Nat.add_sub_cancel_left]
  by_cases hlt : 8 + i < w
  · simp [hlt]
  · rw [pack_high bytes (by omega), Bool.and_false]

theorem bitSteps_add (m n : Nat) (x : BitVec w) : bitSteps poly (m + n) x = bitSteps poly n (bitSteps poly m x) := by
  induction m generalizing x with
  | zero => rw [Nat.zero_add, bitSteps]
  | succ m ih => rw [Nat.succ_add, bitSteps, ih, bitSteps]

theorem update_eq_pack (r : BitVec w) (bytes : List (BitVec 8)) (h : 8 * bytes.length ≤ w) :
    update poly r bytes = bitSteps poly (8 * bytes.length) (r ^^^ pack bytes) := by
  induction bytes generalizing r with
  | nil => exact BitVec.xor_zero.symm
  | cons b bytes ih =>
    rw [List.length_cons] at h
    have hlow : bitSteps poly 8 (pack bytes <<< 8) = pack bytes := by
      rw [bitSteps_of_low_clear poly 8 _ (by intro i hi; simp [hi]), pack_shiftLeft bytes h]
    have hbyte : bitSteps poly 8 (r ^^^ pack (b :: bytes)) = byteStep poly r b ^^^ pack bytes := by
      rw [pack, ← BitVec.xor_assoc, bitSteps_xor, hlow, byteStep]
    have hcount : 8 * (b :: bytes).length = 8 + 8 * bytes.length := by rw [List.length_cons]; omega
    rw [hcount, bitSteps_add poly, hbyte]
    exact ih _ (by omega)

theorem pack_injective {a b : List (BitVec 8)} (hlen : a.length = b.length) (hw : 8 * a.length ≤ w)
    (h : (pack a : BitVec w) = pack b) : a = b := by
  induction a generalizing b with
  | nil => exact (List.length_eq_zero_iff.mp hlen.symm).symm
  | cons x a ih =>
    cases b with
    | nil => exact absurd hlen (Nat.succ_ne_zero _)
    | cons y b =>
      rw [List.length_cons, List.length_cons] at hlen
      rw [List.length_cons] at hw
      have hbit (i : Nat) (hi : i < 8) : x.getLsbD i = y.getLsbD i := by
        have hlt : i < w := by omega
        have hi' := congrArg (BitVec.getLsbD · i) h
        simpa [pack, hi, hlt] using hi'
      have hhead : x = y := BitVec.eq_of_getLsbD_eq hbit
      have htail : (pack a <<< 8 : BitVec w) = pack b <<< 8 := by
        rw [pack, pack, hhead] at h
        exact (BitVec.xor_right_inj _).mp h
      have hpack : (pack a : BitVec w) = pack b := by
        rw [← pack_shiftLeft a hw, htail, pack_shiftLeft b (by omega)]
      rw [hhead, ih (by omega) (by omega) hpack]

section
variable {poly} (top : poly.getLsbD (w - 1) = true)
include top

theorem bitStep_eq_zero (h : bitStep poly x = 0) : x = 0 := by
  cases hlow : x.getLsbD 0 with
  | true =>
    rw [bitStep, if_pos hlow] at h
    have hpoly : x >>> 1 = poly := BitVec.xor_eq_zero_iff.mp h
    -- nothing is shifted into the top bit
    rw [← hpoly, BitVec.getLsbD_ushiftRight, BitVec.getLsbD_of_ge x _ (by omega)] at top
    exact (Bool.false_ne_true top).elim
  | false =>
    rw [bitStep, if_neg (by simp [hlow])] at h
    apply BitVec.eq_of_getLsbD_eq
    intro i _
    cases i with
    | zero => exact hlow.trans BitVec.getLsbD_zero.symm
    | succ i =>
      have hi := congrArg (BitVec.getLsbD · i) h
      simpa [Nat.add_comm] using hi

theorem bitSteps_eq_zero (n : Nat) (h : bitSteps poly n x = 0) : x = 0 := by
  induction n generalizing x with
  | zero => exact h
  | succ n ih => exact bitStep_eq_zero top (ih h)

theorem bitSteps_injective (n : Nat) (h : bitSteps poly n x = bitSteps poly n y) : x = y := by
  have hzero : bitSteps poly n (x ^^^ y) = 0 := by rw [bitSteps_xor, h, BitVec.xor_self]; rfl
  exact BitVec.xor_eq_zero_iff.mp (bitSteps_eq_zero top n hzero)

theorem update_injective (bytes : List (BitVec 8)) (h : update poly r bytes = update poly r' bytes) : r = r' := by
  induction bytes generalizing r r' with
  | nil => exact h
  | cons b bytes ih => exact (BitVec.xor_left_inj _).mp (bitSteps_injective top 8 (ih h))

/-- Two strings within one register's width. -/
theorem update_injective_bytes {a b : List (BitVec 8)} (hlen : a.length = b.length) (hw : 8 * a.length ≤ w)
    (h : update poly r a = update poly r b) : a = b := by
  rw [update_eq_pack poly r a hw, update_eq_pack poly r b (hlen ▸ hw), hlen] at h
  exact pack_injective hlen hw ((BitVec.xor_right_inj _).mp (bitSteps_injective top _ h))

end

/-- The standard CRC-32: reflected polynomial, all ones in, complemented out. -/
def crc32 (bytes : List (BitVec 8)) : BitVec 32 := ~~~ update 0xEDB88320#32 0xFFFFFFFF#32 bytes

end EthernetOta.Crc
