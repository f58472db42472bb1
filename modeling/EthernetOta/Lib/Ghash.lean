import EthernetOta.Lib.Crc
import EthernetOta.Lib.Gcm

/-!
# GHASH by bits, by bytes and in pieces

A product in GF(2^128) is a sum of multiples of one factor, and these come out of it as
the register of a CRC is shifted. So the product can be taken byte by byte. The blocks to
hash may come in pieces, byte after byte.
-/

namespace EthernetOta.Gcm

open Crc (bitStep bitSteps bitSteps_add bitSteps_xor)

-- ---------------------------------------------------------------------------
-- Sums of multiples
-- ---------------------------------------------------------------------------

def poly : BitVec 128 := 0xE1#128 <<< 120

/-- The sum of the `x^i v` with `p i`, over the `i` below `n`. -/
def combine (v : BitVec 128) (p : Nat → Bool) : Nat → BitVec 128
  | 0 => 0
  | n + 1 => combine v p n ^^^ if p n then bitSteps poly n v else 0

theorem bitSteps_zero (n : Nat) : bitSteps poly n 0 = 0 := by
  have h := bitSteps_xor poly n 0 0
  rwa [BitVec.xor_self, BitVec.xor_self] at h

theorem combine_congr {p q : Nat → Bool} (h : ∀ i, i < n → p i = q i) : combine v p n = combine v q n := by
  induction n with
  | zero => rfl
  | succ n ih => rw [combine, combine, ih fun i hi => h i (Nat.lt_succ_of_lt hi), h n (Nat.lt_succ_self n)]

theorem combine_false (v : BitVec 128) (n : Nat) : combine v (fun _ => false) n = 0 := by
  induction n with
  | zero => rfl
  | succ n ih => simp [combine, ih]

theorem combine_add (v : BitVec 128) (p : Nat → Bool) (m n : Nat) :
    combine v p (m + n) = combine v p m ^^^ combine (bitSteps poly m v) (fun i => p (m + i)) n := by
  induction n with
  | zero => simp [combine]
  | succ n ih =>
    rw [← Nat.add_assoc, combine, ih, combine, BitVec.xor_assoc, ← bitSteps_add]

theorem bitSteps_combine (v : BitVec 128) (p : Nat → Bool) (m n : Nat) :
    bitSteps poly m (combine v p n) = combine (bitSteps poly m v) p n := by
  induction n with
  | zero => exact bitSteps_zero m
  | succ n ih =>
    rw [combine, combine, bitSteps_xor, ih, ← bitSteps_add, Nat.add_comm, bitSteps_add]
    split
    · rfl
    · rw [bitSteps_zero]

theorem mul_fold (x y : BitVec 128) (n : Nat) :
    (List.range n).foldl (fun (acc : BitVec 128 × BitVec 128) i =>
      (if x.getMsbD i then acc.1 ^^^ acc.2 else acc.1, bitStep poly acc.2)) (0, y) =
      (combine y x.getMsbD n, bitSteps poly n y) := by
  induction n with
  | zero => rfl
  | succ n ih =>
    rw [List.range_succ, List.foldl_append, ih, bitSteps_add]
    simp only [List.foldl_cons, List.foldl_nil, combine]
    split <;> simp [bitSteps]

theorem mul_eq_combine (x y : BitVec 128) : mul x y = combine y x.getMsbD 128 :=
  congrArg Prod.fst (mul_fold x y 128)

theorem zero_mul (y : BitVec 128) : mul 0 y = 0 := by
  refine (mul_eq_combine 0 y).trans ((combine_congr fun i _ => ?_).trans (combine_false y 128))
  exact BitVec.getMsbD_zero

-- ---------------------------------------------------------------------------
-- Byte by byte
-- ---------------------------------------------------------------------------

def mulByte (b : Byte) (y : BitVec 128) : BitVec 128 := combine y b.getMsbD 8

theorem getMsbD_byteOf (x : BitVec 128) (hj : j < 16) (hi : i < 8) : (byteOf x j).getMsbD i = x.getMsbD (8 * j + i) := by
  simp only [byteOf, BitVec.getMsbD_setWidth, BitVec.getMsbD_ushiftRight]
  simp
  grind

theorem mul_eq_bytes (x y : BitVec 128) :
    mul x y = (List.range 16).foldl (fun acc j => acc ^^^ bitSteps poly (8 * j) (mulByte (byteOf x j) y)) 0 := by
  have key : ∀ n, n ≤ 16 → combine y x.getMsbD (8 * n) =
      (List.range n).foldl (fun acc j => acc ^^^ bitSteps poly (8 * j) (mulByte (byteOf x j) y)) 0 := by
    intro n hn
    induction n with
    | zero => rfl
    | succ n ih =>
      rw [Nat.mul_succ, combine_add, ih (by omega), List.range_succ, List.foldl_append]
      have hbyte : combine (bitSteps poly (8 * n) y) (fun i => x.getMsbD (8 * n + i)) 8 =
          bitSteps poly (8 * n) (mulByte (byteOf x n) y) := by
        rw [mulByte, bitSteps_combine]
        exact combine_congr fun i hi => (getMsbD_byteOf x (by omega) hi).symm
      rw [hbyte]
      rfl
  rw [mul_eq_combine]
  exact key 16 (Nat.le_refl _)

theorem bitSteps_eight (v : BitVec 128) :
    bitSteps poly 8 v = Crc.tableEntry poly (v.setWidth 8) ^^^ (v >>> 8) := by
  have h := Crc.byteStep_eq_tableStep poly v 0
  simpa [Crc.byteStep, Crc.tableStep] using h

-- ---------------------------------------------------------------------------
-- Blocks
-- ---------------------------------------------------------------------------

theorem getLsbD_packed (l : List Byte) (n : Nat) (hk : k < 128) :
    ((List.range n).foldl (fun (acc : BitVec 128) i => (acc <<< 8) ||| (l.getD i 0).setWidth 128) 0).getLsbD k =
      (decide (k < 8 * n) && (l.getD (n - 1 - k / 8) 0).getLsbD (k % 8)) := by
  induction n generalizing k with
  | zero => simp
  | succ n ih =>
    rw [List.range_succ, List.foldl_append, List.foldl_cons, List.foldl_nil, BitVec.getLsbD_or,
      BitVec.getLsbD_shiftLeft, BitVec.getLsbD_setWidth]
    by_cases h : k < 8
    · have hdiv : k / 8 = 0 := by omega
      have hmod : k % 8 = k := by omega
      have hlt : k < 8 * (n + 1) := by omega
      simp [h, hdiv, hmod, hlt, hk]
    · rw [ih (by omega), BitVec.getLsbD_of_ge (l.getD n 0) k (by omega)]
      have hdiv : n - k / 8 = n - 1 - (k - 8) / 8 := by omega
      have hmod : k % 8 = (k - 8) % 8 := by omega
      have hlt : k < 8 * (n + 1) ↔ k - 8 < 8 * n := by omega
      simp [h, hk, hdiv, hmod, hlt]

theorem getMsbD_toBlock (l : List Byte) (hi : i < 128) :
    (toBlock l).getMsbD i = (l.getD (i / 8) 0).getMsbD (i % 8) := by
  have hmod : i % 8 < 8 := Nat.mod_lt _ (by decide)
  rw [BitVec.getMsbD_eq_getLsbD, BitVec.getMsbD_eq_getLsbD, toBlock, getLsbD_packed l 16 (by omega)]
  have hdiv : 16 - 1 - (128 - 1 - i) / 8 = i / 8 := by omega
  have hmod' : (128 - 1 - i) % 8 = 8 - 1 - i % 8 := by omega
  have hlt : 128 - 1 - i < 8 * 16 := by omega
  simp [hi, hdiv, hmod', hlt, hmod]

theorem toBlock_congr {l m : List Byte} (h : ∀ i, i < 16 → l.getD i 0 = m.getD i 0) : toBlock l = toBlock m := by
  apply BitVec.eq_of_getMsbD_eq
  intro i hi
  rw [getMsbD_toBlock l hi, getMsbD_toBlock m hi, h _ (by omega)]

theorem toBlock_xor {l m n : List Byte} (h : ∀ i, i < 16 → n.getD i 0 = l.getD i 0 ^^^ m.getD i 0) :
    toBlock n = toBlock l ^^^ toBlock m := by
  apply BitVec.eq_of_getMsbD_eq
  intro i hi
  rw [BitVec.getMsbD_xor, getMsbD_toBlock l hi, getMsbD_toBlock m hi, getMsbD_toBlock n hi, h _ (by omega),
    BitVec.getMsbD_xor]

theorem byteOf_toBlock (l : List Byte) (hj : j < 16) : byteOf (toBlock l) j = l.getD j 0 := by
  apply BitVec.eq_of_getMsbD_eq
  intro i hi
  have hdiv : (8 * j + i) / 8 = j := by omega
  have hmod : (8 * j + i) % 8 = i := by omega
  rw [getMsbD_byteOf _ hj hi, getMsbD_toBlock l (by omega), hdiv, hmod]

theorem ofBlock_toBlock {l : List Byte} (h : l.length = 16) : ofBlock (toBlock l) = l := by
  apply List.ext_getElem
  · simp [ofBlock, h]
  · intro j hj _
    simp only [ofBlock, List.getElem_map, List.getElem_range]
    rw [byteOf_toBlock l (by omega)]
    simp [List.getD_eq_getElem?_getD]
    grind

theorem toBlock_concat (l : List Byte) (b : Byte) :
    toBlock (l ++ [b]) = toBlock l ^^^ toBlock (List.replicate l.length 0 ++ [b]) := by
  refine toBlock_xor fun i _ => ?_
  simp only [List.getD_eq_getElem?_getD]
  rcases Nat.lt_trichotomy i l.length with h | h | h
  · simp [List.getElem?_append_left, h]
  · subst h
    simp
  · have hle : l.length ≤ i := Nat.le_of_lt h
    rw [List.getElem?_append_right hle, List.getElem?_append_right (by rwa [List.length_replicate]),
      List.getElem?_eq_none hle, List.length_replicate]
    exact BitVec.zero_xor.symm

-- ---------------------------------------------------------------------------
-- In pieces
-- ---------------------------------------------------------------------------

@[simp] theorem blocks_nil : blocks [] = [] := rfl

theorem blocks_append {l : List Byte} (h : l.length % 16 = 0) (m : List Byte) :
    blocks (l ++ m) = blocks l ++ blocks m := by
  obtain ⟨k, hk⟩ : ∃ k, l.length = 16 * k := ⟨l.length / 16, by omega⟩
  have hcount : (l.length + m.length + 15) / 16 = k + (m.length + 15) / 16 := by omega
  have hfirst : (l.length + 15) / 16 = k := by omega
  rw [blocks, blocks, blocks, List.length_append, hcount, hfirst, List.range_add, List.map_append, List.map_map]
  have hleft : (List.range k).map (fun i => toBlock (((l ++ m).drop (16 * i)).take 16)) =
      (List.range k).map fun i => toBlock ((l.drop (16 * i)).take 16) := by
    refine List.map_congr_left fun i hi => ?_
    have hik := List.mem_range.mp hi
    rw [List.drop_append_of_le_length (by omega), List.take_append_of_le_length (by rw [List.length_drop]; omega)]
  have hright : ∀ i, (l ++ m).drop (16 * (k + i)) = m.drop (16 * i) := by
    intro i
    rw [Nat.mul_add, ← hk, ← List.drop_drop, List.drop_left]
  simp only [hleft, Function.comp_def, hright]

/-- The last block, which is filled up with zeros. -/
theorem blocks_last {l : List Byte} (h : l ≠ []) (hle : l.length ≤ 16) : blocks l = [toBlock l] := by
  have hpos := List.length_pos_iff.mpr h
  have hcount : (l.length + 15) / 16 = 1 := by omega
  simp [blocks, hcount, List.take_of_length_le hle]

theorem ghash_append (h : BitVec 128) (l m : List (BitVec 128)) :
    ghash h (l ++ m) = m.foldl (fun y b => mul (y ^^^ b) h) (ghash h l) := List.foldl_append

theorem ghash_concat (h : BitVec 128) (l : List (BitVec 128)) (b : BitVec 128) :
    ghash h (l ++ [b]) = mul (ghash h l ^^^ b) h := ghash_append h l [b]

/-- What is hashed of `l` while its last block is not full, behind the blocks `before`: `n`
bytes are added to the hash of the rest, but not yet multiplied. -/
def Hashing (h : BitVec 128) (before : List (BitVec 128)) (l : List Byte) (n : Nat) (x : BitVec 128) : Prop :=
  ∃ whole last, l = whole ++ last ∧ whole.length % 16 = 0 ∧ last.length = n ∧ n ≤ 16 ∧
    x = ghash h (before ++ blocks whole) ^^^ toBlock last

section
variable {h : BitVec 128} {before : List (BitVec 128)} {l : List Byte} {x : BitVec 128}

theorem Hashing.start (h : BitVec 128) (before : List (BitVec 128)) : Hashing h before [] 0 (ghash h before) := by
  refine ⟨[], [], rfl, rfl, rfl, Nat.zero_le _, ?_⟩
  rw [blocks_nil, List.append_nil]
  exact BitVec.xor_zero.symm

theorem Hashing.byte (hx : Hashing h before l n x) (hn : n < 16) (b : Byte) :
    Hashing h before (l ++ [b]) (n + 1) (x ^^^ toBlock (List.replicate n 0 ++ [b])) := by
  obtain ⟨whole, last, rfl, hwhole, rfl, -, rfl⟩ := hx
  refine ⟨whole, last ++ [b], List.append_assoc .., hwhole, List.length_append, hn, ?_⟩
  rw [toBlock_concat last, BitVec.xor_assoc]

/-- Multiplying completes what is there, be it a whole block or less. -/
theorem Hashing.complete (hx : Hashing h before l n x) (hn : n ≠ 0) : mul x h = ghash h (before ++ blocks l) := by
  obtain ⟨whole, last, rfl, hwhole, rfl, hle, rfl⟩ := hx
  have hlast : last ≠ [] := fun hnil => hn (hnil ▸ rfl)
  rw [blocks_append hwhole, blocks_last hlast hle, ← List.append_assoc, ghash_concat]

theorem Hashing.completed (hx : Hashing h before l 0 x) : x = ghash h (before ++ blocks l) := by
  obtain ⟨whole, last, rfl, hwhole, hlast, -, rfl⟩ := hx
  rw [List.eq_nil_of_length_eq_zero hlast, List.append_nil]
  exact BitVec.xor_zero

theorem Hashing.whole (hx : Hashing h before l 16 x) : Hashing h before l 0 (mul x h) := by
  refine ⟨l, [], (List.append_nil l).symm, ?_, rfl, Nat.zero_le _, ?_⟩
  · obtain ⟨whole, last, rfl, hwhole, hlast, -⟩ := hx
    rw [List.length_append]
    omega
  · rw [hx.complete (by decide)]
    exact BitVec.xor_zero.symm

theorem Hashing.length (hx : Hashing h before l n x) : n ≤ 16 ∧ n ≤ l.length ∧ (l.length - n) % 16 = 0 := by
  obtain ⟨whole, last, rfl, hwhole, rfl, hle, -⟩ := hx
  rw [List.length_append]
  omega

end

-- ---------------------------------------------------------------------------
-- Text in pieces
-- ---------------------------------------------------------------------------

section
variable (cipher : List Byte → List Byte)

def cryptFrom (iv : List Byte) (n : Nat) (input : List Byte) : List Byte :=
  input.mapIdx fun i b => b ^^^ keyStream cipher iv (n + i)

theorem cryptFrom_zero (iv input : List Byte) : cryptFrom cipher iv 0 input = crypt cipher iv input := by
  simp [cryptFrom, crypt]

theorem cryptFrom_cons (iv : List Byte) (n : Nat) (b : Byte) (input : List Byte) :
    cryptFrom cipher iv n (b :: input) = (b ^^^ keyStream cipher iv n) :: cryptFrom cipher iv (n + 1) input := by
  simp [cryptFrom, List.mapIdx_cons, Nat.add_assoc, Nat.add_comm 1]

end

-- ---------------------------------------------------------------------------
-- Additional data
-- ---------------------------------------------------------------------------

def lengths (aad ciphertext : List Byte) : BitVec 128 :=
  BitVec.ofNat 64 (8 * aad.length) ++ BitVec.ofNat 64 (8 * ciphertext.length)

def tagWith (cipher : List Byte → List Byte) (iv aad ciphertext : List Byte) : List Byte :=
  ofBlock (ghash (encryptBlock cipher 0) (blocks aad ++ blocks ciphertext ++ [lengths aad ciphertext]) ^^^
    encryptBlock cipher (j0 cipher iv))

theorem tagWith_nil {cipher : List Byte → List Byte} {ciphertext : List Byte} (hlen : ciphertext.length < 2 ^ 61)
    (iv : List Byte) : tagWith cipher iv [] ciphertext = tag cipher iv ciphertext := by
  have hlengths : lengths [] ciphertext = BitVec.ofNat 128 (8 * ciphertext.length) := by
    apply BitVec.eq_of_toNat_eq
    rw [lengths, BitVec.toNat_append, BitVec.toNat_ofNat, BitVec.toNat_ofNat, BitVec.toNat_ofNat]
    simp
    omega
  rw [tagWith, hlengths]
  rfl

end EthernetOta.Gcm
