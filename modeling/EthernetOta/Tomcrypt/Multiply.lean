import Mathlib.Data.List.Basic
import EthernetOta.Tomcrypt.Gcm

/-!
# Multiplication in GCM

`gcm_gf_mult` multiplies bit by bit; `gcm_mult_h` looks up a product for each byte, in
tables that `gcm_init` makes out of one another. Both are the product of the standard.
-/

namespace EthernetOta.Tomcrypt

open Gcm (toBlock ofBlock)
open Crc (bitStep bitSteps)

theorem Block.val_inj {a b : Block} (h : a.val = b.val) : a = b := by
  have hbytes : a.toList = b.toList := by rw [← Block.ofBlock_val, ← Block.ofBlock_val, h]
  exact Vector.toList_inj.mp hbytes

-- ---------------------------------------------------------------------------
-- Bit by bit
-- ---------------------------------------------------------------------------

theorem getMsbD_ushiftRight_one (x : BitVec w) (hi : i < w) :
    (x >>> 1).getMsbD i = if i = 0 then false else x.getMsbD (i - 1) := by
  cases i with
  | zero => simp
  | succ i => simp [hi]

theorem getMsbD_rightshift (a b : Byte) (hi : i < 8) :
    ((b >>> 1) ||| ((a <<< 7) &&& 0x80)).getMsbD i = if i = 0 then a.getMsbD 7 else b.getMsbD (i - 1) := by
  have htop : ∀ i, i < 8 → (0x80 : Byte).getMsbD i = decide (i = 0) := by decide
  rw [BitVec.getMsbD_or, BitVec.getMsbD_and, getMsbD_ushiftRight_one b hi, htop i hi, BitVec.getMsbD_shiftLeft]
  cases i with
  | zero => simp
  | succ i => simp

theorem gcmRightshift_val (a : Block) : (gcmRightshift a).val = a.val >>> 1 := by
  apply BitVec.eq_of_getMsbD_eq
  intro i hi
  have hbyte : i / 8 < 16 := by omega
  have hbit : i % 8 < 8 := Nat.mod_lt _ (by decide)
  rw [Block.getMsbD_val _ hi, gcmRightshift, Block.byte_make _ hbyte, getMsbD_ushiftRight_one _ hi]
  by_cases hfirst : i / 8 = 0
  · have hmod : i % 8 = i := by omega
    have hdiv : (i - 1) / 8 = 0 := by omega
    have hmod' : (i - 1) % 8 = i - 1 := by omega
    rw [if_pos hfirst, getMsbD_ushiftRight_one _ hbit, hmod, Block.getMsbD_val a (by omega), hdiv, hmod']
  · rw [if_neg hfirst, getMsbD_rightshift _ _ hbit, if_neg fun h : i = 0 => hfirst (by rw [h]),
      Block.getMsbD_val a (by omega)]
    by_cases hcarry : i % 8 = 0
    · have hdiv : (i - 1) / 8 = i / 8 - 1 := by omega
      have hmod : (i - 1) % 8 = 7 := by omega
      rw [if_pos hcarry, hdiv, hmod]
    · have hdiv : (i - 1) / 8 = i / 8 := by omega
      have hmod : (i - 1) % 8 = i % 8 - 1 := by omega
      rw [if_neg hcarry, hdiv, hmod]

theorem mask_getMsbD (b : Byte) (hi : i < 8) : (b &&& mask.getD i 0 ≠ 0) ↔ b.getMsbD i = true := by
  have key : ∀ b : Byte, ∀ i : Fin 8, (b &&& mask.getD i 0 ≠ 0) ↔ b.getMsbD i = true := by decide +kernel
  exact key b ⟨i, hi⟩

theorem bit_iff (b : Block) (hi : i < 128) :
    (b.byte (i >>> 3) &&& mask.getD (i &&& 7) 0 ≠ 0) ↔ b.val.getMsbD i = true := by
  have hdiv : i >>> 3 = i / 8 := Nat.shiftRight_eq_div_pow i 3
  have hmod : i &&& 7 = i % 8 := Nat.and_two_pow_sub_one_eq_mod i 3
  rw [hdiv, hmod, Block.getMsbD_val b hi]
  exact mask_getMsbD _ (Nat.mod_lt _ (by decide))

theorem getLsbD_val_zero (v : Block) : v.val.getLsbD 0 = (v.byte 15).getLsbD 0 := by
  have h := Block.getMsbD_val v (i := 127) (by decide)
  simpa [BitVec.getMsbD_eq_getLsbD] using h

theorem gcmGfMultTurn_V (b : Block) (acc : Block × Block) (i : Nat) :
    (gcmGfMultTurn b acc i).2.val = bitStep Gcm.poly acc.2.val := by
  have hbits : ∀ b : Byte, toBlock [poly.getD (b &&& 1).toNat 0] = if b.getLsbD 0 then Gcm.poly else 0 := by
    decide +kernel
  have h := Block.val_put_xor (gcmRightshift acc.2) (poly.getD (acc.2.byte 15 &&& 1).toNat 0) (n := 0) (by decide)
  rw [gcmRightshift_val, List.replicate_zero, List.nil_append, hbits, ← getLsbD_val_zero] at h
  refine h.trans ?_
  rw [bitStep]
  split
  · rfl
  · exact BitVec.xor_zero

theorem gcmGfMultTurn_Z (b : Block) (acc : Block × Block) (hi : i < 128) :
    (gcmGfMultTurn b acc i).1.val = if b.val.getMsbD i then acc.1.val ^^^ acc.2.val else acc.1.val := by
  simp only [gcmGfMultTurn, bit_iff b hi]
  split
  · exact Block.val_xor _ _
  · rfl

theorem gcmGfMult_fold (a b : Block) (hn : n ≤ 128) :
    (((List.range n).foldl (gcmGfMultTurn b) (.zero, a)).1.val,
      ((List.range n).foldl (gcmGfMultTurn b) (.zero, a)).2.val) =
      (Gcm.combine a.val b.val.getMsbD n, bitSteps Gcm.poly n a.val) := by
  induction n with
  | zero => exact congrArg (·, a.val) Block.val_zero
  | succ n ih =>
    obtain ⟨hZ, hV⟩ := Prod.mk.inj (ih (Nat.le_of_succ_le hn))
    rw [List.range_succ, List.foldl_append, List.foldl_cons, List.foldl_nil, gcmGfMultTurn_V,
      gcmGfMultTurn_Z b _ hn, hZ, hV, Crc.bitSteps_add, Gcm.combine]
    split <;> simp [bitSteps]

theorem gcmGfMult_val (a b : Block) : (gcmGfMult a b).val = Gcm.mul b.val a.val := by
  rw [Gcm.mul_eq_combine]
  exact congrArg Prod.fst (gcmGfMult_fold a b (Nat.le_refl 128))

-- ---------------------------------------------------------------------------
-- Byte by byte
-- ---------------------------------------------------------------------------

theorem val_first (y : Byte) : (Block.zero.put 0 y).val = toBlock [y] := by
  refine Block.val_make _ fun i hi => ?_
  cases i with
  | zero => rfl
  | succ i => simp [Block.zero, hi]

theorem mul_first (y : Byte) (h : BitVec 128) : Gcm.mul (toBlock [y]) h = Gcm.mulByte y h := by
  have hbit : ∀ i, i < 128 → (toBlock [y]).getMsbD i = (decide (i < 8) && y.getMsbD i) := by
    intro i hi
    rw [Gcm.getMsbD_toBlock _ hi]
    by_cases hlt : i < 8
    · have hdiv : i / 8 = 0 := by omega
      have hmod : i % 8 = i := by omega
      simp [hlt, hdiv, hmod]
    · obtain ⟨k, hk⟩ : ∃ k, i / 8 = k + 1 := ⟨i / 8 - 1, by omega⟩
      simp [hlt, hk]
  have hrest : Gcm.combine (bitSteps Gcm.poly 8 h) (fun i => (toBlock [y]).getMsbD (8 + i)) 120 = 0 := by
    refine (Gcm.combine_congr fun i hi => ?_).trans (Gcm.combine_false _ 120)
    rw [hbit _ (by omega)]
    simp
  rw [Gcm.mul_eq_combine, Gcm.mulByte]
  refine (Gcm.combine_add h (toBlock [y]).getMsbD 8 120).trans ?_
  rw [hrest]
  refine BitVec.xor_zero.trans (Gcm.combine_congr fun i hi => ?_)
  simp [hbit i (by omega), hi]

theorem getD_pairs (f g : Nat → Byte) (n : Nat) (ht : t < n) :
    ((List.range n).flatMap fun t => [f t, g t]).getD (2 * t) 0 = f t ∧
      ((List.range n).flatMap fun t => [f t, g t]).getD (2 * t + 1) 0 = g t := by
  induction n with
  | zero => cases ht
  | succ n ih =>
    have hlength : ((List.range n).flatMap fun t => [f t, g t]).length = 2 * n := by
      simp [List.length_flatMap]
      omega
    rw [List.range_succ, List.flatMap_append]
    rcases Nat.lt_or_eq_of_le (Nat.le_of_lt_succ ht) with hlt | rfl
    · rw [List.getD_append _ _ _ _ (by omega), List.getD_append _ _ _ _ (by omega)]
      exact ih hlt
    · rw [List.getD_append_right _ _ _ _ (by omega), List.getD_append_right _ _ _ _ (by omega), hlength,
        Nat.sub_self, Nat.add_sub_cancel_left]
      exact ⟨rfl, rfl⟩

/-- The table of shifts is a table of a CRC. -/
theorem gcmShiftTable_eq (t : Byte) :
    toBlock [gcmShiftTable.getD (t.toNat <<< 1) 0, gcmShiftTable.getD ((t.toNat <<< 1) + 1) 0] =
      Crc.tableEntry Gcm.poly t := by
  let entry (t : Nat) := Crc.tableEntry Gcm.poly (BitVec.ofNat 8 t)
  have htable : gcmShiftTable = (List.range 256).flatMap fun t => [Gcm.byteOf (entry t) 0, Gcm.byteOf (entry t) 1] := by
    decide +kernel
  have hentry : ∀ t : Byte, toBlock [Gcm.byteOf (Crc.tableEntry Gcm.poly t) 0, Gcm.byteOf (Crc.tableEntry Gcm.poly t) 1] =
      Crc.tableEntry Gcm.poly t := by
    decide +kernel
  have hshift : t.toNat <<< 1 = 2 * t.toNat := by rw [Nat.shiftLeft_eq, Nat.mul_comm]
  obtain ⟨h0, h1⟩ := getD_pairs (fun t => Gcm.byteOf (entry t) 0) (fun t => Gcm.byteOf (entry t) 1) 256 t.isLt
  rw [← hentry t, htable, hshift, h0, h1]
  simp [entry]

theorem toBlock_cons_zero (l : List Byte) : toBlock (0 :: l) = toBlock l >>> 8 := by
  apply BitVec.eq_of_getMsbD_eq
  intro i hi
  rw [Gcm.getMsbD_toBlock _ hi, BitVec.getMsbD_ushiftRight]
  by_cases hlt : i < 8
  · have hdiv : i / 8 = 0 := by omega
    simp [hdiv, hlt]
  · have hdiv : i / 8 = (i - 8) / 8 + 1 := by omega
    have hmod : (i - 8) % 8 = i % 8 := by omega
    simp [hdiv, hlt, hi, Gcm.getMsbD_toBlock l (show i - 8 < 128 by omega), hmod]

theorem setWidth_val (v : Block) : v.val.setWidth 8 = v.byte 15 := by
  have h := Block.byteOf_val v (i := 15) (by decide)
  simpa [Gcm.byteOf] using h

/-- Entry `y` of table `x` is the product of byte `y` in place `x`. -/
theorem gcmTable_val (H : Block) (x : Nat) (y : Byte) :
    (gcmTable H x y).val = bitSteps Gcm.poly (8 * x) (Gcm.mulByte y H.val) := by
  induction x with
  | zero =>
    rw [gcmTable, gcmGfMult_val, val_first, mul_first, Nat.mul_zero, bitSteps]
  | succ x ih =>
    have hshift : (gcmTable H x y).val >>> 8 = toBlock (0 :: (gcmTable H x y).toList) := (toBlock_cons_zero _).symm
    rw [Nat.mul_succ, Crc.bitSteps_add, ← ih, Gcm.bitSteps_eight, setWidth_val, ← gcmShiftTable_eq, hshift]
    refine Gcm.toBlock_xor fun z hz => ?_
    rw [← Block.byte, gcmTable, Block.byte_make _ hz]
    rcases z with - | - | z
    · simp
    · refine (BitVec.xor_comm _ _).trans ?_
      simp [Block.byte]
    · simp [Block.byte]

theorem foldl_xor_val (f : Nat → Block) (l : List Nat) (T : Block) :
    (l.foldl (fun T x => T.xor (f x)) T).val = l.foldl (fun acc x => acc ^^^ (f x).val) T.val := by
  induction l generalizing T with
  | nil => rfl
  | cons x l ih => rw [List.foldl_cons, ih, Block.val_xor, List.foldl_cons]

theorem gcmMultH_val (H I : Block) : (gcmMultH (gcmTable H) I).val = Gcm.mul I.val H.val := by
  have hfirst : List.range 16 = 0 :: List.range' 1 15 := rfl
  have hbyte : ∀ acc, ∀ x ∈ List.range 16,
      acc ^^^ bitSteps Gcm.poly (8 * x) (Gcm.mulByte (Gcm.byteOf I.val x) H.val) =
        acc ^^^ (gcmTable H x (I.byte x)).val := by
    intro acc x hx
    rw [gcmTable_val, Block.byteOf_val I (List.mem_range.mp hx)]
  rw [Gcm.mul_eq_bytes, List.foldl_ext _ _ _ hbyte, hfirst, List.foldl_cons,
    show ∀ v : BitVec 128, 0 ^^^ v = v from fun _ => BitVec.zero_xor, gcmMultH]
  exact foldl_xor_val (fun x => gcmTable H x (I.byte x)) _ _

/-- The tables give what the multiplication bit by bit does, and that is the product in
GF(2^128). -/
theorem gcmMultH_gfMult (H I : Block) :
    gcmMultH (gcmTable H) I = gcmGfMult H I ∧ (gcmMultH (gcmTable H) I).val = Gcm.mul I.val H.val :=
  ⟨Block.val_inj ((gcmMultH_val H I).trans (gcmGfMult_val H I).symm), gcmMultH_val H I⟩

end EthernetOta.Tomcrypt
