import EthernetOta.Tomcrypt.Multiply

/-!
# The counter and the lengths

What the loops over single bytes do to the counter of GCM, and the block that the two
lengths make up.
-/

namespace EthernetOta.Tomcrypt

open Gcm (toBlock)
open Aes (word)

-- ---------------------------------------------------------------------------
-- Words of a block
-- ---------------------------------------------------------------------------

def Block.low (v : Block) : Word := word (v.byte 12) (v.byte 13) (v.byte 14) (v.byte 15)

theorem byte_word_val (v : Block) (h : j < 4) : Aes.byte (v.val.setWidth 32) j = v.byte (15 - j) := by
  rw [← Block.byteOf_val v (show 15 - j < 16 by omega)]
  apply BitVec.eq_of_getLsbD_eq
  intro i hi
  have hlt : 8 * j + i < 32 := by omega
  have hstart : 120 - 8 * (15 - j) = 8 * j := by omega
  simp [Aes.byte, Gcm.byteOf, hi, hlt, hstart]

theorem Block.setWidth_val (v : Block) : v.val.setWidth 32 = v.low := by
  rw [← Aes.word_byte (v.val.setWidth 32), byte_word_val v (by decide), byte_word_val v (by decide),
    byte_word_val v (by decide), byte_word_val v (by decide)]
  rfl

theorem Block.extractLsb'_val {v w : Block} (h : ∀ i, i < 12 → v.byte i = w.byte i) :
    v.val.extractLsb' 32 96 = w.val.extractLsb' 32 96 := by
  apply BitVec.eq_of_getMsbD_eq
  intro i hi
  have hmsb : ∀ x : BitVec 128, (x.extractLsb' 32 96).getMsbD i = x.getMsbD i := by
    intro x
    have hsum : 32 + (96 - 1 - i) = 128 - 1 - i := by omega
    have hlt : i < 128 := by omega
    simp [BitVec.getMsbD_eq_getLsbD, hi, hsum, hlt]
    omega
  rw [hmsb, hmsb, Block.getMsbD_val v (by omega), Block.getMsbD_val w (by omega), h _ (by omega)]

theorem append_parts (x : BitVec 128) : x.extractLsb' 32 96 ++ x.setWidth 32 = x := by
  apply BitVec.eq_of_getLsbD_eq
  intro i hi
  rw [BitVec.getLsbD_append]
  by_cases h : i < 32
  · simp [h]
  · have hlt : i - 32 < 96 := by omega
    have hsum : 32 + (i - 32) = i := by omega
    simp [h, hlt, hsum]

theorem toNat_word (b0 b1 b2 b3 : Byte) :
    (word b0 b1 b2 b3).toNat = b0.toNat * 2 ^ 24 + b1.toNat * 2 ^ 16 + b2.toNat * 2 ^ 8 + b3.toNat := by
  have hshift (a b n : Nat) (hb : b < 2 ^ n) : a <<< n ||| b = a * 2 ^ n + b := by
    rw [← Nat.shiftLeft_add_eq_or_of_lt hb, Nat.shiftLeft_eq]
  have h1 := b1.isLt
  have h3 := b3.isLt
  rw [word, BitVec.toNat_append, hshift _ _ _ (b2 ++ b3).isLt, BitVec.toNat_append, BitVec.toNat_append,
    hshift _ _ _ h1, hshift _ _ _ h3]
  omega

-- ---------------------------------------------------------------------------
-- The counter
-- ---------------------------------------------------------------------------

theorem byte_incrementCounter (l : List Nat) (Y : Block) (hi : i < 16) (h : i ∉ l) :
    (incrementCounter Y l).byte i = Y.byte i := by
  induction l generalizing Y with
  | nil => rfl
  | cons y l ih =>
    obtain ⟨hy, hl⟩ := not_or.mp (mt List.mem_cons.mpr h)
    have hput : (Y.put y (Y.byte y + 1)).byte i = Y.byte i := by rw [Block.byte_put _ _ _ hi, if_neg hy]
    simp only [incrementCounter]
    split
    · exact hput
    · rw [ih _ hl, hput]

theorem incrementCounter_low (Y : Block) : (incrementCounter Y [15, 14, 13, 12]).low = Y.low + 1 := by
  have hadd (b : Byte) : (b + 1#8).toNat = (b.toNat + 1) % 256 := BitVec.toNat_add b 1
  have hzero (b : Byte) : b + 1#8 = 0#8 ↔ b.toNat = 255 := by
    have hlt := b.isLt
    rw [← BitVec.toNat_inj, hadd, BitVec.toNat_ofNat]
    omega
  have h12 := (Y.byte 12).isLt
  have h13 := (Y.byte 13).isLt
  have h14 := (Y.byte 14).isLt
  have h15 := (Y.byte 15).isLt
  have hput (Z : Block) (n i : Nat) (b : Byte) (hi : i < 16) : (Z.put n b).byte i = if i = n then b else Z.byte i :=
    Block.byte_put Z n b hi
  apply BitVec.eq_of_toNat_eq
  rw [BitVec.toNat_add]
  -- the carry goes through as many bytes as are all ones
  by_cases c15 : (Y.byte 15).toNat = 255
  · by_cases c14 : (Y.byte 14).toNat = 255
    · by_cases c13 : (Y.byte 13).toNat = 255
      · simp [incrementCounter, hput, hzero, hadd, c15, c14, c13, Block.low, toNat_word]
        omega
      · simp [incrementCounter, hput, hzero, hadd, c15, c14, c13, Block.low, toNat_word]
        omega
    · simp [incrementCounter, hput, hzero, hadd, c15, c14, Block.low, toNat_word]
      omega
  · simp [incrementCounter, hput, hzero, hadd, c15, Block.low, toNat_word]
    omega

theorem incrementCounter_val (Y : Block) :
    (incrementCounter Y [15, 14, 13, 12]).val = Y.val.extractLsb' 32 96 ++ (Y.val.setWidth 32 + 1) := by
  have hhigh : (incrementCounter Y [15, 14, 13, 12]).val.extractLsb' 32 96 = Y.val.extractLsb' 32 96 := by
    refine Block.extractLsb'_val fun i hi => byte_incrementCounter _ Y (by omega) ?_
    simp
    omega
  rw [← append_parts (incrementCounter Y [15, 14, 13, 12]).val, hhigh, Block.setWidth_val, Block.setWidth_val,
    incrementCounter_low]

theorem incrementCounter_j0 {Y : Block} {y : BitVec 128} (h : Y.val = y) :
    (incrementCounter Y [15, 14, 13, 12]).val = Gcm.counter y 0 := by
  rw [incrementCounter_val, h]
  rfl

theorem incrementCounter_counter {Y : Block} {y : BitVec 128} (h : Y.val = Gcm.counter y k) :
    (incrementCounter Y [15, 14, 13, 12]).val = Gcm.counter y (k + 1) := by
  have hlow : (Gcm.counter y k).setWidth 32 + 1 = y.setWidth 32 + BitVec.ofNat 32 (k + 1 + 1) := by
    rw [Gcm.counter, BitVec.setWidth_append_eq_right, BitVec.add_assoc, BitVec.ofNat_add (k + 1) 1]
    rfl
  rw [incrementCounter_val, h, hlow]
  rw [Gcm.counter, Gcm.counter, BitVec.extractLsb'_append_eq_left]

-- ---------------------------------------------------------------------------
-- The lengths
-- ---------------------------------------------------------------------------

theorem getMsbD_store64H (x : BitVec 64) (hj : j < 8) (hi : i < 8) : (store64H x j).getMsbD i = x.getMsbD (8 * j + i) := by
  simp only [store64H, BitVec.getMsbD_setWidth, BitVec.getMsbD_ushiftRight]
  simp
  grind

theorem val_lengths (a b : BitVec 64) :
    (Block.make fun x => if x < 8 then store64H a x else store64H b (x - 8)).val = a ++ b := by
  apply BitVec.eq_of_getMsbD_eq
  intro i hi
  rw [Block.getMsbD_val _ hi, Block.byte_make _ (by omega), BitVec.getMsbD_append]
  have hmod : i % 8 < 8 := Nat.mod_lt _ (by decide)
  by_cases h : i < 64
  · have hdiv : i / 8 < 8 := by omega
    have hsum : 8 * (i / 8) + i % 8 = i := by omega
    rw [if_pos hdiv, getMsbD_store64H a hdiv hmod, hsum]
    simp [h]
  · have hdiv : ¬ i / 8 < 8 := by omega
    have hsum : 8 * (i / 8 - 8) + i % 8 = i - 64 := by omega
    rw [if_neg hdiv, getMsbD_store64H b (by omega) hmod, hsum]
    simp [h]

end EthernetOta.Tomcrypt
