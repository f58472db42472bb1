import Mathlib.Data.List.GetD
import EthernetOta.Lib.Ghash

/-!
# Blocks of sixteen bytes

The arrays of `gcm_state`, and the number such an array stands for.
-/

namespace EthernetOta.Tomcrypt

open Gcm (toBlock ofBlock)

abbrev Block := Vector Byte 16

namespace Block

def byte (v : Block) (i : Nat) : Byte := v.toList.getD i 0

-- Comparing two states must not start to compute blocks.
@[irreducible] def make (f : Nat → Byte) : Block := Vector.ofFn fun i => f i

def zero : Block := make fun _ => 0

def xor (a b : Block) : Block := make fun i => a.byte i ^^^ b.byte i

def put (a : Block) (n : Nat) (b : Byte) : Block := make fun i => if i = n then b else a.byte i

/-- The first byte is the highest. -/
def val (v : Block) : BitVec 128 := toBlock v.toList

@[simp] theorem byte_make (f : Nat → Byte) (h : i < 16) : (make f).byte i = f i := by
  simp [byte, make, List.getD_eq_getElem?_getD, h]

@[simp] theorem byte_xor (a b : Block) (h : i < 16) : (xor a b).byte i = a.byte i ^^^ b.byte i := byte_make _ h

theorem byte_put (a : Block) (n : Nat) (b : Byte) (h : i < 16) :
    (a.put n b).byte i = if i = n then b else a.byte i := byte_make _ h

theorem getMsbD_val (v : Block) (h : i < 128) : v.val.getMsbD i = (v.byte (i / 8)).getMsbD (i % 8) :=
  Gcm.getMsbD_toBlock _ h

theorem byteOf_val (v : Block) (h : i < 16) : Gcm.byteOf v.val i = v.byte i := Gcm.byteOf_toBlock _ h

theorem ofBlock_val (v : Block) : ofBlock v.val = v.toList := Gcm.ofBlock_toBlock v.length_toList

theorem val_eq {v : Block} {l : List Byte} (h : ∀ i, i < 16 → v.byte i = l.getD i 0) : v.val = toBlock l :=
  Gcm.toBlock_congr h

theorem val_make (f : Nat → Byte) {l : List Byte} (h : ∀ i, i < 16 → f i = l.getD i 0) : (make f).val = toBlock l :=
  val_eq fun i hi => (byte_make f hi).trans (h i hi)

theorem val_zero : zero.val = 0 := by
  apply BitVec.eq_of_getMsbD_eq
  intro i hi
  rw [getMsbD_val _ hi, zero, byte_make _ (by omega)]
  simp

theorem val_xor (a b : Block) : (xor a b).val = a.val ^^^ b.val :=
  Gcm.toBlock_xor fun _ hi => byte_xor a b hi

theorem val_put_xor (a : Block) (b : Byte) (h : n < 16) :
    (a.put n (a.byte n ^^^ b)).val = a.val ^^^ toBlock (List.replicate n 0 ++ [b]) := by
  refine Gcm.toBlock_xor fun i hi => ?_
  rw [← byte, byte_put _ _ _ hi, ← byte]
  simp only [List.getD_eq_getElem?_getD]
  rcases Nat.lt_trichotomy i n with hlt | rfl | hlt
  · simp [Nat.ne_of_lt hlt, List.getElem?_append_left, hlt]
  · simp
  · rw [if_neg (Nat.ne_of_gt hlt), List.getElem?_eq_none (by simp; omega)]
    simp

end Block

end EthernetOta.Tomcrypt
