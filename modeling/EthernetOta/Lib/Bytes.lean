import Mathlib.Algebra.Order.Ring.Nat
import Mathlib.Data.List.Basic

/-!
# Bytes in memory

Machine integers are bit vectors. `Mem` is the memory from a pointer on, so a
read past the end of an object gives whatever lies there; multi-byte loads are
those of a little-endian core.
-/

namespace EthernetOta

abbrev Byte := BitVec 8
abbrev Half := BitVec 16
abbrev Word := BitVec 32

/-- Memory from a pointer on. -/
abbrev Mem := Nat → Byte

namespace Mem

def offset (m : Mem) (n : Nat) : Mem := fun i => m (n + i)

def slice (m : Mem) (start len : Nat) : List Byte := (List.range len).map fun i => m (start + i)

def load16 (m : Mem) (i : Nat) : Half := m (i + 1) ++ m i

def load32 (m : Mem) (i : Nat) : Word := (m (i + 3) ++ m (i + 2)) ++ (m (i + 1) ++ m i)

def ofList (l : List Byte) (rest : Mem) : Mem := fun i => l[i]?.getD (rest i)

@[simp] theorem length_slice (m : Mem) (start len : Nat) : (m.slice start len).length = len := by
  simp [slice]

@[simp] theorem getElem_slice (m : Mem) (start len i : Nat) (h : i < (m.slice start len).length) :
    (m.slice start len)[i] = m (start + i) := by
  simp [slice]

@[simp] theorem offset_apply (m : Mem) (n i : Nat) : m.offset n i = m (n + i) := rfl

@[simp] theorem slice_offset (m : Mem) (n start len : Nat) :
    (m.offset n).slice start len = m.slice (n + start) len := by
  simp [slice, Nat.add_assoc]

theorem ofList_lt {l : List Byte} {rest : Mem} (h : i < l.length) : ofList l rest i = l[i] := by
  simp [ofList, h]

theorem take_slice (m : Mem) (start : Nat) (h : n ≤ len) : (m.slice start len).take n = m.slice start n := by
  rw [slice, slice, ← List.map_take, List.take_range, Nat.min_eq_left h]

theorem slice_congr {m n : Mem} (h : ∀ i, start ≤ i → i < start + len → m i = n i) :
    m.slice start len = n.slice start len := by
  apply List.map_congr_left
  intro i hi
  exact h _ (by omega) (by have := List.mem_range.mp hi; omega)

theorem slice_ofList {l : List Byte} {rest : Mem} (h : start + len ≤ l.length) :
    (ofList l rest).slice start len = (l.drop start).take len := by
  apply List.ext_getElem
  · simp; omega
  · intro i hi _
    have hi : i < len := by simpa using hi
    simp [ofList_lt (show start + i < l.length by omega)]

theorem ofList_append_right (a b : List Byte) (rest : Mem) (i : Nat) :
    ofList (a ++ b) rest (a.length + i) = ofList b (rest.offset a.length) i := by
  simp [ofList, List.getElem?_append_right]

theorem slice_append (m : Mem) (start a b : Nat) :
    m.slice start (a + b) = m.slice start a ++ m.slice (start + a) b := by
  simp [slice, List.range_add, Function.comp_def, Nat.add_assoc]

theorem slice_flatten {m : Mem} {blocks : List (List Byte)}
    (h : ∀ i (hi : i < blocks.length), m.slice (start + n * i) n = blocks[i]) :
    m.slice start (n * blocks.length) = blocks.flatten := by
  induction blocks generalizing start with
  | nil => rfl
  | cons b blocks ih =>
    have hfirst : m.slice start n = b := h 0 (Nat.succ_pos _)
    have hrest : m.slice (start + n) (n * blocks.length) = blocks.flatten := by
      refine ih fun i hi => ?_
      have hblock := h (i + 1) (Nat.succ_lt_succ hi)
      rwa [Nat.mul_succ, Nat.add_comm (n * i), ← Nat.add_assoc] at hblock
    rw [List.length_cons, Nat.mul_succ, Nat.add_comm, slice_append, hfirst, hrest, List.flatten_cons]

end Mem

/-- The bytes of a word in memory order, least significant first. -/
def Word.bytes (w : Word) : List Byte :=
  [w.extractLsb' 0 8, w.extractLsb' 8 8, w.extractLsb' 16 8, w.extractLsb' 24 8]

def Half.bytes (h : Half) : List Byte := [h.extractLsb' 0 8, h.extractLsb' 8 8]

end EthernetOta
