import EthernetOta.Lib.Bytes

/-!
# Computations that say what they read

A `Scan` computes from the memory behind a pointer and records the offset of
every byte it reads. `Below n` bounds them; it is decided piece by piece, since
what a computation reads next depends only on the values it has read. In proofs
the lemmas about `bind` and `ite` come before those about single reads: the
condition of an `ite` must still be the one its instance was found for.
-/

namespace EthernetOta

/-- The result, and the offsets read, in order. -/
def Scan (α : Type) := Mem → α × List Nat

namespace Scan

variable {α β : Type}

def value (s : Scan α) (m : Mem) : α := (s m).1

def reads (s : Scan α) (m : Mem) : List Nat := (s m).2

instance : Monad Scan where
  pure a := fun _ => (a, [])
  bind s f := fun m => ((f (s.value m)).value m, s.reads m ++ (f (s.value m)).reads m)

def byte (i : Nat) : Scan Byte := fun m => (m i, [i])

def load16 (i : Nat) : Scan Half := do
  let lo ← byte i
  let hi ← byte (i + 1)
  return hi ++ lo

def load32 (i : Nat) : Scan Word := do
  let lo ← load16 i
  let hi ← load16 (i + 2)
  return hi ++ lo

def slice (start len : Nat) : Scan (List Byte) := fun m =>
  (m.slice start len, (List.range len).map fun i => start + i)

def compare (start : Nat) : List Byte → Scan Bool
  | [] => return true
  | b :: l => do
    let c ← byte start
    if c = b then compare (start + 1) l else return false

-- ---------------------------------------------------------------------------
-- Values
-- ---------------------------------------------------------------------------

@[simp] theorem value_pure (a : α) (m : Mem) : (pure a : Scan α).value m = a := rfl

@[simp] theorem value_bind (s : Scan α) (f : α → Scan β) (m : Mem) :
    (s >>= f).value m = (f (s.value m)).value m := rfl

@[simp] theorem value_byte (i : Nat) (m : Mem) : (byte i).value m = m i := rfl

@[simp] theorem value_load16 (i : Nat) (m : Mem) : (load16 i).value m = m.load16 i := rfl

@[simp] theorem value_load32 (i : Nat) (m : Mem) : (load32 i).value m = m.load32 i := rfl

@[simp] theorem value_slice (start len : Nat) (m : Mem) :
    (slice start len).value m = m.slice start len := rfl

@[simp] theorem value_ite (c : Prop) {_ : Decidable c} (s t : Scan α) (m : Mem) :
    (if c then s else t).value m = if c then s.value m else t.value m := by
  split <;> rfl

@[simp] theorem value_compare (start : Nat) (l : List Byte) (m : Mem) :
    (compare start l).value m = decide (m.slice start l.length = l) := by
  induction l generalizing start with
  | nil => rfl
  | cons b l ih =>
    have hslice : m.slice start (l.length + 1) = m start :: m.slice (start + 1) l.length := by
      rw [Nat.add_comm l.length, Mem.slice_append]
      rfl
    simp only [compare, value_bind, value_ite, value_pure, ih]
    simp only [value_byte, List.length_cons, hslice, List.cons.injEq]
    by_cases h : m start = b <;> simp [h]

-- ---------------------------------------------------------------------------
-- Bounds
-- ---------------------------------------------------------------------------

def Below (n : Nat) (s : Scan α) (m : Mem) : Prop := ∀ i ∈ s.reads m, i < n

@[simp] theorem below_pure (a : α) : Below n (pure a : Scan α) m := fun _ h => nomatch h

@[simp] theorem below_bind {s : Scan α} {f : α → Scan β} :
    Below n (s >>= f) m ↔ Below n s m ∧ Below n (f (s.value m)) m := by
  constructor
  · exact fun h => ⟨fun i hi => h i (List.mem_append_left _ hi), fun i hi => h i (List.mem_append_right _ hi)⟩
  · rintro ⟨hs, hf⟩ i hi
    rcases List.mem_append.mp hi with hi | hi
    · exact hs i hi
    · exact hf i hi

@[simp] theorem below_byte : Below n (byte i) m ↔ i < n := by
  simp [Below, reads, byte]

@[simp] theorem below_load16 : Below n (load16 i) m ↔ i + 1 < n := by
  simp only [load16, below_bind, below_byte, below_pure, and_true]
  omega

@[simp] theorem below_load32 : Below n (load32 i) m ↔ i + 3 < n := by
  simp only [load32, below_bind, below_load16, below_pure, and_true]
  omega

theorem below_slice (h : start + len ≤ n) : Below n (slice start len) m := by
  intro i hi
  obtain ⟨j, hj, rfl⟩ := List.mem_map.mp hi
  have := List.mem_range.mp hj
  omega

@[simp] theorem below_ite (c : Prop) {_ : Decidable c} {s t : Scan α} :
    Below n (if c then s else t) m ↔ (c → Below n s m) ∧ (¬ c → Below n t m) := by
  by_cases h : c <;> simp [h]

/-- A comparison reads below `n` when all of it is below `n`, or a difference is. -/
theorem below_compare {l : List Byte} : Below n (compare start l) m ↔
    start + l.length ≤ n ∨ l = [] ∨ ∃ k, ∃ h : k < l.length, start + k < n ∧ m (start + k) ≠ l[k] := by
  induction l generalizing start with
  | nil => simp [compare]
  | cons b l ih =>
    simp only [compare, below_bind, below_ite, below_pure, implies_true, and_true, ih]
    simp only [below_byte, value_byte]
    constructor
    · rintro ⟨hlt, hrest⟩
      by_cases hb : m start = b
      · rcases hrest hb with h | rfl | ⟨k, hk, h⟩
        · exact .inl (by simp only [List.length_cons]; omega)
        · exact .inl (by simp only [List.length_singleton]; omega)
        · refine .inr (.inr ⟨k + 1, Nat.succ_lt_succ hk, ?_⟩)
          rw [Nat.add_assoc, Nat.add_comm 1 k] at h
          exact h
      · exact .inr (.inr ⟨0, Nat.succ_pos _, hlt, hb⟩)
    · rintro (h | h | ⟨k, hk, h, hne⟩)
      · simp only [List.length_cons] at h
        exact ⟨by omega, fun _ => .inl (by omega)⟩
      · exact nomatch h
      · refine ⟨by omega, fun hb => ?_⟩
        cases k with
        | zero => exact absurd hb hne
        | succ k =>
          refine .inr (.inr ⟨k, Nat.lt_of_succ_lt_succ hk, ?_⟩)
          rw [Nat.add_assoc, Nat.add_comm 1 k]
          exact ⟨h, hne⟩

end Scan

end EthernetOta
