import Mathlib.Algebra.Order.Ring.Nat
import Mathlib.Data.List.Basic

/-!
# NOR flash arrays

Erasing sets a range of cells to all ones; programming can only clear bits, so
it ands the new contents into the old. Programming blank cells writes exactly
the data, and neither operation touches a cell outside its range. Records appended one after
the other, each group of cells erased when the first of its records comes, read
back as they were written.
-/

namespace EthernetOta.Nor

variable {w a lo g : Nat}

abbrev Cells (w : Nat) := Nat → BitVec w

/-- `c` with the `n` cells from `lo` taken from `v`. -/
def fill (lo n : Nat) (v c : Cells w) : Cells w := fun a => if lo ≤ a ∧ a < lo + n then v a else c a

def erase (lo n : Nat) (c : Cells w) : Cells w := fill lo n (fun _ => BitVec.allOnes w) c

def program (lo n : Nat) (data : Nat → BitVec w) (c : Cells w) : Cells w :=
  fill lo n (fun a => c a &&& data (a - lo)) c

def Blank (c : Cells w) (lo hi : Nat) : Prop := ∀ a, lo ≤ a → a < hi → c a = BitVec.allOnes w

theorem fill_out {v c : Cells w} (h : a < lo ∨ lo + n ≤ a) : fill lo n v c a = c a := by
  simp only [fill, ite_eq_right_iff, and_imp]
  omega

theorem fill_in {v c : Cells w} (h1 : lo ≤ a) (h2 : a < lo + n) : fill lo n v c a = v a := by
  simp [fill, h1, h2]

theorem erase_out {c : Cells w} (h : a < lo ∨ lo + n ≤ a) : erase lo n c a = c a := fill_out h

theorem erase_blank (c : Cells w) : Blank (erase lo n c) lo (lo + n) :=
  fun _ h1 h2 => fill_in h1 h2

theorem program_out {c : Cells w} (h : a < lo ∨ lo + n ≤ a) : program lo n data c a = c a :=
  fill_out h

/-- Programming two ranges one after the other is programming both. -/
theorem program_append (c : Cells w) (data : Nat → BitVec w) :
    program (lo + n) m (fun i => data (n + i)) (program lo n data c) = program lo (n + m) data c := by
  funext a
  by_cases h1 : a < lo ∨ lo + n + m ≤ a
  · rw [program_out (by omega), program_out (by omega), program_out (by omega)]
  by_cases h2 : a < lo + n
  · rw [program_out (by omega), program, program, fill_in (by omega) (by omega),
      fill_in (by omega) (by omega)]
  · rw [program, fill_in (by omega) (by omega), program_out (by omega), program,
      fill_in (by omega) (by omega), show n + (a - (lo + n)) = a - lo by omega]

-- ---------------------------------------------------------------------------
-- Appending
-- ---------------------------------------------------------------------------

/-- Write `n` cells from `lo`, after erasing the group of `g` that starts there. -/
def append (g lo n : Nat) (data : Nat → BitVec w) (c : Cells w) : Cells w :=
  program lo n data (if lo % g = 0 then erase lo g c else c)

/-- What is left of the group that `lo` lies inside is erased. -/
def Ready (g : Nat) (c : Cells w) (lo : Nat) : Prop :=
  lo % g ≠ 0 → ∀ a, lo ≤ a → a / g = lo / g → c a = BitVec.allOnes w

theorem lt_of_div_eq (hg : 0 < g) (h : a / g = lo / g) : a < lo / g * g + g := by
  have ha := Nat.div_add_mod a g
  have hmod := Nat.mod_lt a hg
  rw [h, Nat.mul_comm] at ha
  omega

theorem div_eq_of_lt (h1 : lo ≤ a) (h2 : a < lo / g * g + g) : a / g = lo / g := by
  have hlo := Nat.div_add_mod lo g
  rw [Nat.mul_comm] at hlo
  refine Nat.div_eq_of_lt_le (by omega) ?_
  rw [Nat.succ_mul]
  exact h2

theorem append_below {c : Cells w} (h : a < lo) : append g lo n data c a = c a := by
  rw [append, program_out (.inl h)]
  split
  · exact erase_out (.inl h)
  · rfl

theorem ready_blank {c : Cells w} (hc : Ready g c lo) (hg : 0 < g) (h1 : lo ≤ a)
    (h2 : a / g = lo / g) : (if lo % g = 0 then erase lo g c else c) a = BitVec.allOnes w := by
  have hlt := lt_of_div_eq hg h2
  have hlo := Nat.div_add_mod lo g
  rw [Nat.mul_comm] at hlo
  split
  · exact erase_blank c a h1 (by omega)
  · exact hc ‹_› a h1 h2

theorem append_data {c : Cells w} (hc : Ready g c lo) (hg : 0 < g) (hroom : lo % g + n ≤ g)
    (hj : j < n) : append g lo n data c (lo + j) = data j := by
  have hlo := Nat.div_add_mod lo g
  rw [Nat.mul_comm] at hlo
  have hdiv : (lo + j) / g = lo / g := div_eq_of_lt (by omega) (by omega)
  rw [append, program, fill_in (by omega) (by omega), ready_blank hc hg (by omega) hdiv,
    BitVec.allOnes_and, Nat.add_sub_cancel_left]

theorem append_rest {c : Cells w} (hc : Ready g c lo) (hg : 0 < g) (h1 : lo + n ≤ a) (h2 : a / g = lo / g) :
    append g lo n data c a = BitVec.allOnes w := by
  rw [append, program_out (.inr h1)]
  exact ready_blank hc hg (by omega) h2

/-- After `n` cells are written the rest is still erased, also when the next
record leaves some of it out. -/
theorem append_ready {c : Cells w} (hc : Ready g c lo) (hg : 0 < g) (hroom : lo % g + m ≤ g)
    (hn : n ≤ m) : Ready g (append g lo n data c) (lo + m) := by
  intro hne a h1 h2
  have hlo := Nat.div_add_mod lo g
  have hend : lo % g + m ≠ g := by
    intro he
    have : lo + m = g * (lo / g + 1) := by
      rw [Nat.mul_succ]
      omega
    exact hne (by rw [this, Nat.mul_mod_right])
  rw [Nat.mul_comm] at hlo
  have hdiv : (lo + m) / g = lo / g := div_eq_of_lt (by omega) (by omega)
  exact append_rest hc hg (by omega) (h2.trans hdiv)

end EthernetOta.Nor
