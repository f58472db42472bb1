import Mathlib.Algebra.Order.Ring.Nat
import Mathlib.Data.List.Basic
import Mathlib.Data.List.Induction

/-!
# Deterministic machines and their runs

A machine takes an input in a state to the next state and what can be seen
from outside. A run is a list of inputs; each of its turns records the state
before, the input, the output and the state after. The rules below are the
inductions a development needs once: an invariant of every state, a relation
between the turns so far and the state they led to, a flag that stands for
"such a turn, and none of those since", and the two runs that differ in inputs
the rest cannot see.
-/

namespace EthernetOta

universe u v w

/-- One turn of a run, with the states on both sides of it. -/
structure Turn (σ : Type u) (ι : Type v) (ω : Type w) where
  pre : σ
  input : ι
  out : ω
  post : σ

structure Machine (σ : Type u) (ι : Type v) (ω : Type w) where
  step : σ → ι → σ × ω

namespace Machine

def next (m : Machine σ ι ω) (s : σ) (i : ι) : σ := (m.step s i).1

def turn (m : Machine σ ι ω) (s : σ) (i : ι) : Turn σ ι ω := ⟨s, i, (m.step s i).2, m.next s i⟩

def run (m : Machine σ ι ω) : σ → List ι → σ
  | s, [] => s
  | s, i :: is => m.run (m.next s i) is

def turns (m : Machine σ ι ω) : σ → List ι → List (Turn σ ι ω)
  | _, [] => []
  | s, i :: is => m.turn s i :: m.turns (m.next s i) is

def Meets (m : Machine σ ι ω) (cond : σ → ι → Prop) : σ → List ι → Prop
  | _, [] => True
  | s, i :: is => cond s i ∧ m.Meets cond (m.next s i) is

variable {σ : Type u} {ι : Type v} {ω : Type w} (m : Machine σ ι ω)

@[simp] theorem turn_pre (s : σ) (i : ι) : (m.turn s i).pre = s := rfl
@[simp] theorem turn_input (s : σ) (i : ι) : (m.turn s i).input = i := rfl
@[simp] theorem turn_post (s : σ) (i : ι) : (m.turn s i).post = m.next s i := rfl

theorem run_append (s : σ) (is js : List ι) : m.run s (is ++ js) = m.run (m.run s is) js := by
  induction is generalizing s with
  | nil => rfl
  | cons i is ih => exact ih _

theorem turns_append (s : σ) (is js : List ι) :
    m.turns s (is ++ js) = m.turns s is ++ m.turns (m.run s is) js := by
  induction is generalizing s with
  | nil => rfl
  | cons i is ih => simp only [List.cons_append, turns, run, ih]

theorem run_snoc (s : σ) (is : List ι) (i : ι) :
    m.run s (is ++ [i]) = m.next (m.run s is) i := m.run_append s is [i]

theorem turns_snoc (s : σ) (is : List ι) (i : ι) :
    m.turns s (is ++ [i]) = m.turns s is ++ [m.turn (m.run s is) i] := m.turns_append s is [i]

-- ---------------------------------------------------------------------------
-- Invariants
-- ---------------------------------------------------------------------------

section
variable {m}

/-- A relation between the turns so far and the state, kept by every turn that
meets `cond`, holds at the end of every run that does. -/
theorem history_of_meets {cond : σ → ι → Prop} {R : List (Turn σ ι ω) → σ → Prop}
    (hstep : ∀ ts s i, R ts s → cond s i → R (ts ++ [m.turn s i]) (m.next s i))
    (h : R [] s) (hm : m.Meets cond s is) : R (m.turns s is) (m.run s is) := by
  suffices key : ∀ is ts s, R ts s → m.Meets cond s is →
      R (ts ++ m.turns s is) (m.run s is) from key is [] s h hm
  intro is
  induction is with
  | nil => intro ts s h _; simpa [turns, run] using h
  | cons i is ih =>
    intro ts s h hm
    have hnext := ih _ _ (hstep ts s i h hm.1) hm.2
    simpa [turns, run] using hnext

theorem meets_true (s : σ) (is : List ι) : m.Meets (fun _ _ => True) s is := by
  induction is generalizing s with
  | nil => trivial
  | cons i is ih => exact ⟨trivial, ih _⟩

theorem Meets.mono {cond cond' : σ → ι → Prop} (h : m.Meets cond s is) (hcond : ∀ s i, cond s i → cond' s i) :
    m.Meets cond' s is := by
  induction is generalizing s with
  | nil => trivial
  | cons i is ih => exact ⟨hcond s i h.1, ih h.2⟩

theorem Meets.of_mem {P : ι → Prop} {cond : σ → ι → Prop} (hp : ∀ i ∈ is, P i) (h : m.Meets cond s is) :
    m.Meets (fun s i => P i ∧ cond s i) s is := by
  induction is generalizing s with
  | nil => trivial
  | cons i is ih =>
    exact ⟨⟨hp i List.mem_cons_self, h.1⟩, ih (fun j hj => hp j (List.mem_cons_of_mem i hj)) h.2⟩

theorem history {R : List (Turn σ ι ω) → σ → Prop}
    (hstep : ∀ ts s i, R ts s → R (ts ++ [m.turn s i]) (m.next s i))
    (h : R [] s) (is : List ι) : R (m.turns s is) (m.run s is) :=
  history_of_meets (fun ts s i hr _ => hstep ts s i hr) h (meets_true s is)

theorem inv_of_meets {cond : σ → ι → Prop} {Inv : σ → Prop}
    (hstep : ∀ s i, Inv s → cond s i → Inv (m.next s i))
    (h : Inv s) (hm : m.Meets cond s is) : Inv (m.run s is) :=
  history_of_meets (R := fun _ => Inv) (fun _ s i hi hc => hstep s i hi hc) h hm

theorem inv {Inv : σ → Prop} (hstep : ∀ s i, Inv s → Inv (m.next s i))
    (h : Inv s) (is : List ι) : Inv (m.run s is) :=
  inv_of_meets (fun s i hi _ => hstep s i hi) h (meets_true s is)

theorem turns_of_inv {Inv : σ → Prop} {P : Turn σ ι ω → Prop}
    (hstep : ∀ s i, Inv s → Inv (m.next s i)) (hturn : ∀ s i, Inv s → P (m.turn s i))
    (h : Inv s) (is : List ι) : ∀ t ∈ m.turns s is, P t := by
  have key := history (m := m) (R := fun ts s => Inv s ∧ ∀ t ∈ ts, P t)
    (fun ts s i hr => ⟨hstep s i hr.1, by
      intro t ht
      rcases List.mem_append.mp ht with ht | ht
      · exact hr.2 t ht
      · rw [List.mem_singleton.mp ht]; exact hturn s i hr.1⟩) ⟨h, by simp⟩ is
  exact key.2

end

end Machine

-- ---------------------------------------------------------------------------
-- Since
-- ---------------------------------------------------------------------------

/-- Some entry satisfies `P`, and no entry after it satisfies `Q`. -/
def Since (P Q : α → Prop) (l : List α) : Prop :=
  ∃ before x after, l = before ++ x :: after ∧ P x ∧ ∀ y ∈ after, ¬ Q y

theorem Since.last (h : P x) : Since P Q (l ++ [x]) := ⟨l, x, [], rfl, h, by simp⟩

theorem Since.append (h : Since P Q l) (hq : ∀ x ∈ l', ¬ Q x) : Since P Q (l ++ l') := by
  obtain ⟨before, y, after, rfl, hy, hafter⟩ := h
  refine ⟨before, y, after ++ l', by simp, hy, ?_⟩
  intro z hz
  rcases List.mem_append.mp hz with hz | hz
  · exact hafter z hz
  · exact hq z hz

theorem Since.snoc (h : Since P Q l) (hq : ¬ Q x) : Since P Q (l ++ [x]) := by
  refine h.append ?_
  intro y hy
  rw [List.mem_singleton.mp hy]; exact hq

-- ---------------------------------------------------------------------------
-- Prefixes
-- ---------------------------------------------------------------------------

theorem forall_prefix_iff {P Q : List ι → ι → Prop} {R : List ι → Prop} {l : List ι} (h : R [])
    (hstep : ∀ is i, is ++ [i] <+: l → R is → (P is i ↔ Q is i) ∧ (Q is i → R (is ++ [i]))) :
    (∀ is i, is ++ [i] <+: l → P is i) ↔ ∀ is i, is ++ [i] <+: l → Q is i := by
  have kept : (∀ is i, is ++ [i] <+: l → R is → Q is i) → ∀ is, is <+: l → R is := by
    intro hq is
    induction is using List.reverseRecOn with
    | nil => exact fun _ => h
    | append_singleton is i ih =>
      intro hpre
      have hr := ih ((List.prefix_append is [i]).trans hpre)
      exact (hstep is i hpre hr).2 (hq is i hpre hr)
  constructor
  · intro hp is i hpre
    have hr := kept (fun is i hpre hr => (hstep is i hpre hr).1.mp (hp is i hpre)) is
      ((List.prefix_append is [i]).trans hpre)
    exact (hstep is i hpre hr).1.mp (hp is i hpre)
  · intro hq is i hpre
    have hr := kept (fun is i hpre _ => hq is i hpre) is ((List.prefix_append is [i]).trans hpre)
    exact (hstep is i hpre hr).1.mpr (hq is i hpre)

namespace Machine

variable {σ : Type u} {ι : Type v} {ω : Type w} {m : Machine σ ι ω}

/-- A flag that goes up only in a turn with `P`, and stays up only through turns
without `Q`, is up only when there was a `P` and no `Q` since. -/
theorem since_of_flag {F : σ → Prop} {P Q : Turn σ ι ω → Prop}
    (hstep : ∀ s i, F (m.next s i) → P (m.turn s i) ∨ (F s ∧ ¬ Q (m.turn s i)))
    (h0 : ¬ F s) (is : List ι) : F (m.run s is) → Since P Q (m.turns s is) := by
  refine history (m := m) (R := fun ts s => F s → Since P Q ts) ?_ (fun h => absurd h h0) is
  intro ts s i ih hup
  rcases hstep s i hup with hp | ⟨hs, hq⟩
  · exact .last hp
  · exact (ih hs).snoc hq

-- ---------------------------------------------------------------------------
-- Two runs
-- ---------------------------------------------------------------------------

def seen (visible : ι → Bool) (ts : List (Turn σ ι ω)) : List ω :=
  (ts.filter fun t => visible t.input).map Turn.out

theorem hide {visible : ι → Bool} {cond : σ → ι → Prop} {R : σ → σ → Prop}
    (hseen : ∀ s t i, R s t → visible i = true →
      (m.step s i).2 = (m.step t i).2 ∧ R (m.next s i) (m.next t i))
    (hhide : ∀ s t i, R s t → visible i = false → cond s i → R (m.next s i) t)
    (h : R s t) (hm : m.Meets (fun s i => visible i = false → cond s i) s is) :
    seen visible (m.turns s is) = (m.turns t (is.filter visible)).map Turn.out ∧
      R (m.run s is) (m.run t (is.filter visible)) := by
  induction is generalizing s t with
  | nil => exact ⟨rfl, h⟩
  | cons i is ih =>
    cases hv : visible i with
    | true =>
      obtain ⟨hout, hr⟩ := hseen s t i h hv
      obtain ⟨ho, hrun⟩ := ih hr hm.2
      refine ⟨?_, ?_⟩
      · simp only [seen] at ho
        simp [seen, turns, hv, turn, hout, ho]
      · simpa [run, hv] using hrun
    | false =>
      obtain ⟨ho, hrun⟩ := ih (hhide s t i h hv (hm.1 hv)) hm.2
      refine ⟨?_, ?_⟩
      · simp only [seen] at ho
        simp [seen, turns, hv, ho]
      · simpa [run, hv] using hrun

/-- Two machines in related states that take related inputs: if a step of both gives related
turns and keeps the relation, so do whole runs. -/
theorem lockstep {σ' : Type u} {ι' : Type v} {ω' : Type w} {n : Machine σ' ι' ω'} {R : σ → σ' → Prop}
    {I : ι → ι' → Prop} {O : Turn σ ι ω → Turn σ' ι' ω' → Prop}
    (hstep : ∀ s t i j, R s t → I i j → O (m.turn s i) (n.turn t j) ∧ R (m.next s i) (n.next t j))
    {s : σ} {t : σ'} {is : List ι} {js : List ι'} (h : R s t) (hin : List.Forall₂ I is js) :
    List.Forall₂ O (m.turns s is) (n.turns t js) ∧ R (m.run s is) (n.run t js) := by
  induction hin generalizing s t with
  | nil => exact ⟨.nil, h⟩
  | cons hi hin ih =>
    obtain ⟨hturn, hnext⟩ := hstep s t _ _ h hi
    obtain ⟨hturns, hrun⟩ := ih hnext
    exact ⟨.cons hturn hturns, hrun⟩

theorem same_outs {σ' : Type u} {n : Machine σ' ι ω} {R : σ → σ' → Prop}
    (hstep : ∀ s t i, R s t → (n.turn t i).out = (m.turn s i).out ∧ R (m.next s i) (n.next t i))
    {s : σ} {t : σ'} (h : R s t) (is : List ι) :
    (n.turns t is).map Turn.out = (m.turns s is).map Turn.out ∧ R (m.run s is) (n.run t is) := by
  induction is generalizing s t with
  | nil => exact ⟨rfl, h⟩
  | cons i is ih =>
    obtain ⟨hout, hnext⟩ := hstep s t i h
    obtain ⟨houts, hrun⟩ := ih hnext
    exact ⟨by simp only [turns, List.map_cons, hout, houts], hrun⟩

end Machine

end EthernetOta
