import Mathlib.Algebra.Order.Ring.Nat
import Mathlib.Data.List.Basic

/-!
# Machines that can fault

A step either faults or gives the next state and the effects it has, in order.
A run collects the effects; `Meets` bounds what its inputs may be, given the
effects so far and the state.
-/

namespace EthernetOta

universe u v w

structure Faulting (σ : Type u) (ι : Type v) (ω : Type w) where
  step : σ → ι → Option (σ × List ω)

namespace Faulting

variable {σ : Type u} {ι : Type v} {ω : Type w}

def run (m : Faulting σ ι ω) : σ → List ι → Option (σ × List ω)
  | s, [] => some (s, [])
  | s, i :: is => do
    let (s, effects) ← m.step s i
    let (s, rest) ← m.run s is
    some (s, effects ++ rest)

/-- Every input the run gets to meets `cond`, after the effects so far. -/
def Meets (m : Faulting σ ι ω) (cond : List ω → σ → ι → Prop) : List ω → σ → List ι → Prop
  | _, _, [] => True
  | past, s, i :: is =>
    cond past s i ∧ ∀ s' effects, m.step s i = some (s', effects) → m.Meets cond (past ++ effects) s' is

variable {m : Faulting σ ι ω} {cond : List ω → σ → ι → Prop}

theorem run_cons (h : m.step s i = some (s', effects)) (hr : m.run s' is = some (s'', rest)) :
    m.run s (i :: is) = some (s'', effects ++ rest) := by
  simp only [run, h, hr, Option.bind_eq_bind, Option.bind_some]

theorem of_run_cons (h : m.run s (i :: is) = some (s'', effects)) : ∃ s' first rest,
    m.step s i = some (s', first) ∧ m.run s' is = some (s'', rest) ∧ effects = first ++ rest := by
  simp only [run, Option.bind_eq_bind] at h
  obtain ⟨⟨s', first⟩, hs, h⟩ := Option.bind_eq_some_iff.mp h
  obtain ⟨⟨s₂, rest⟩, hrun, h⟩ := Option.bind_eq_some_iff.mp h
  obtain ⟨rfl, rfl⟩ := Prod.mk.inj (Option.some.inj h)
  exact ⟨s', first, rest, hs, hrun, rfl⟩

theorem run_append (h : m.run s is = some (s', effects)) (hr : m.run s' is' = some (s'', rest)) :
    m.run s (is ++ is') = some (s'', effects ++ rest) := by
  induction is generalizing s effects with
  | nil =>
    obtain ⟨rfl, rfl⟩ := Prod.mk.inj (Option.some.inj h)
    exact hr
  | cons i is ih =>
    obtain ⟨s₁, effects₁, effects₂, hs, hrun, rfl⟩ := of_run_cons h
    rw [List.append_assoc]
    exact run_cons hs (ih hrun)

theorem meets_true (is : List ι) : m.Meets (fun _ _ _ => True) past s is := by
  induction is generalizing past s with
  | nil => trivial
  | cons i is ih => exact ⟨trivial, fun _ _ _ => ih⟩

/-- A relation between the effects so far and the state, kept without a fault by
every input that meets `cond`, holds at the end of every run that does. -/
theorem history_of_meets {R : List ω → σ → Prop}
    (hstep : ∀ past s i, R past s → cond past s i →
      ∃ s' effects, m.step s i = some (s', effects) ∧ R (past ++ effects) s')
    (h : R past s) (hm : m.Meets cond past s is) :
    ∃ s' effects, m.run s is = some (s', effects) ∧ R (past ++ effects) s' := by
  induction is generalizing past s with
  | nil => exact ⟨s, [], rfl, by simpa using h⟩
  | cons i is ih =>
    obtain ⟨s', effects, hs, hr⟩ := hstep past s i h hm.1
    obtain ⟨s'', rest, hrun, hend⟩ := ih hr (hm.2 s' effects hs)
    exact ⟨s'', effects ++ rest, run_cons hs hrun, by rwa [← List.append_assoc]⟩

theorem history {R : List ω → σ → Prop}
    (hstep : ∀ past s i, R past s → ∃ s' effects, m.step s i = some (s', effects) ∧ R (past ++ effects) s')
    (h : R [] s) (is : List ι) : ∃ s' effects, m.run s is = some (s', effects) ∧ R effects s' :=
  history_of_meets (fun past s i hr _ => hstep past s i hr) h (meets_true is)

theorem run_of_meets {R : List ω → σ → Prop}
    (hstep : ∀ past s i s' effects, R past s → cond past s i → m.step s i = some (s', effects) →
      R (past ++ effects) s')
    (h : R past s) (hm : m.Meets cond past s is) (hr : m.run s is = some (s', effects)) : R (past ++ effects) s' := by
  induction is generalizing past s effects with
  | nil =>
    obtain ⟨rfl, rfl⟩ := Prod.mk.inj (Option.some.inj hr)
    rwa [List.append_nil]
  | cons i is ih =>
    obtain ⟨s₁, effects₁, effects₂, hs, hrun, rfl⟩ := of_run_cons hr
    rw [← List.append_assoc]
    exact ih (hstep past s i s₁ effects₁ h hm.1 hs) (hm.2 s₁ effects₁ hs) hrun

theorem Meets.of_history {R : List ω → σ → Prop} {prop : List ω → σ → ι → Prop}
    (hstep : ∀ past s i, R past s → cond past s i → prop past s i ∧
      ∀ s' effects, m.step s i = some (s', effects) → R (past ++ effects) s')
    (h : R past s) (hm : m.Meets cond past s is) : m.Meets prop past s is := by
  induction is generalizing past s with
  | nil => trivial
  | cons i is ih =>
    obtain ⟨hprop, hkept⟩ := hstep past s i h hm.1
    exact ⟨hprop, fun s' effects hs => ih (hkept s' effects hs) (hm.2 s' effects hs)⟩

theorem meets_iff {R : List ω → σ → Prop} {P Q : List ω → σ → ι → Prop}
    (hstep : ∀ past s i, R past s → cond past s i → (P past s i ↔ Q past s i) ∧
      (Q past s i → ∀ s' effects, m.step s i = some (s', effects) → R (past ++ effects) s'))
    (h : R past s) (hm : m.Meets cond past s is) : m.Meets P past s is ↔ m.Meets Q past s is := by
  induction is generalizing past s with
  | nil => exact Iff.rfl
  | cons i is ih =>
    obtain ⟨hiff, hkept⟩ := hstep past s i h hm.1
    constructor
    · rintro ⟨hp, hrest⟩
      have hq := hiff.mp hp
      exact ⟨hq, fun s' effects hs => (ih (hkept hq s' effects hs) (hm.2 s' effects hs)).mp (hrest s' effects hs)⟩
    · rintro ⟨hq, hrest⟩
      exact ⟨hiff.mpr hq, fun s' effects hs =>
        (ih (hkept hq s' effects hs) (hm.2 s' effects hs)).mpr (hrest s' effects hs)⟩

theorem Meets.cons (h : cond past s i) (hs : m.step s i = some (s', effects))
    (hm : m.Meets cond (past ++ effects) s' is) : m.Meets cond past s (i :: is) := by
  refine ⟨h, fun s'' effects' hs' => ?_⟩
  obtain ⟨rfl, rfl⟩ := Prod.mk.inj (Option.some.inj (hs.symm.trans hs'))
  exact hm

theorem Meets.append (h : m.Meets cond past s is) (hr : m.run s is = some (s', effects))
    (h' : m.Meets cond (past ++ effects) s' is') : m.Meets cond past s (is ++ is') := by
  induction is generalizing past s effects with
  | nil =>
    obtain ⟨rfl, rfl⟩ := Prod.mk.inj (Option.some.inj hr)
    rwa [List.append_nil] at h'
  | cons i is ih =>
    obtain ⟨s₁, effects₁, effects₂, hs, hrun, rfl⟩ := of_run_cons hr
    rw [← List.append_assoc] at h'
    exact .cons h.1 hs (ih (h.2 s₁ effects₁ hs) hrun h')

theorem Meets.and {P Q : List ω → σ → ι → Prop} (hp : m.Meets P past s is) (hq : m.Meets Q past s is) :
    m.Meets (fun past s i => P past s i ∧ Q past s i) past s is := by
  induction is generalizing past s with
  | nil => trivial
  | cons i is ih => exact ⟨⟨hp.1, hq.1⟩, fun s' effects hs => ih (hp.2 s' effects hs) (hq.2 s' effects hs)⟩

theorem Meets.last (h : m.Meets cond past s (is ++ [i])) (hr : m.run s is = some (s', effects)) :
    cond (past ++ effects) s' i := by
  induction is generalizing past s effects with
  | nil =>
    obtain ⟨rfl, rfl⟩ := Prod.mk.inj (Option.some.inj hr)
    rw [List.append_nil]
    exact h.1
  | cons j is ih =>
    obtain ⟨s₁, effects₁, effects₂, hs, hrun, rfl⟩ := of_run_cons hr
    rw [← List.append_assoc]
    exact ih (h.2 s₁ effects₁ hs) hrun

theorem Meets.left (h : m.Meets cond past s (is ++ is')) : m.Meets cond past s is := by
  induction is generalizing past s with
  | nil => trivial
  | cons i is ih => exact ⟨h.1, fun s' effects hs => ih (h.2 s' effects hs)⟩

theorem Meets.right (h : m.Meets cond past s (is ++ is')) (hr : m.run s is = some (s', effects)) :
    m.Meets cond (past ++ effects) s' is' := by
  induction is generalizing past s effects with
  | nil =>
    obtain ⟨rfl, rfl⟩ := Prod.mk.inj (Option.some.inj hr)
    rwa [List.append_nil]
  | cons i is ih =>
    obtain ⟨s₁, effects₁, effects₂, hs, hrun, rfl⟩ := of_run_cons hr
    rw [← List.append_assoc]
    exact ih (h.2 s₁ effects₁ hs) hrun

theorem Meets.take (h : m.Meets cond past s is) (k : Nat) : m.Meets cond past s (is.take k) := by
  induction is generalizing past s k with
  | nil =>
    rw [List.take_nil]
    exact h
  | cons i is ih =>
    cases k with
    | zero => trivial
    | succ k => exact ⟨h.1, fun s' effects hs => ih (h.2 s' effects hs) k⟩

/-- An invariant that inputs with `cond` keep and other inputs break holds after
every prefix of a run just when all its inputs meet `cond`. -/
theorem inv_iff_meets {Inv : σ → Prop} {cond : σ → ι → Prop}
    (hgood : ∀ s i, Inv s → cond s i → ∃ s' effects, m.step s i = some (s', effects) ∧ Inv s')
    (hbad : ∀ s i, Inv s → ¬ cond s i → ∃ s' effects, m.step s i = some (s', effects) ∧ ¬ Inv s')
    (h : Inv s) : (∀ k, ∃ s' effects, m.run s (is.take k) = some (s', effects) ∧ Inv s') ↔
      m.Meets (fun _ => cond) past s is := by
  constructor
  · intro hall
    induction is generalizing past s with
    | nil => trivial
    | cons i is ih =>
      obtain ⟨s₁, effects, hrun, hinv⟩ := hall 1
      have hstep : m.step s i = some (s₁, effects) := by
        cases hs : m.step s i with
        | none => simp [run, hs] at hrun
        | some r =>
          obtain ⟨s', effects'⟩ := r
          simpa [run, hs] using hrun
      refine ⟨by_contra fun hc => ?_, ?_⟩
      · obtain ⟨s', effects', hs, hbroken⟩ := hbad s i h hc
        obtain ⟨rfl, rfl⟩ := Prod.mk.inj (Option.some.inj (hstep.symm.trans hs))
        exact hbroken hinv
      intro s' effects' hs
      obtain ⟨rfl, rfl⟩ := Prod.mk.inj (Option.some.inj (hstep.symm.trans hs))
      refine ih hinv fun k => ?_
      obtain ⟨s₂, rest, hrun, hinv⟩ := hall (k + 1)
      cases hr : m.run s₁ (is.take k) with
      | none => simp [run, hstep, hr] at hrun
      | some r =>
        obtain ⟨s₃, rest'⟩ := r
        simp only [List.take_succ_cons, run, hstep, hr, Option.bind_eq_bind, Option.bind_some,
          Option.some.injEq, Prod.mk.injEq] at hrun
        exact ⟨s₃, rest', rfl, hrun.1 ▸ hinv⟩
  · intro hm k
    have key := history_of_meets (R := fun _ s => Inv s)
      (fun _ s i hi hc => hgood s i hi hc) h (hm.take k)
    exact key

end Faulting

end EthernetOta
