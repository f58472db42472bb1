import EthernetOta.Lib.Faulting

/-!
# Fair runs that end

Inputs belong to actors, or to none. In a round every actor has a turn, however
often and in whatever order. Each state has a weight; an actor with something to
do lowers it, one with nothing to do waits, and what else happens may add to it.
A run with as many rounds as there is weight comes to its end.
-/

namespace EthernetOta.Faulting

universe u v w t

variable {σ : Type u} {ι : Type v} {ω : Type w} {κ : Type t}

def Round (actor : ι → Option κ) (r : List ι) : Prop := ∀ k, ∃ i ∈ r, actor i = some k

/-- `R past s n` holds with the weight `n` until the run is `done`, at the weight 0 at the latest,
and after that. -/
structure Ends (m : Faulting σ ι ω) (cond : List ω → σ → ι → Prop) (actor : ι → Option κ) (busy : σ → κ → Prop)
    (adds : ι → Nat) (R : List ω → σ → Nat → Prop) (done : List ω → σ → Prop) : Prop where
  acts : ∀ {past s n i k}, R past s n → cond past s i → actor i = some k → busy s k →
    ∃ s' effects n', m.step s i = some (s', effects) ∧ R (past ++ effects) s' n' ∧ n' < n
  waits : ∀ {past s n i k}, R past s n → cond past s i → actor i = some k → ¬ busy s k → m.step s i = some (s, [])
  passes : ∀ {past s n i}, R past s n → cond past s i → actor i = none →
    ∃ s' effects n', m.step s i = some (s', effects) ∧ R (past ++ effects) s' n' ∧ n' ≤ n + adds i ∧
      ∀ k, busy s k → busy s' k
  goes : ∀ {past s n}, R past s n → done past s ∨ ∃ k, busy s k
  spent : ∀ {past s}, R past s 0 → done past s
  stays : ∀ {past s n i s' effects}, R past s n → cond past s i → done past s → m.step s i = some (s', effects) →
    done (past ++ effects) s'

variable {m : Faulting σ ι ω} {cond : List ω → σ → ι → Prop} {actor : ι → Option κ} {busy : σ → κ → Prop}
  {adds : ι → Nat} {R : List ω → σ → Nat → Prop} {done : List ω → σ → Prop}

def added (adds : ι → Nat) (is : List ι) : Nat := (is.map adds).sum

theorem added_append (adds : ι → Nat) (is is' : List ι) : added adds (is ++ is') = added adds is + added adds is' := by
  simp [added]

theorem Ends.step (e : Ends m cond actor busy adds R done) (h : R past s n) (hc : cond past s i) :
    ∃ s' effects n', m.step s i = some (s', effects) ∧ R (past ++ effects) s' n' ∧ n' ≤ n + adds i := by
  cases hactor : actor i with
  | none =>
    obtain ⟨s', effects, n', hs, hr, hle, -⟩ := e.passes h hc hactor
    exact ⟨s', effects, n', hs, hr, hle⟩
  | some k =>
    by_cases hbusy : busy s k
    · obtain ⟨s', effects, n', hs, hr, hlt⟩ := e.acts h hc hactor hbusy
      exact ⟨s', effects, n', hs, hr, by omega⟩
    · exact ⟨s, [], n, e.waits h hc hactor hbusy, by rwa [List.append_nil], Nat.le_add_right _ _⟩

theorem Ends.run (e : Ends m cond actor busy adds R done) (h : R past s n) (hm : m.Meets cond past s is) :
    ∃ s' effects n', m.run s is = some (s', effects) ∧ R (past ++ effects) s' n' ∧ n' ≤ n + added adds is ∧
      (done past s → done (past ++ effects) s') := by
  induction is generalizing past s n with
  | nil => exact ⟨s, [], n, rfl, by rwa [List.append_nil], Nat.le_refl _, by rw [List.append_nil]; exact id⟩
  | cons i is ih =>
    obtain ⟨s₁, effects₁, n₁, hs, hr, hle⟩ := e.step h hm.1
    obtain ⟨s₂, effects₂, n₂, hrun, hr₂, hle₂, hdone⟩ := ih hr (hm.2 s₁ effects₁ hs)
    have hadded : added adds (i :: is) = adds i + added adds is := rfl
    refine ⟨s₂, effects₁ ++ effects₂, n₂, run_cons hs hrun, by rwa [← List.append_assoc], by omega, fun hd => ?_⟩
    rw [← List.append_assoc]
    exact hdone (e.stays h hm.1 hd hs)

theorem Ends.turn (e : Ends m cond actor busy adds R done) (h : R past s n) (hm : m.Meets cond past s is)
    (hbusy : busy s k) (hturn : ∃ i ∈ is, actor i = some k) : ∃ s' effects n', m.run s is = some (s', effects) ∧
      R (past ++ effects) s' n' ∧ n' < n + added adds is := by
  induction is generalizing past s n with
  | nil =>
    obtain ⟨i, hi, -⟩ := hturn
    exact absurd hi List.not_mem_nil
  | cons i is ih =>
    have hadded : added adds (i :: is) = adds i + added adds is := rfl
    -- The weight is lower after this input, or the actor is still busy after it.
    have hfirst : ∃ s₁ effects₁ n₁, m.step s i = some (s₁, effects₁) ∧ R (past ++ effects₁) s₁ n₁ ∧
        (n₁ < n + adds i ∨ n₁ ≤ n + adds i ∧ busy s₁ k ∧ actor i ≠ some k) := by
      cases hactor : actor i with
      | none =>
        obtain ⟨s₁, effects₁, n₁, hs, hr, hle, hkeeps⟩ := e.passes h hm.1 hactor
        exact ⟨s₁, effects₁, n₁, hs, hr, .inr ⟨hle, hkeeps k hbusy, nofun⟩⟩
      | some j =>
        by_cases hj : busy s j
        · obtain ⟨s₁, effects₁, n₁, hs, hr, hlt⟩ := e.acts h hm.1 hactor hj
          exact ⟨s₁, effects₁, n₁, hs, hr, .inl (by omega)⟩
        · refine ⟨s, [], n, e.waits h hm.1 hactor hj, by rwa [List.append_nil], .inr ⟨Nat.le_add_right _ _, hbusy, ?_⟩⟩
          rintro heq
          exact hj (Option.some.inj heq ▸ hbusy)
    obtain ⟨s₁, effects₁, n₁, hs, hr, hcase⟩ := hfirst
    have hm₁ := hm.2 s₁ effects₁ hs
    rcases hcase with hlt | ⟨hle, hbusy₁, hother⟩
    · obtain ⟨s₂, effects₂, n₂, hrun, hr₂, hle₂, -⟩ := e.run hr hm₁
      exact ⟨s₂, effects₁ ++ effects₂, n₂, run_cons hs hrun, by rwa [← List.append_assoc], by omega⟩
    · have hturn₁ : ∃ i ∈ is, actor i = some k := by
        obtain ⟨j, hj, hk⟩ := hturn
        rcases List.mem_cons.mp hj with rfl | hj
        · exact absurd hk hother
        · exact ⟨j, hj, hk⟩
      obtain ⟨s₂, effects₂, n₂, hrun, hr₂, hlt₂⟩ := ih hr hm₁ hbusy₁ hturn₁
      exact ⟨s₂, effects₁ ++ effects₂, n₂, run_cons hs hrun, by rwa [← List.append_assoc], by omega⟩

/-- Each round lowers the weight, until the run is done. -/
theorem Ends.rounds (e : Ends m cond actor busy adds R done) (h : R past s n) {rounds : List (List ι)}
    (hm : m.Meets cond past s rounds.flatten) (fair : ∀ r ∈ rounds, Round actor r) :
    ∃ s' effects n', m.run s rounds.flatten = some (s', effects) ∧ R (past ++ effects) s' n' ∧
      (done (past ++ effects) s' ∨ n' + rounds.length ≤ n + added adds rounds.flatten) := by
  induction rounds generalizing past s n with
  | nil => exact ⟨s, [], n, rfl, by rwa [List.append_nil], .inr (Nat.le_refl _)⟩
  | cons r rounds ih =>
    rcases e.goes h with hdone | ⟨k, hbusy⟩
    · obtain ⟨s', effects, n', hrun, hr, -, hstays⟩ := e.run h hm
      exact ⟨s', effects, n', hrun, hr, .inl (hstays hdone)⟩
    · rw [List.flatten_cons] at hm ⊢
      obtain ⟨s₁, effects₁, n₁, hrun, hr, hlt⟩ := e.turn h hm.left hbusy (fair r List.mem_cons_self k)
      obtain ⟨s₂, effects₂, n₂, hrun₂, hr₂, hcase⟩ := ih hr (hm.right hrun) fun r' hr' => fair r' (List.mem_cons_of_mem _ hr')
      have hadded := added_append adds r rounds.flatten
      refine ⟨s₂, effects₁ ++ effects₂, n₂, run_append hrun hrun₂, by rwa [← List.append_assoc], ?_⟩
      rw [← List.append_assoc, List.length_cons]
      exact hcase.imp id fun hle => by omega

/-- With as many rounds as weight the run is done. -/
theorem Ends.finishes (e : Ends m cond actor busy adds R done) (h : R past s n) {rounds : List (List ι)}
    (hm : m.Meets cond past s rounds.flatten) (fair : ∀ r ∈ rounds, Round actor r)
    (enough : n + added adds rounds.flatten ≤ rounds.length) :
    ∃ s' effects, m.run s rounds.flatten = some (s', effects) ∧ done (past ++ effects) s' := by
  obtain ⟨s', effects, n', hrun, hr, hdone | hle⟩ := e.rounds h hm fair
  · exact ⟨s', effects, hrun, hdone⟩
  · obtain rfl : n' = 0 := by omega
    exact ⟨s', effects, hrun, e.spent hr⟩

end EthernetOta.Faulting
