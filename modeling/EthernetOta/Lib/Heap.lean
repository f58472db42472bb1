import Mathlib.Data.List.Nodup
import Mathlib.Data.List.Perm.Subperm
import EthernetOta.Lib.Bytes

/-!
# Linked lists on a heap

The heap of one type of node, as the nodes that are allocated. Reading, writing
or freeing any other address is a fault, `none`: a walk that does not fault has
touched no freed node and freed nothing twice. NULL is the `none` of `Option Addr`.
-/

namespace EthernetOta

abbrev Addr := Word

abbrev Heap (α : Type) := Addr → Option α

namespace Heap

variable {α : Type}

def set (h : Heap α) (p : Addr) (v : α) : Heap α := fun q => if q = p then some v else h q

def erase (h : Heap α) (p : Addr) : Heap α := fun q => if q = p then none else h q

def store (h : Heap α) (p : Addr) (v : α) : Option (Heap α) :=
  if (h p).isSome then some (h.set p v) else none

def free (h : Heap α) (p : Addr) : Option (Heap α) :=
  if (h p).isSome then some (h.erase p) else none

/-- A call of `malloc`: the address of a new node, or NULL. -/
structure Malloc (α : Type) where
  run : Heap α → Option Addr
  fresh : ∀ {h p}, run h = some p → h p = none

def walkLimit : Nat := 2 ^ 32

/-- The last node of a list, `while (p->next != NULL) p = p->next;`. -/
def last (next : α → Option Addr) : Nat → Heap α → Addr → Option Addr
  | 0, _, _ => none
  | limit + 1, h, p => do
    let v ← h p
    match next v with
    | none => some p
    | some q => last next limit h q

def freeAll (next : α → Option Addr) : Nat → Heap α → Addr → Option (Heap α)
  | 0, _, _ => none
  | limit + 1, h, p => do
    let v ← h p
    let h ← h.free p
    match next v with
    | none => some h
    | some q => freeAll next limit h q

@[simp] theorem set_self (h : Heap α) (p : Addr) (v : α) : h.set p v p = some v := if_pos rfl

@[simp] theorem set_ne (h : Heap α) (v : α) (hne : q ≠ p) : h.set p v q = h q := if_neg hne

@[simp] theorem erase_self (h : Heap α) (p : Addr) : h.erase p p = none := if_pos rfl

@[simp] theorem erase_ne (h : Heap α) (hne : q ≠ p) : h.erase p q = h q := if_neg hne

theorem store_some {h : Heap α} (hp : h p = some v) (w : α) : h.store p w = some (h.set p w) := by
  rw [store, hp]
  rfl

theorem free_some {h : Heap α} (hp : h p = some v) : h.free p = some (h.erase p) := by
  rw [free, hp]
  rfl

theorem free_set (h : Heap α) (p : Addr) (v : α) :
    (h.set p v).free p = some ((h.set p v).erase p) := free_some (set_self h p v)

-- ---------------------------------------------------------------------------
-- Lists
-- ---------------------------------------------------------------------------

/-- The NULL-terminated list at a pointer, with the nodes on it. -/
inductive Chain (next : α → Option Addr) (h : Heap α) : Option Addr → List (Addr × α) → Prop
  | nil : Chain next h none []
  | cons {p : Addr} {v : α} {l : List (Addr × α)} (node : h p = some v) (tail : Chain next h (next v) l) :
    Chain next h (some p) ((p, v) :: l)

namespace Chain

variable {next : α → Option Addr} {h h' : Heap α} {p : Option Addr} {l : List (Addr × α)}

theorem lookup (hc : Chain next h p l) (hx : x ∈ l) : h x.1 = some x.2 := by
  induction hc with
  | nil => exact nomatch hx
  | cons node tail ih =>
    rcases List.mem_cons.mp hx with rfl | hx
    · exact node
    · exact ih hx

theorem det (hc : Chain next h p l) (hc' : Chain next h p l') : l = l' := by
  induction hc generalizing l' with
  | nil =>
    cases hc'
    rfl
  | cons node tail ih =>
    cases hc' with
    | cons node' tail' =>
      obtain rfl := Option.some.inj (node.symm.trans node')
      rw [ih tail']

theorem suffix (hc : Chain next h p l) (hx : x ∈ l) :
    ∃ l', Chain next h (some x.1) l' ∧ l'.length ≤ l.length := by
  induction hc with
  | nil => exact nomatch hx
  | cons node tail ih =>
    rcases List.mem_cons.mp hx with rfl | hx
    · exact ⟨_, .cons node tail, Nat.le_refl _⟩
    · obtain ⟨l', hl', hlen⟩ := ih hx
      exact ⟨l', hl', Nat.le_succ_of_le hlen⟩

theorem nodup (hc : Chain next h p l) : (l.map Prod.fst).Nodup := by
  induction hc with
  | nil => exact List.nodup_nil
  | @cons p v l node tail ih =>
    refine List.nodup_cons.mpr ⟨fun hmem => ?_, ih⟩
    obtain ⟨x, hx, rfl⟩ := List.mem_map.mp hmem
    obtain ⟨l', hl', hlen⟩ := tail.suffix hx
    -- the list from the second occurrence on is the whole list again
    rw [hl'.det (.cons node tail)] at hlen
    exact absurd hlen (Nat.not_succ_le_self _)

theorem length_le (hc : Chain next h p l) : l.length ≤ walkLimit := by
  have hnodup : ((l.map Prod.fst).map BitVec.toNat).Nodup :=
    List.Nodup.map (fun _ _ heq => BitVec.eq_of_toNat_eq heq) hc.nodup
  have hsub : (l.map Prod.fst).map BitVec.toNat ⊆ List.range walkLimit := by
    intro n hn
    obtain ⟨a, -, rfl⟩ := List.mem_map.mp hn
    exact List.mem_range.mpr a.isLt
  have hle := (hnodup.subperm hsub).length_le
  simpa using hle

theorem congr (hc : Chain next h p l) (hsame : ∀ x ∈ l, h' x.1 = h x.1) : Chain next h' p l := by
  induction hc with
  | nil => exact .nil
  | cons node tail ih =>
    exact .cons ((hsame _ (List.mem_cons_self ..)).trans node)
      (ih fun x hx => hsame x (List.mem_cons_of_mem _ hx))

theorem set (hc : Chain next h p l) (hq : q ∉ l.map Prod.fst) (v : α) : Chain next (h.set q v) p l :=
  hc.congr fun _ hx => set_ne h v fun heq => hq (heq ▸ List.mem_map_of_mem hx)

theorem erase (hc : Chain next h p l) (hq : q ∉ l.map Prod.fst) : Chain next (h.erase q) p l :=
  hc.congr fun _ hx => erase_ne h fun heq => hq (heq ▸ List.mem_map_of_mem hx)

theorem fresh (hc : Chain next h p l) (hq : h q = none) : q ∉ l.map Prod.fst := by
  intro hmem
  obtain ⟨x, hx, rfl⟩ := List.mem_map.mp hmem
  exact nomatch hq.symm.trans (hc.lookup hx)

theorem eq_cons {p : Addr} (hc : Chain next h (some p) l) : ∃ v l', l = (p, v) :: l' ∧ h p = some v ∧
    Chain next h (next v) l' := by
  cases hc with
  | cons node tail => exact ⟨_, _, rfl, node, tail⟩

theorem replace {p : Addr} (hc : Chain next h (some p) ((p, v) :: l)) (hnext : next w = next v) :
    Chain next (h.set p w) (some p) ((p, w) :: l) := by
  have hnodup := hc.nodup
  cases hc with
  | cons node tail =>
    have hp : p ∉ l.map Prod.fst := (List.nodup_cons.mp hnodup).1
    exact .cons (set_self h p w) (hnext ▸ tail.set hp w)

theorem pop {p : Addr} (hc : Chain next h (some p) ((p, v) :: l)) : Chain next (h.erase p) (next v) l := by
  have hnodup := hc.nodup
  cases hc with
  | cons node tail => exact tail.erase (List.nodup_cons.mp hnodup).1

theorem last_eq (hc : Chain next h p (l ++ [(a, v)])) (hp : p = some q) (hlen : l.length < limit) :
    last next limit h q = some a := by
  induction l generalizing p q limit with
  | nil =>
    obtain ⟨limit, rfl⟩ := Nat.exists_eq_succ_of_ne_zero (Nat.ne_of_gt hlen)
    subst hp
    cases hc with
    | cons node tail =>
      have hnext : next v = none := by
        cases hn : next v with
        | none => rfl
        | some r =>
          rw [hn] at tail
          exact nomatch tail
      simp [last, node, hnext]
  | cons x l ih =>
    obtain ⟨limit, rfl⟩ := Nat.exists_eq_succ_of_ne_zero (Nat.ne_of_gt (Nat.lt_of_le_of_lt (Nat.zero_le _) hlen))
    subst hp
    cases hc with
    | @cons _ w _ node tail =>
      cases hn : next w with
      | none =>
        rw [hn] at tail
        exact absurd (tail.det .nil) (by simp)
      | some r =>
        simp only [last, node, hn, Option.bind_eq_bind, Option.bind_some]
        exact ih tail hn (Nat.lt_of_succ_lt_succ hlen)

/-- A new node `b` behind the last node `a`. -/
theorem snoc (hc : Chain next h p (l ++ [(a, v)])) (hb : h b = none) (hv : next v' = some b)
    (hw : next w = none) : Chain next ((h.set b w).set a v') p (l ++ [(a, v'), (b, w)]) := by
  have hfresh := hc.fresh hb
  have hnodup := hc.nodup
  induction l generalizing p with
  | nil =>
    cases hc with
    | cons node tail =>
      have hne : b ≠ a := by
        rintro rfl
        exact nomatch hb.symm.trans node
      refine .cons (set_self _ _ _) ?_
      rw [hv]
      refine .cons ((set_ne _ _ hne).trans (set_self _ _ _)) ?_
      rw [hw]
      exact .nil
  | cons x l ih =>
    cases hc with
    | @cons q _ _ node tail =>
      have hnd := List.nodup_cons.mp hnodup
      have hqa : q ≠ a := fun heq => hnd.1 (by simp [heq])
      have hqb : q ≠ b := fun heq => hfresh (by simp [heq])
      refine .cons ?_ (ih tail (fun hmem => hfresh (List.mem_cons_of_mem _ hmem)) hnd.2)
      rw [set_ne _ _ hqa, set_ne _ _ hqb, node]

theorem freeAll_eq {p : Addr} (hc : Chain next h (some p) l) (hlen : l.length ≤ limit) :
    ∃ h', freeAll next limit h p = some h' ∧ (∀ x ∈ l, h' x.1 = none) ∧
      ∀ q, q ∉ l.map Prod.fst → h' q = h q := by
  induction limit generalizing h p l with
  | zero =>
    obtain ⟨v, l', rfl, -⟩ := hc.eq_cons
    exact absurd hlen (Nat.not_succ_le_zero _)
  | succ limit ih =>
    obtain ⟨v, l', rfl, node, tail⟩ := hc.eq_cons
    have hp : p ∉ l'.map Prod.fst := (List.nodup_cons.mp hc.nodup).1
    have hpop := hc.pop
    simp only [freeAll, node, free_some node, Option.bind_eq_bind, Option.bind_some]
    cases hn : next v with
    | none =>
      rw [hn] at tail
      cases tail
      refine ⟨_, rfl, ?_, ?_⟩
      · intro x hx
        rw [List.mem_singleton.mp hx]
        exact erase_self h p
      · intro q hq
        exact erase_ne h fun heq => hq (by simp [heq])
    | some r =>
      rw [hn] at hpop
      obtain ⟨h', hfree, hgone, hkept⟩ := ih hpop (Nat.le_of_succ_le_succ hlen)
      refine ⟨h', hfree, ?_, ?_⟩
      · intro x hx
        rcases List.mem_cons.mp hx with rfl | hx
        · rw [hkept p hp, erase_self]
        · exact hgone x hx
      · intro q hq
        have hne : q ≠ p := fun heq => hq (by simp [heq])
        rw [hkept q fun hmem => hq (List.mem_cons_of_mem _ hmem), erase_ne h hne]

end Chain

end Heap

end EthernetOta
