import Mathlib.Logic.Function.Basic
import EthernetOta.Lib.Heap

/-!
# Lists that share a heap

Several lists, each with an owner, make up a heap: no two have a node in common, and
nothing else is allocated. Whoever works on his own list writes to its nodes, frees
some of them and takes in others that were free. That much `Framed` says of the heap
before and after, and the lists of the others are then what they were.
-/

namespace EthernetOta.Heap

variable {α : Type} {κ : Type} {h h' h'' : Heap α} {l l' l'' : List (Addr × α)}

-- ---------------------------------------------------------------------------
-- Work on one list
-- ---------------------------------------------------------------------------

/-- The nodes of `l` become those of `l'`, and the rest of the heap stays. -/
structure Framed (h : Heap α) (l : List (Addr × α)) (h' : Heap α) (l' : List (Addr × α)) : Prop where
  kept : ∀ {a}, a ∉ l.map Prod.fst → a ∉ l'.map Prod.fst → h' a = h a
  gone : ∀ {a}, a ∈ l.map Prod.fst → a ∉ l'.map Prod.fst → h' a = none
  new : ∀ {a}, a ∈ l'.map Prod.fst → a ∉ l.map Prod.fst → h a = none

namespace Framed

theorem refl (h : Heap α) (l : List (Addr × α)) : Framed h l h l :=
  ⟨fun _ _ => rfl, fun hin hout => absurd hin hout, fun hin hout => absurd hin hout⟩

theorem trans (f : Framed h l h' l') (g : Framed h' l' h'' l'') : Framed h l h'' l'' where
  kept := by
    intro a hl hl''
    by_cases hl' : a ∈ l'.map Prod.fst
    · rw [g.gone hl' hl'', f.new hl' hl]
    · rw [g.kept hl' hl'', f.kept hl hl']
  gone := by
    intro a hl hl''
    by_cases hl' : a ∈ l'.map Prod.fst
    · exact g.gone hl' hl''
    · rw [g.kept hl' hl'', f.gone hl hl']
  new := by
    intro a hl'' hl
    by_cases hl' : a ∈ l'.map Prod.fst
    · exact f.new hl' hl
    · rw [← f.kept hl hl', g.new hl'' hl']

theorem replace (h : Heap α) (p : Addr) (v w : α) (l : List (Addr × α)) :
    Framed h ((p, v) :: l) (h.set p w) ((p, w) :: l) where
  kept hout _ := set_ne h w fun heq => hout (heq ▸ List.mem_cons_self)
  gone hin hout := absurd hin hout
  new hin hout := absurd hin hout

theorem single (hb : h b = none) (w : α) : Framed h [] (h.set b w) [(b, w)] where
  kept _ hout := set_ne h w fun heq => hout (heq ▸ List.mem_cons_self)
  gone hin _ := absurd hin List.not_mem_nil
  new hin _ := List.mem_singleton.mp hin ▸ hb

theorem snoc (hb : h b = none) (l : List (Addr × α)) (a : Addr) (v v' w : α) :
    Framed h (l ++ [(a, v)]) ((h.set b w).set a v') (l ++ [(a, v'), (b, w)]) where
  kept := by
    intro q hl hl'
    simp only [List.map_append, List.map_cons, List.map_nil, List.mem_append, List.mem_cons, List.not_mem_nil,
      or_false, not_or] at hl hl'
    rw [set_ne _ _ hl.2, set_ne _ _ hl'.2.2]
  gone := by
    intro q hl hl'
    refine absurd ?_ hl'
    simp only [List.map_append, List.map_cons, List.map_nil, List.mem_append, List.mem_cons, List.not_mem_nil,
      or_false] at hl ⊢
    exact hl.imp id .inl
  new := by
    intro q hl' hl
    simp only [List.map_append, List.map_cons, List.map_nil, List.mem_append, List.mem_cons, List.not_mem_nil,
      or_false, not_or] at hl hl'
    obtain rfl : q = b := (hl'.resolve_left hl.1).resolve_left hl.2
    exact hb

theorem pop (h : Heap α) {p : Addr} {v : α} (hp : p ∉ l.map Prod.fst) : Framed h ((p, v) :: l) (h.erase p) l where
  kept hout _ := erase_ne h fun heq => hout (heq ▸ List.mem_cons_self)
  gone := by
    intro a hin hout
    obtain rfl := (List.mem_cons.mp hin).resolve_right hout
    exact erase_self h _
  new hin hout := absurd (List.mem_cons_of_mem _ hin) hout

theorem freed (hgone : ∀ x ∈ l, h' x.1 = none) (hkept : ∀ q, q ∉ l.map Prod.fst → h' q = h q) : Framed h l h' [] where
  kept hout _ := hkept _ hout
  gone := by
    intro a hin _
    obtain ⟨x, hx, rfl⟩ := List.mem_map.mp hin
    exact hgone x hx
  new hin _ := absurd hin List.not_mem_nil

end Framed

-- ---------------------------------------------------------------------------
-- Several lists
-- ---------------------------------------------------------------------------

/-- The heap is what these lists have on it, each from its own pointer on. -/
structure Shared (next : α → Option Addr) (h : Heap α) (start : κ → Option Addr) (lists : κ → List (Addr × α)) :
    Prop where
  chain : ∀ k, Chain next h (start k) (lists k)
  apart : ∀ {k j}, k ≠ j → ∀ {a}, a ∈ (lists k).map Prod.fst → a ∉ (lists j).map Prod.fst
  all : ∀ {a}, h a ≠ none → ∃ k, a ∈ (lists k).map Prod.fst

namespace Shared

variable {next : α → Option Addr} {start : κ → Option Addr} {lists : κ → List (Addr × α)} {k : κ}

theorem empty (start : κ → Option Addr) (none_start : ∀ k, start k = none) :
    Shared next (fun _ => none) start fun _ => [] where
  chain k := none_start k ▸ .nil
  apart _ _ hin := absurd hin List.not_mem_nil
  all ha := absurd rfl ha

theorem untouched (sh : Shared next h start lists) (framed : Framed h (lists k) h' l') (hj : j ≠ k)
    (ha : a ∈ (lists j).map Prod.fst) : a ∉ l'.map Prod.fst ∧ h' a = h a := by
  have hk := sh.apart hj ha
  have hallocated : h a ≠ none := by
    obtain ⟨x, hx, rfl⟩ := List.mem_map.mp ha
    rw [(sh.chain j).lookup hx]
    exact Option.some_ne_none _
  have hl' : a ∉ l'.map Prod.fst := fun hin => hallocated (framed.new hin hk)
  exact ⟨hl', framed.kept hk hl'⟩

theorem work [DecidableEq κ] (sh : Shared next h start lists) (framed : Framed h (lists k) h' l')
    (chain : Chain next h' p l') :
    Shared next h' (Function.update start k p) (Function.update lists k l') where
  chain j := by
    by_cases hj : j = k
    · subst hj
      rwa [Function.update_self, Function.update_self]
    · rw [Function.update_of_ne hj, Function.update_of_ne hj]
      exact (sh.chain j).congr fun x hx => (sh.untouched framed hj (List.mem_map_of_mem hx)).2
  apart := by
    intro i j hij a hi hj
    by_cases hik : i = k
    · subst hik
      rw [Function.update_self] at hi
      rw [Function.update_of_ne hij.symm] at hj
      exact (sh.untouched framed hij.symm hj).1 hi
    · rw [Function.update_of_ne hik] at hi
      by_cases hjk : j = k
      · subst hjk
        rw [Function.update_self] at hj
        exact (sh.untouched framed hij hi).1 hj
      · rw [Function.update_of_ne hjk] at hj
        exact sh.apart hij hi hj
  all := by
    intro a ha
    by_cases hl' : a ∈ l'.map Prod.fst
    · exact ⟨k, by rwa [Function.update_self]⟩
    · have hk : a ∉ (lists k).map Prod.fst := fun hin => ha (framed.gone hin hl')
      obtain ⟨j, hj⟩ := sh.all (framed.kept hk hl' ▸ ha)
      have hjk : j ≠ k := fun heq => hk (heq ▸ hj)
      exact ⟨j, by rwa [Function.update_of_ne hjk]⟩

end Shared

end EthernetOta.Heap
