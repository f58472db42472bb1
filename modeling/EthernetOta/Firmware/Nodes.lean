import EthernetOta.Firmware.PoolRep

/-!
# Nodes that are allocated

What is allocated for the payloads, by the history: a node that was given out and not
freed since. Together with `Told`, which has the nodes of the queues, nothing else is
on the heap: no payload is leaked.
-/

namespace EthernetOta.Firmware

def Accounted (n n' : Net) (E : List NetEffect) : Prop :=
  ∀ a, n'.heap a ≠ none → n.heap a ≠ none ∧ .freed a ∉ E ∨ ∀ past, life a (past ++ E) ≠ some .free

theorem next_ne_free {l : Life} {e : NetEffect} (hl : l ≠ .free) (he : e ≠ .freed a) (hnode : e.node = some a) :
    l.next e ≠ some .free := by
  cases l with
  | free => exact absurd rfl hl
  | queued => cases e <;> nofun
  | sending => cases e <;> nofun
  | sent =>
    cases e with
    | freed b => exact absurd (congrArg NetEffect.freed (Option.some.inj hnode)) he
    | _ => nofun

theorem life_held (h : life a past ≠ some .free) (hE : .freed a ∉ E) : life a (past ++ E) ≠ some .free := by
  have key : ∀ (l : Life) (es : List NetEffect), l ≠ .free → (∀ e ∈ es, e.node = some a ∧ e ≠ .freed a) →
      es.foldlM Life.next l ≠ some .free := by
    intro l es hl hes
    induction es generalizing l with
    | nil => exact fun heq => hl (Option.some.inj heq)
    | cons e es ih =>
      obtain ⟨hnode, he⟩ := hes e List.mem_cons_self
      rw [List.foldlM_cons]
      cases hn : l.next e with
      | none => simp
      | some l' =>
        have hl' : l' ≠ .free := fun heq => next_ne_free hl he hnode (hn.trans (congrArg some heq))
        exact ih l' hl' fun e' he' => hes e' (List.mem_cons_of_mem _ he')
  cases hlife : life a past with
  | none =>
    rw [life] at hlife
    rw [life, List.filter_append, List.foldlM_append, hlife]
    simp
  | some l =>
    rw [life_append hlife]
    refine key l _ (fun heq => h (hlife.trans (congrArg some heq))) fun e he => ?_
    obtain ⟨hin, hnode⟩ := List.mem_filter.mp he
    exact ⟨by simpa using hnode, fun heq => hE (heq ▸ hin)⟩

theorem Accounted.history (h : Accounted n n' E) (held : ∀ a, n.heap a ≠ none → life a past ≠ some .free) :
    ∀ a, n'.heap a ≠ none → life a (past ++ E) ≠ some .free := by
  intro a ha
  rcases h a ha with ⟨hn, hE⟩ | hlife
  · exact life_held (held a hn) hE
  · exact hlife past

theorem Accounted.of_heap (heap : n'.heap = n.heap) (hE : ∀ a, .freed a ∉ E) : Accounted n n' E :=
  fun a ha => .inl ⟨heap ▸ ha, hE a⟩

theorem startPool_heap (h : startPool n i node = some (n', E)) : n'.heap = n.heap ∧ ∀ a, .freed a ∉ E := by
  simp only [startPool, pdcUartSendData, Option.bind_eq_bind, Option.bind_eq_some_iff] at h
  obtain ⟨v, -, h⟩ := h
  split at h
  · obtain ⟨rfl, rfl⟩ := Prod.mk.inj (Option.some.inj h)
    exact ⟨rfl, fun _ => List.not_mem_nil⟩
  · obtain ⟨rfl, rfl⟩ := Prod.mk.inj (Option.some.inj h)
    exact ⟨rfl, fun a hin => by simp at hin⟩

theorem nextPool_heap (h : nextPool n = some (n', E)) : n'.heap = n.heap ∧ ∀ a, .freed a ∉ E := by
  simp only [nextPool] at h
  split at h
  · obtain ⟨rfl, rfl⟩ := Prod.mk.inj (Option.some.inj h)
    exact ⟨rfl, fun _ => List.not_mem_nil⟩
  · split at h
    · obtain ⟨rfl, rfl⟩ := Prod.mk.inj (Option.some.inj h)
      exact ⟨rfl, fun _ => List.not_mem_nil⟩
    · have hstart := startPool_heap h
      exact hstart

theorem closePool_heap (h : closePool n i = some (n', E)) : n'.heap = n.heap ∧ ∀ a, .freed a ∉ E := by
  have hnext := nextPool_heap h
  exact hnext

theorem checkUartDataPool_accounted (h : checkUartDataPool n = some (n', E)) : Accounted n n' E := by
  unfold checkUartDataPool at h
  split at h
  · obtain ⟨heap, hE⟩ := nextPool_heap h
    exact .of_heap heap hE
  · rename_i i _
    split at h
    · split at h
      · obtain ⟨rfl, rfl⟩ := Prod.mk.inj (Option.some.inj h)
        exact .of_heap rfl fun _ => List.not_mem_nil
      · split at h
        · obtain ⟨heap, hE⟩ := closePool_heap h
          exact .of_heap heap hE
        · rename_i node _
          simp only [Option.bind_eq_bind, Option.bind_eq_some_iff] at h
          obtain ⟨v, -, heap, hfree, h⟩ := h
          have hheap : heap = n.heap.erase node := by
            simp only [Heap.free, Option.ite_none_right_eq_some] at hfree
            exact (Option.some.inj hfree.2).symm
          obtain ⟨n₁, E₁, hkept, rfl, rfl⟩ : ∃ n₁ E₁, (n₁.heap = heap ∧ ∀ a, .freed a ∉ E₁) ∧ n' = n₁ ∧
              E = .tcpRecved v.state v.len :: .freed node :: E₁ := by
            cases hnext : v.next with
            | none =>
              simp only [hnext] at h
              obtain ⟨⟨n₁, E₁⟩, hrest, h⟩ := Option.bind_eq_some_iff.mp h
              obtain ⟨rfl, rfl⟩ := Prod.mk.inj (Option.some.inj h)
              have hclose := closePool_heap hrest
              exact ⟨_, E₁, hclose, rfl, rfl⟩
            | some q =>
              simp only [hnext] at h
              obtain ⟨⟨n₁, E₁⟩, hrest, h⟩ := Option.bind_eq_some_iff.mp h
              obtain ⟨rfl, rfl⟩ := Prod.mk.inj (Option.some.inj h)
              have hstart := startPool_heap hrest
              exact ⟨_, E₁, hstart, rfl, rfl⟩
          intro a ha
          rw [hkept.1, hheap] at ha
          have hne : a ≠ node := by
            rintro rfl
            exact ha (Heap.erase_self _ _)
          rw [Heap.erase_ne _ hne] at ha
          refine .inl ⟨ha, fun hin => ?_⟩
          rcases List.mem_cons.mp hin with heq | hin
          · cases heq
          · rcases List.mem_cons.mp hin with heq | hin
            · exact hne (NetEffect.freed.inj heq)
            · exact hkept.2 a hin
    · obtain ⟨rfl, rfl⟩ := Prod.mk.inj (Option.some.inj h)
      exact .of_heap rfl fun _ => List.not_mem_nil

theorem uart1Handler_accounted (n : Net) : Accounted n (uart1Handler n).1 (uart1Handler n).2 := by
  unfold uart1Handler
  split
  · exact .of_heap rfl fun _ => List.not_mem_nil
  · split
    · exact .of_heap rfl fun a hin => by simp at hin
    · exact .of_heap rfl fun a hin => by simp at hin

theorem findPool_heap (h : findPool n ipaddr port = some (n', i)) : n'.heap = n.heap := by
  simp only [findPool] at h
  split at h
  · obtain ⟨rfl, rfl⟩ := Prod.mk.inj (Option.some.inj h)
    rfl
  · split at h
    · obtain ⟨rfl, rfl⟩ := Prod.mk.inj (Option.some.inj h)
      rfl
    · cases h

theorem linkNode_heap (h : linkNode n i node v = some n') (ha : n'.heap a ≠ none) : a = node ∨ n.heap a ≠ none := by
  simp only [linkNode] at h
  split at h
  · obtain rfl := Option.some.inj h
    by_cases hne : a = node
    · exact .inl hne
    · have hheap : n.heap.set node v a ≠ none := ha
      exact .inr (by rwa [Heap.set_ne _ _ hne] at hheap)
  · simp only [Option.bind_eq_bind, Option.bind_eq_some_iff] at h
    obtain ⟨last, -, w, hw, h⟩ := h
    obtain rfl := Option.some.inj h
    by_cases hlast : a = last
    · rw [hlast, hw]
      exact .inr (Option.some_ne_none _)
    · by_cases hne : a = node
      · exact .inl hne
      · have hheap : (n.heap.set node v).set last { w with next := some node } a ≠ none := ha
        exact .inr (by rwa [Heap.set_ne _ _ hlast, Heap.set_ne _ _ hne] at hheap)

theorem life_accepted (past : List NetEffect) : life a (past ++ [.received pcb len, .accepted ipaddr port a data]) ≠ some .free := by
  have hfilter : [NetEffect.received pcb len, .accepted ipaddr port a data].filter (fun e => e.node = some a) =
      [.accepted ipaddr port a data] := by
    simp [NetEffect.node]
  rw [life, List.filter_append, List.foldlM_append, hfilter]
  cases (past.filter fun e => e.node = some a).foldlM Life.next .free with
  | none => simp
  | some l => cases l <;> simp [Life.next]

theorem serverRecvOther_accounted (h : serverRecvOther n pcb ipaddr port p malloc = some (n', E)) : Accounted n n' E := by
  simp only [serverRecvOther] at h
  split at h
  · obtain ⟨rfl, rfl⟩ := Prod.mk.inj (Option.some.inj h)
    exact .of_heap rfl fun a hin => by simp at hin
  · rename_i n₁ i hpool
    have hheap := findPool_heap hpool
    split at h
    · obtain ⟨rfl, rfl⟩ := Prod.mk.inj (Option.some.inj h)
      exact .of_heap hheap fun a hin => by simp at hin
    · obtain ⟨n₂, hlink, h⟩ := Option.bind_eq_some_iff.mp h
      obtain ⟨rfl, rfl⟩ := Prod.mk.inj (Option.some.inj h)
      intro a ha
      rcases linkNode_heap hlink ha with rfl | hn
      · exact .inr life_accepted
      · exact .inl ⟨hheap ▸ hn, fun hin => by simp at hin⟩

end EthernetOta.Firmware
