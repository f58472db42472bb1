import EthernetOta.Firmware.Pools

/-!
# The UART pools in memory

What `Net` keeps of the queues, and one lemma for each function of `network.c`
and for the receive callback: it runs without a fault and refines the queues.
-/

namespace EthernetOta.Firmware

-- ---------------------------------------------------------------------------
-- A queue on the heap
-- ---------------------------------------------------------------------------

def Buf.of (x : Addr × SubData) : Buf := ⟨x.1, x.2.state, x.2.data⟩

def Queue (h : Heap SubData) (p : Option Addr) (bufs : List Buf) : Prop :=
  ∃ l, Heap.Chain SubData.next h p l ∧ l.map Buf.of = bufs ∧ ∀ x ∈ l, x.2.len = x.2.data.length

namespace Queue

variable {h h' : Heap SubData} {p : Option Addr} {bufs bs : List Buf} {b : Buf}

theorem nil : Queue h none [] := ⟨[], .nil, rfl, nofun⟩

theorem eq_none_iff (hq : Queue h p bufs) : p = none ↔ bufs = [] := by
  obtain ⟨l, hc, rfl, -⟩ := hq
  cases hc with
  | nil => exact iff_of_true rfl rfl
  | cons node tail => exact iff_of_false nofun nofun

theorem congr (hq : Queue h p bufs) (hsame : ∀ b ∈ bufs, h' b.node = h b.node) : Queue h' p bufs := by
  obtain ⟨l, hc, rfl, hlen⟩ := hq
  exact ⟨l, hc.congr fun x hx => hsame (Buf.of x) (List.mem_map_of_mem hx), rfl, hlen⟩

theorem fresh (hq : Queue h p bufs) (ha : h a = none) : ∀ b ∈ bufs, b.node ≠ a := by
  obtain ⟨l, hc, rfl, -⟩ := hq
  rintro b hb rfl
  obtain ⟨x, hx, rfl⟩ := List.mem_map.mp hb
  exact hc.fresh ha (List.mem_map_of_mem hx)

theorem nodup (hq : Queue h p bufs) : (bufs.map Buf.node).Nodup := by
  obtain ⟨l, hc, rfl, -⟩ := hq
  rw [List.map_map]
  exact hc.nodup

theorem pop (hq : Queue h p (b :: bs)) : p = some b.node ∧ ∃ v, h b.node = some v ∧
    v.state = b.state ∧ v.data = b.data ∧ v.len = b.data.length ∧ Queue (h.erase b.node) v.next bs := by
  obtain ⟨l, hc, hl, hlen⟩ := hq
  cases hc with
  | nil => exact nomatch hl
  | @cons a v l node tail =>
    obtain ⟨rfl, rfl⟩ := List.cons.inj hl
    refine ⟨rfl, v, node, rfl, rfl, hlen _ (List.mem_cons_self ..), l, ?_, rfl, ?_⟩
    · exact Heap.Chain.pop (.cons node tail)
    · exact fun x hx => hlen x (List.mem_cons_of_mem _ hx)

theorem snoc (hq : Queue h (some first) bufs) (ha : h a = none) (hv : v.next = none)
    (hvlen : v.len = v.data.length) : ∃ last w, h.last SubData.next Heap.walkLimit first = some last ∧
      h last = some w ∧ (∃ b ∈ bufs, b.node = last) ∧
      Queue ((h.set a v).set last { w with next := some a }) (some first) (bufs ++ [Buf.of (a, v)]) := by
  obtain ⟨l, hc, rfl, hlen⟩ := hq
  rcases List.eq_nil_or_concat l with rfl | ⟨l, ⟨last, w⟩, rfl⟩
  · exact nomatch hc
  rw [List.concat_eq_append] at hc hlen ⊢
  have hlimit : l.length < Heap.walkLimit := by
    have hle := hc.length_le
    rw [List.length_append, List.length_singleton] at hle
    exact hle
  refine ⟨last, w, hc.last_eq rfl hlimit, hc.lookup (x := (last, w)) (by simp),
    ⟨Buf.of (last, w), by simp, rfl⟩, _, hc.snoc ha rfl hv, ?_, ?_⟩
  · simp [Buf.of]
  · intro x hx
    simp only [List.mem_append, List.mem_cons, List.not_mem_nil, or_false] at hx
    rcases hx with hx | rfl | rfl
    · exact hlen x (by simp [hx])
    · exact hlen (last, w) (by simp)
    · exact hvlen

end Queue

-- ---------------------------------------------------------------------------
-- The pools in memory
-- ---------------------------------------------------------------------------

structure Rep (n : Net) (f : Pools) : Prop where
  queue : ∀ i, Queue n.heap (n.dataFromEth i).next (f.bufs i)
  dirty : ∀ i, (n.dataFromEth i).dirty = true ↔ f.bufs i ≠ []
  client : ∀ i, f.bufs i ≠ [] → ((n.dataFromEth i).ipaddr, (n.dataFromEth i).port) = f.client i
  ongoing : ∀ i, (n.dataFromEth i).ongoing = true ↔ f.cur = some i ∧ f.sending = true
  cur : n.curPool = f.cur
  pdc : f.sending = false → n.pdc = none
  buffer : ∀ i b bs, f.sending = true → f.cur = some i → f.bufs i = b :: bs → n.pdc = some b.node

def poolsInit : Pools where
  client := fun _ => (0, 0)
  bufs := fun _ => []
  cur := none
  sending := false

theorem told_init : poolsInit.Told remote [] where
  owner := nofun
  fifo _ h := absurd rfl h
  served _ _ := rfl
  flow _ _ h := absurd rfl h
  drained _ _ := rfl
  free _ _ := rfl
  queued := nofun
  head := nofun

theorem ok_init : poolsInit.Ok where
  nodup _ := List.nodup_nil
  apart := nofun
  clients _ _ h := absurd rfl h
  cur := nofun
  sending _ := rfl

theorem rep_init : Rep networkInit poolsInit where
  queue _ := .nil
  dirty _ := iff_of_false nofun fun h => h rfl
  client _ h := absurd rfl h
  ongoing _ := iff_of_false nofun nofun
  cur := rfl
  pdc _ := rfl
  buffer := nofun

def Net.unlink (n : Net) (i : PoolIdx) (node : Addr) (next : Option Addr) : Net :=
  { n with heap := n.heap.erase node }.setPool i { n.dataFromEth i with next := next }

theorem checkUartDataPool_none {n : Net} (cur : n.curPool = none) : checkUartDataPool n = Firmware.nextPool n := by
  rw [checkUartDataPool, cur]

theorem checkUartDataPool_ongoing {n : Net} (cur : n.curPool = some i)
    (dirty : (n.dataFromEth i).dirty = true) (ongoing : (n.dataFromEth i).ongoing = true) :
    checkUartDataPool n = some (n, []) := by
  simp [checkUartDataPool, cur, dirty, ongoing]

theorem checkUartDataPool_last {n : Net} (cur : n.curPool = some i) (dirty : (n.dataFromEth i).dirty = true)
    (ongoing : (n.dataFromEth i).ongoing = false) (first : (n.dataFromEth i).next = some node)
    (hv : n.heap node = some v) (hnext : v.next = none)
    (hclose : closePool (n.unlink i node none) i = some (n', effects)) :
    checkUartDataPool n = some (n', .tcpRecved v.state v.len :: .freed node :: effects) := by
  rw [checkUartDataPool]
  split
  · rename_i hnone
    exact nomatch hnone.symm.trans cur
  · rename_i j hj
    obtain rfl := Option.some.inj (hj.symm.trans cur)
    rw [if_pos dirty, if_neg (by simp [ongoing])]
    split
    · rename_i hnone
      exact nomatch hnone.symm.trans first
    · rename_i a ha
      obtain rfl := Option.some.inj (ha.symm.trans first)
      simp only [hv, Heap.free_some hv, Option.bind_eq_bind, Option.bind_some, hnext]
      rw [Net.unlink] at hclose
      simp only [hclose, Option.bind_some]

theorem checkUartDataPool_next {n : Net} (cur : n.curPool = some i) (dirty : (n.dataFromEth i).dirty = true)
    (ongoing : (n.dataFromEth i).ongoing = false) (first : (n.dataFromEth i).next = some node)
    (hv : n.heap node = some v) (hnext : v.next = some node')
    (hstart : startPool (n.unlink i node (some node')) i node' = some (n', effects)) :
    checkUartDataPool n = some (n', .tcpRecved v.state v.len :: .freed node :: effects) := by
  rw [checkUartDataPool]
  split
  · rename_i hnone
    exact nomatch hnone.symm.trans cur
  · rename_i j hj
    obtain rfl := Option.some.inj (hj.symm.trans cur)
    rw [if_pos dirty, if_neg (by simp [ongoing])]
    split
    · rename_i hnone
      exact nomatch hnone.symm.trans first
    · rename_i a ha
      obtain rfl := Option.some.inj (ha.symm.trans first)
      simp only [hv, Heap.free_some hv, Option.bind_eq_bind, Option.bind_some, hnext]
      rw [Net.unlink] at hstart
      simp only [hstart, Option.bind_some]

theorem linkNode_eq {n : Net} (hq : Queue n.heap (n.dataFromEth i).next bufs) (hnode : n.heap node = none)
    (hv : v.next = none) (hlen : v.len = v.data.length) :
    ∃ n' heap next, linkNode n i node v = some n' ∧
      n'.setPool i { n'.dataFromEth i with dirty := true } =
        { n with heap := heap }.setPool i { n.dataFromEth i with dirty := true, next := next } ∧
      Queue heap next (bufs ++ [Buf.of (node, v)]) ∧
      ∀ a, a ≠ node → (∀ b ∈ bufs, b.node ≠ a) → heap a = n.heap a := by
  cases hnext : (n.dataFromEth i).next with
  | none =>
    rw [hnext] at hq
    obtain rfl := hq.eq_none_iff.mp rfl
    refine ⟨{ n with heap := n.heap.set node v }.setPool i { n.dataFromEth i with next := some node },
      n.heap.set node v, some node, ?_, ?_, ?_, ?_⟩
    · rw [linkNode, hnext]
    · rw [Net.setPool_self, Net.setPool_setPool]
    · refine ⟨[(node, v)], .cons (Heap.set_self _ _ _) (hv ▸ .nil), rfl, ?_⟩
      exact fun x hx => List.mem_singleton.mp hx ▸ hlen
    · exact fun a ha _ => Heap.set_ne _ _ ha
  | some first =>
    rw [hnext] at hq
    obtain ⟨last, w, hlast, hw, ⟨b, hb, rfl⟩, hq'⟩ := hq.snoc hnode hv hlen
    refine ⟨{ n with heap := (n.heap.set node v).set b.node { w with next := some node } },
      (n.heap.set node v).set b.node { w with next := some node }, some first, ?_, ?_, hq', ?_⟩
    · simp only [linkNode, hnext, hlast, hw, Option.bind_eq_bind, Option.bind_some]
    · rw [← hnext]
    · intro a ha hold
      rw [Heap.set_ne _ _ (hold b hb).symm, Heap.set_ne _ _ ha]

namespace Rep

variable {n : Net} {f : Pools} {i : PoolIdx} {b : Buf} {bs : List Buf}

theorem startPool (hr : Rep { n with curPool := none } f) (hcur : n.curPool = some i)
    (hs : f.sending = false) (head : f.bufs i = b :: bs) :
    ∃ n', startPool n i b.node = some (n', [.handed (f.client i).1 (f.client i).2 b.node b.data]) ∧
      Rep n' { f with cur := some i, sending := true } := by
  have hqueue := hr.queue i
  rw [head] at hqueue
  obtain ⟨-, v, node, -, hdata, hlen, -⟩ := hqueue.pop
  have hpdc : n.pdc = none := hr.pdc hs
  have hclient := hr.client i (by simp [head])
  have hbuf : v.data.take v.len = b.data := by rw [hlen, hdata, List.take_length]
  refine ⟨{ n.setPool i { n.dataFromEth i with ongoing := true } with pdc := some b.node }, ?_, ?_⟩
  · have node' : n.heap b.node = some v := node
    rw [← hclient]
    simp [Firmware.startPool, pdcUartSendData, node', hpdc, hbuf]
  constructor
  · exact Net.forall_setPool (P := fun j pool => Queue n.heap pool.next (f.bufs j)) hr.queue id
  · exact Net.forall_setPool (P := fun j pool => pool.dirty = true ↔ f.bufs j ≠ []) hr.dirty id
  · exact Net.forall_setPool
      (P := fun j pool => f.bufs j ≠ [] → (pool.ipaddr, pool.port) = f.client j) hr.client id
  · intro j
    by_cases hji : j = i
    · subst hji
      simp
    · have hold := hr.ongoing j
      simpa [hji, hs, Ne.symm hji] using hold
  · exact hcur
  · exact nofun
  · intro j b' bs' _ hj hhead
    obtain rfl := Option.some.inj hj
    exact congrArg (fun b : Buf => some b.node) (List.cons.inj (head.symm.trans hhead)).1

theorem nextPool (remote : Pcb → Client) (src : Option Pcb) (hr : Rep n f) (hok : f.Ok) (cur : f.cur = none) :
    ∃ n' effects f', nextPool n = some (n', effects) ∧ Pools.Run remote src f effects f' ∧ Rep n' f' ∧
      f'.bufs = f.bufs ∧ (f'.cur = none → ∀ i, f'.bufs i = []) := by
  unfold Firmware.nextPool
  split
  · rename_i hnone
    refine ⟨n, [], f, rfl, .nil, hr, rfl, fun _ i => ?_⟩
    have hdirty := List.find?_eq_none.mp hnone i (List.mem_finRange i)
    exact Decidable.not_not.mp fun hne => hdirty ((hr.dirty i).mpr hne)
  · rename_i i hfind
    have hfound := List.find?_some hfind
    have hdirty := (hr.dirty i).mp hfound
    obtain ⟨b, bs, head⟩ := List.exists_cons_of_ne_nil hdirty
    have hqueue := hr.queue i
    rw [head] at hqueue
    obtain ⟨n', hn', hr'⟩ := Rep.startPool (n := { n with curPool := some i }) (i := i)
      (show Rep { n with curPool := none } f from cur ▸ hr.cur ▸ hr) rfl (hok.sending cur) head
    refine ⟨n', _, _, ?_, .single (.start cur head), hr', rfl, nofun⟩
    simp only [hqueue.pop.1]
    exact hn'

theorem take (hr : Rep n f) (pool : AppFromEth) (hok : f.Ok) (cur : f.cur = some i) (sending : f.sending = false)
    (head : f.bufs i = b :: bs) (node : n.heap b.node = some v) (hnext : pool.next = v.next)
    (hdirty : pool.dirty = true ↔ bs ≠ []) (hclient : bs ≠ [] → (pool.ipaddr, pool.port) = f.client i)
    (hongoing : pool.ongoing = false) :
    Rep { { n with heap := n.heap.erase b.node }.setPool i pool with curPool := none } (f.pop i) := by
  have hqueue := hr.queue i
  rw [head] at hqueue
  obtain ⟨-, w, node', -, -, -, hrest⟩ := hqueue.pop
  obtain rfl := Option.some.inj (node.symm.trans node')
  constructor
  · intro j
    by_cases hji : j = i
    · subst hji
      simpa [Pools.pop, head, hnext] using hrest
    · simp only [Net.setPool_ne _ _ _ hji, Net.setPool_heap, Pools.pop, Function.update_of_ne hji]
      refine (hr.queue j).congr fun b' hb' => Heap.erase_ne _ ?_
      exact hok.apart j i hji b' hb' b (by simp [head])
  · intro j
    by_cases hji : j = i
    · subst hji
      simpa [Pools.pop, head] using hdirty
    · simpa [Pools.pop, hji] using hr.dirty j
  · intro j hj
    by_cases hji : j = i
    · subst hji
      simpa using hclient (by simpa [Pools.pop, head] using hj)
    · simpa [hji] using hr.client j (by simpa [Pools.pop, hji] using hj)
  · intro j
    by_cases hji : j = i
    · subst hji
      simp [hongoing, Pools.pop]
    · have hold := hr.ongoing j
      simpa [hji, sending, Pools.pop] using hold
  · rfl
  · exact fun _ => hr.pdc sending
  · exact fun _ _ _ _ h => absurd h.symm (Option.some_ne_none _)

theorem sent (remote : Pcb → Client) (src : Option Pcb) (hr : Rep n f) (hok : f.Ok) (cur : f.cur = some i) (sending : f.sending = false) :
    ∃ n' effects f', checkUartDataPool n = some (n', effects) ∧ Pools.Run remote src f effects f' ∧ Rep n' f' ∧
      f'.bufs = f.waiting ∧ (f'.cur = none → ∀ i, f'.bufs i = []) := by
  have hbufs := hok.cur i cur
  have hdirty := (hr.dirty i).mpr hbufs
  have hongoing : (n.dataFromEth i).ongoing = false := by
    refine Bool.eq_false_iff.mpr fun h => ?_
    exact nomatch sending.symm.trans ((hr.ongoing i).mp h).2
  obtain ⟨b, bs, head⟩ := List.exists_cons_of_ne_nil hbufs
  have hqueue := hr.queue i
  rw [head] at hqueue
  obtain ⟨first, v, node, hstate, -, hlen, hrest⟩ := hqueue.pop
  have htake : Pools.Step remote src f _ (f.pop i) := .take cur sending head
  have hwait : (f.pop i).bufs = f.waiting := funext fun j => (Pools.waiting_of_cur cur).symm
  rw [← hstate, ← hlen] at htake
  cases hn : v.next with
  | none =>
    rw [hn] at hrest
    obtain rfl := hrest.eq_none_iff.mp rfl
    obtain ⟨n', effects, f', hclose, hrun, hr', hbufs', hempty⟩ := nextPool remote src
      (hr.take { n.dataFromEth i with dirty := false, ipaddr := 0, port := 0, next := none }
        hok cur sending head node hn.symm (iff_of_false nofun fun h => h rfl) (fun h => absurd rfl h)
        hongoing)
      (hok.step htake) rfl
    refine ⟨n', _, f', ?_, .cons htake hrun, hr', hbufs'.trans hwait, hempty⟩
    refine checkUartDataPool_last (hr.cur.trans cur) hdirty hongoing first node hn ?_
    rw [closePool, Net.unlink, Net.setPool_setPool, Net.setPool_self]
    exact hclose
  | some a =>
    rw [hn] at hrest
    have hbs : bs ≠ [] := fun h => nomatch hrest.eq_none_iff.mpr h
    obtain ⟨b', bs', rfl⟩ := List.exists_cons_of_ne_nil hbs
    obtain rfl := Option.some.inj hrest.pop.1
    have htaken := hr.take { n.dataFromEth i with next := some b'.node } hok cur sending head node
      hn.symm (iff_of_true hdirty hbs) (fun _ => hr.client i hbufs) hongoing
    have head' : (f.pop i).bufs i = b' :: bs' := by simp [Pools.pop, head]
    obtain ⟨n', hstart, hr'⟩ := Rep.startPool (n := n.unlink i b.node (some b'.node))
      (f := f.pop i) (i := i) htaken (hr.cur.trans cur) sending head'
    refine ⟨n', _, _, ?_, .cons htake (.single (.start rfl head')), hr', hwait,
      fun h => absurd h (Option.some_ne_none _)⟩
    exact checkUartDataPool_next (hr.cur.trans cur) hdirty hongoing first node hn hstart

theorem poll (remote : Pcb → Client) (src : Option Pcb) (hr : Rep n f) (hok : f.Ok) :
    ∃ n' effects f', checkUartDataPool n = some (n', effects) ∧ Pools.Run remote src f effects f' ∧ Rep n' f' ∧
      (f.sending = false → f'.bufs = f.waiting ∧ (f'.cur = none → ∀ i, f'.bufs i = [])) := by
  cases cur : f.cur with
  | none =>
    obtain ⟨n', effects, f', hn', hrun, hr', hbufs, hempty⟩ := hr.nextPool remote src hok cur
    refine ⟨n', effects, f', (checkUartDataPool_none (hr.cur.trans cur)).trans hn', hrun, hr', fun _ => ?_⟩
    exact ⟨hbufs.trans (funext fun i => (Pools.waiting_of_none cur).symm), hempty⟩
  | some i =>
    cases sending : f.sending with
    | true =>
      refine ⟨n, [], f, checkUartDataPool_ongoing (hr.cur.trans cur) ?_ ?_, .nil, hr, nofun⟩
      · exact (hr.dirty i).mpr (hok.cur i cur)
      · exact (hr.ongoing i).mpr ⟨cur, sending⟩
    | false =>
      obtain ⟨n', effects, f', hn', hrun, hr', hrest⟩ := hr.sent remote src hok cur sending
      exact ⟨n', effects, f', hn', hrun, hr', fun _ => hrest⟩

theorem interrupt (remote : Pcb → Client) (src : Option Pcb) (hr : Rep n f) (hok : f.Ok) :
    ∃ effects, (uart1Handler n).2 = effects ∧ Pools.Run remote src f effects { f with sending := false } ∧
      Rep (uart1Handler n).1 { f with sending := false } := by
  refine ⟨_, rfl, ?_⟩
  cases sending : f.sending with
  | false =>
    have hsame : f = { f with sending := false } := by rw [← sending]
    rw [← hsame]
    simp only [uart1Handler, hr.pdc sending]
    exact ⟨.nil, hr⟩
  | true =>
    obtain ⟨i, cur⟩ := Option.ne_none_iff_exists'.mp fun h => nomatch sending.symm.trans (hok.sending h)
    obtain ⟨b, bs, head⟩ := List.exists_cons_of_ne_nil (hok.cur i cur)
    simp only [uart1Handler, hr.buffer i b bs sending cur head, hr.cur.trans cur]
    refine ⟨.single (.endTx cur sending head), ?_⟩
    constructor
    · exact Net.forall_setPool (P := fun j pool => Queue n.heap pool.next (f.bufs j)) hr.queue id
    · exact Net.forall_setPool (P := fun j pool => pool.dirty = true ↔ f.bufs j ≠ []) hr.dirty id
    · exact Net.forall_setPool
        (P := fun j pool => f.bufs j ≠ [] → (pool.ipaddr, pool.port) = f.client j) hr.client id
    · intro j
      by_cases hji : j = i
      · subst hji
        simp
      · have hold := hr.ongoing j
        simpa [hji, cur, Ne.symm hji] using hold
    · exact hr.cur
    · exact fun _ => rfl
    · exact fun _ _ _ => nofun

/-- The pool `findPool` gives is the only one with data of the client, if any is. -/
theorem findPool (hr : Rep n f) (hok : f.Ok) (h : findPool n ipaddr port = some (n', i)) :
    Rep n' f ∧ (n'.dataFromEth i).ipaddr = ipaddr ∧ (n'.dataFromEth i).port = port ∧ n'.heap = n.heap ∧
      ∀ j, f.bufs j ≠ [] → (f.client j = (ipaddr, port) ↔ j = i) := by
  unfold Firmware.findPool at h
  dsimp only at h
  split at h
  · rename_i k hfind
    obtain ⟨rfl, rfl⟩ := Prod.mk.inj (Option.some.inj h)
    have hfound := List.find?_some hfind
    simp only [Bool.and_eq_true, beq_iff_eq] at hfound
    have hbufs := (hr.dirty k).mp hfound.1.1
    have hclient : f.client k = (ipaddr, port) := by rw [← hr.client k hbufs, hfound.1.2, hfound.2]
    refine ⟨hr, hfound.1.2, hfound.2, rfl, fun j hj => ⟨fun hown => ?_, fun heq => heq ▸ hclient⟩⟩
    exact hok.clients j k hj hbufs (hown.trans hclient.symm)
  rename_i hnone
  split at h
  · rename_i k hfind
    obtain ⟨rfl, rfl⟩ := Prod.mk.inj (Option.some.inj h)
    have hclean : f.bufs k = [] := by
      have hfound := List.find?_some hfind
      exact Decidable.not_not.mp fun hne => by simp [(hr.dirty k).mpr hne] at hfound
    refine ⟨?_, by simp, by simp, rfl, fun j hj => iff_of_false ?_ ?_⟩
    · constructor
      · exact Net.forall_setPool (P := fun j pool => Queue n.heap pool.next (f.bufs j)) hr.queue id
      · exact Net.forall_setPool (P := fun j pool => pool.dirty = true ↔ f.bufs j ≠ []) hr.dirty id
      · intro j hj
        have hjk : j ≠ k := fun heq => hj (heq ▸ hclean)
        simpa [hjk] using hr.client j hj
      · exact Net.forall_setPool
          (P := fun j pool => pool.ongoing = true ↔ f.cur = some j ∧ f.sending = true) hr.ongoing id
      · exact hr.cur
      · exact hr.pdc
      · exact hr.buffer
    · intro hown
      have hj' := List.find?_eq_none.mp hnone j (List.mem_finRange j)
      have hclient := hr.client j hj
      rw [hown, Prod.mk.injEq] at hclient
      simp [(hr.dirty j).mpr hj, hclient.1, hclient.2] at hj'
    · exact fun heq => hj (heq ▸ hclean)
  · exact nomatch h

theorem put (hr : Rep n f) (hok : f.Ok) (hclient : ((n.dataFromEth i).ipaddr, (n.dataFromEth i).port) = c)
    (hq : Queue heap next (f.bufs i ++ [b])) (hfresh : ∀ j, ∀ b' ∈ f.bufs j, b'.node ≠ b.node)
    (hframe : ∀ a, a ≠ b.node → (∀ b' ∈ f.bufs i, b'.node ≠ a) → heap a = n.heap a) :
    Rep ({ n with heap := heap }.setPool i { n.dataFromEth i with dirty := true, next := next })
      (f.put i c b) := by
  constructor
  · intro j
    by_cases hji : j = i
    · subst hji
      simpa [Pools.put] using hq
    · simp only [Net.setPool_ne _ _ _ hji, Net.setPool_heap, Pools.put, Function.update_of_ne hji]
      refine (hr.queue j).congr fun b' hb' => hframe b'.node (hfresh j b' hb') fun b'' hb'' => ?_
      exact hok.apart i j (Ne.symm hji) b'' hb'' b' hb'
  · intro j
    by_cases hji : j = i
    · subst hji
      simp [Pools.put]
    · simpa [Pools.put, hji] using hr.dirty j
  · intro j hj
    by_cases hji : j = i
    · subst hji
      simpa [Pools.put] using hclient
    · simpa [Pools.put, hji] using hr.client j (by simpa [Pools.put, hji] using hj)
  · exact Net.forall_setPool (P := fun j pool => pool.ongoing = true ↔ f.cur = some j ∧ f.sending = true)
      hr.ongoing id
  · exact hr.cur
  · exact hr.pdc
  · intro j b' bs' sending cur head
    obtain ⟨b'', bs'', hold⟩ := List.exists_cons_of_ne_nil (hok.cur j cur)
    have hb : b'' = b' := by
      by_cases hji : j = i
      · subst hji
        simp only [Pools.put, Function.update_self, hold, List.cons_append, List.cons.injEq] at head
        exact head.1
      · simp only [Pools.put, Function.update_of_ne hji, hold, List.cons.injEq] at head
        exact head.1
    exact hr.buffer j b' bs'' sending cur (hb ▸ hold)

theorem recv (remote : Pcb → Client) (pcb : Pcb) (hr : Rep n f) (hok : f.Ok) (malloc : Heap.Malloc SubData) (p : PbufChain) :
    ∃ n' effects f', serverRecvOther n pcb (remote pcb).1 (remote pcb).2 p malloc = some (n', effects) ∧
      Pools.Run remote (some pcb) f effects f' ∧ Rep n' f' := by
  cases hpool : Firmware.findPool n (remote pcb).1 (remote pcb).2 with
  | none =>
    refine ⟨n, [.received pcb p.totLen, .tcpRecved pcb p.totLen], f, ?_, .single (.drop f), hr⟩
    simp only [serverRecvOther, hpool]
  | some pool =>
    obtain ⟨n₁, i⟩ := pool
    obtain ⟨hr₁, hip, hport, hheap, hown⟩ := hr.findPool hok hpool
    cases hmalloc : malloc.run n₁.heap with
    | none =>
      refine ⟨n₁, [.received pcb p.totLen, .tcpRecved pcb p.totLen], f, ?_, .single (.drop f), hr₁⟩
      simp only [serverRecvOther, hpool, hmalloc]
    | some node =>
      have hnode := malloc.fresh hmalloc
      have hfresh := fun j => (hr₁.queue j).fresh hnode
      obtain ⟨n', heap, next, hlink, hdirty, hq, hframe⟩ := linkNode_eq (hr₁.queue i) hnode
        (v := { len := p.totLen, data := p.flatten, state := pcb, next := none }) rfl (by simp [PbufChain.totLen])
      refine ⟨_, _, _, ?_, .single (.accept hown hfresh), hr₁.put hok (Prod.ext hip hport) hq hfresh hframe⟩
      simp only [serverRecvOther, hpool, hmalloc, hlink, Option.bind_eq_bind, Option.bind_some, hdirty]
      simp [PbufChain.totLen, List.length_flatten]

end Rep

end EthernetOta.Firmware
