import Mathlib.Algebra.Order.Ring.Nat
import Mathlib.Logic.Function.Basic
import EthernetOta.Firmware.Network

/-!
# What the UART pools are for

One queue of payloads for each client, and one transfer at a time: the payload
at the head of the current queue is sent, then its buffer is freed. The
history says which payload of whom has come, was sent and was freed.
-/

namespace EthernetOta.Firmware

abbrev Client := Word × Half

structure Buf where
  node : Addr
  state : Pcb
  data : List Byte

structure Pools where
  client : PoolIdx → Client
  bufs : PoolIdx → List Buf
  cur : Option PoolIdx
  sending : Bool

-- ---------------------------------------------------------------------------
-- Histories
-- ---------------------------------------------------------------------------

def acceptedFrom (c : Client) (effects : List NetEffect) : List (List Byte) :=
  effects.flatMap fun
    | .accepted ipaddr port _ data => if (ipaddr, port) = c then [data] else []
    | _ => []

def handedFrom (c : Client) (effects : List NetEffect) : List (List Byte) :=
  effects.flatMap fun
    | .handed ipaddr port _ data => if (ipaddr, port) = c then [data] else []
    | _ => []

def receivedOn (pcb : Pcb) (effects : List NetEffect) : Nat :=
  (effects.map fun
    | .received p len => if p = pcb then len else 0
    | _ => 0).sum

def tcpRecvedOn (pcb : Pcb) (effects : List NetEffect) : Nat :=
  (effects.map fun
    | .tcpRecved p len => if p = pcb then len else 0
    | _ => 0).sum

/-- The life of a node, from `mem_malloc` to `mem_free`. -/
inductive Life
  | free
  | queued
  | sending
  | sent
  deriving DecidableEq, Repr

def Life.next : Life → NetEffect → Option Life
  | .free, .accepted .. => some .queued
  | .queued, .handed .. => some .sending
  | .sending, .endTx _ => some .sent
  | .sent, .freed _ => some .free
  | _, _ => none

def NetEffect.node : NetEffect → Option Addr
  | .received .. | .tcpRecved .. => none
  | .accepted _ _ node _ | .handed _ _ node _ | .endTx node | .freed node => some node

/-- Where a node stands, or `none` after something out of turn. -/
def life (node : Addr) (effects : List NetEffect) : Option Life :=
  (effects.filter fun e => e.node = some node).foldlM Life.next .free

@[simp] theorem acceptedFrom_append (c : Client) (a b : List NetEffect) :
    acceptedFrom c (a ++ b) = acceptedFrom c a ++ acceptedFrom c b := List.flatMap_append

@[simp] theorem handedFrom_append (c : Client) (a b : List NetEffect) :
    handedFrom c (a ++ b) = handedFrom c a ++ handedFrom c b := List.flatMap_append

@[simp] theorem receivedOn_append (pcb : Pcb) (a b : List NetEffect) :
    receivedOn pcb (a ++ b) = receivedOn pcb a + receivedOn pcb b := by
  rw [receivedOn, List.map_append, List.sum_append]
  rfl

@[simp] theorem tcpRecvedOn_append (pcb : Pcb) (a b : List NetEffect) :
    tcpRecvedOn pcb (a ++ b) = tcpRecvedOn pcb a + tcpRecvedOn pcb b := by
  rw [tcpRecvedOn, List.map_append, List.sum_append]
  rfl

theorem life_append (h : life node a = some l) :
    life node (a ++ b) = (b.filter fun e => e.node = some node).foldlM Life.next l := by
  rw [life] at h
  rw [life, List.filter_append, List.foldlM_append, h]
  rfl

theorem life_other (h : life node a = some l) (hb : ∀ e ∈ b, e.node ≠ some node) :
    life node (a ++ b) = some l := by
  have hnone : (b.filter fun e => e.node = some node) = [] :=
    List.filter_eq_nil_iff.mpr fun e he => by simpa using hb e he
  rw [life_append h, hnone]
  rfl

theorem life_last (h : life node a = some l) (hb : ∀ e ∈ b, e.node ≠ some node)
    (he : e.node = some node) : life node (a ++ (b ++ [e])) = l.next e := by
  have hnone : (b.filter fun e => e.node = some node) = [] :=
    List.filter_eq_nil_iff.mpr fun e he => by simpa using hb e he
  rw [life_append h, List.filter_append, hnone, List.filter_cons_of_pos (by simpa using he)]
  exact bind_pure _

-- ---------------------------------------------------------------------------
-- Steps
-- ---------------------------------------------------------------------------

namespace Pools

structure Ok (f : Pools) : Prop where
  nodup : ∀ i, ((f.bufs i).map Buf.node).Nodup
  apart : ∀ i j, i ≠ j → ∀ b ∈ f.bufs i, ∀ b' ∈ f.bufs j, b.node ≠ b'.node
  clients : ∀ i j, f.bufs i ≠ [] → f.bufs j ≠ [] → f.client i = f.client j → i = j
  cur : ∀ i, f.cur = some i → f.bufs i ≠ []
  sending : f.cur = none → f.sending = false

def put (f : Pools) (i : PoolIdx) (c : Client) (b : Buf) : Pools :=
  { f with client := Function.update f.client i c, bufs := Function.update f.bufs i (f.bufs i ++ [b]) }

def pop (f : Pools) (i : PoolIdx) : Pools :=
  { f with bufs := Function.update f.bufs i (f.bufs i).tail, cur := none }

@[simp] theorem pop_client (f : Pools) (i : PoolIdx) : (f.pop i).client = f.client := rfl

theorem put_other (f : Pools) (hji : j ≠ i) : (f.put i c b).bufs j = f.bufs j := by simp [put, hji]

theorem mem_put {f : Pools} (hb : b ∈ (f.put i c b').bufs j) : b ∈ f.bufs j ∨ j = i ∧ b = b' := by
  by_cases hji : j = i
  · subst hji
    simpa [put] using hb
  · exact .inl (put_other f hji ▸ hb)

theorem pop_other (f : Pools) (hji : j ≠ i) : (f.pop i).bufs j = f.bufs j := by simp [pop, hji]

theorem mem_of_pop {f : Pools} (hb : b ∈ (f.pop i).bufs j) : b ∈ f.bufs j := by
  by_cases hji : j = i
  · subst hji
    simp only [pop, Function.update_self] at hb
    exact List.mem_of_mem_tail hb
  · rwa [pop_other f hji] at hb

theorem ne_nil_of_pop {f : Pools} (hj : (f.pop i).bufs j ≠ []) : f.bufs j ≠ [] := by
  obtain ⟨b, hb⟩ := List.exists_mem_of_ne_nil _ hj
  exact List.ne_nil_of_mem (mem_of_pop hb)

inductive Step (remote : Pcb → Client) : Option Pcb → Pools → List NetEffect → Pools → Prop
  | drop (f : Pools) : Step remote (some pcb) f [.received pcb len, .tcpRecved pcb len] f
  | accept {f : Pools} {pcb : Pcb} {i : PoolIdx} {node : Addr} {data : List Byte}
      (own : ∀ j, f.bufs j ≠ [] → (f.client j = remote pcb ↔ j = i))
      (fresh : ∀ j, ∀ b ∈ f.bufs j, b.node ≠ node) :
    Step remote (some pcb) f [.received pcb data.length, .accepted (remote pcb).1 (remote pcb).2 node data]
      (f.put i (remote pcb) ⟨node, pcb, data⟩)
  | start {f : Pools} {i : PoolIdx} {b : Buf} {bs : List Buf} (cur : f.cur = none) (head : f.bufs i = b :: bs) :
    Step remote src f [.handed (f.client i).1 (f.client i).2 b.node b.data]
      { f with cur := some i, sending := true }
  | endTx {f : Pools} {i : PoolIdx} {b : Buf} {bs : List Buf} (cur : f.cur = some i)
      (sending : f.sending = true) (head : f.bufs i = b :: bs) :
    Step remote src f [.endTx b.node] { f with sending := false }
  | take {f : Pools} {i : PoolIdx} {b : Buf} {bs : List Buf} (cur : f.cur = some i)
      (sending : f.sending = false) (head : f.bufs i = b :: bs) :
    Step remote src f [.tcpRecved b.state b.data.length, .freed b.node] (f.pop i)

inductive Run (remote : Pcb → Client) (src : Option Pcb) : Pools → List NetEffect → Pools → Prop
  | nil : Run remote src f [] f
  | cons (step : Step remote src f effects f') (run : Run remote src f' rest f'') :
    Run remote src f (effects ++ rest) f''

theorem Run.single (h : Step remote src f effects f') : Run remote src f effects f' := by
  have hrun := Run.cons h .nil
  rwa [List.append_nil] at hrun

theorem Ok.put {f : Pools} {b : Buf} (hf : f.Ok) (own : ∀ j, f.bufs j ≠ [] → (f.client j = c ↔ j = i))
    (fresh : ∀ j, ∀ b' ∈ f.bufs j, b'.node ≠ b.node) : (f.put i c b).Ok := by
  constructor
  · intro j
    by_cases hj : j = i
    · subst hj
      simp only [Pools.put, Function.update_self, List.map_append, List.map_cons, List.map_nil]
      refine List.nodup_append.mpr ⟨hf.nodup j, List.nodup_singleton _, ?_⟩
      intro a ha a' ha'
      obtain ⟨b', hb', rfl⟩ := List.mem_map.mp ha
      rw [List.mem_singleton.mp ha']
      exact fresh j b' hb'
    · rw [put_other f hj]
      exact hf.nodup j
  · intro j k hjk b₁ hb₁ b₂ hb₂
    rcases mem_put hb₁ with hold | ⟨hji, rfl⟩ <;> rcases mem_put hb₂ with hold' | ⟨hki, rfl⟩
    · exact hf.apart j k hjk b₁ hold b₂ hold'
    · exact fresh j b₁ hold
    · exact (fresh k b₂ hold').symm
    · exact absurd (hji.trans hki.symm) hjk
  · intro j k hj hk heq
    by_cases hji : j = i <;> by_cases hki : k = i
    · rw [hji, hki]
    · simp only [Pools.put, hji, Function.update_self, Function.update_of_ne hki] at hk heq
      exact absurd ((own k hk).mp heq.symm) hki
    · simp only [Pools.put, hki, Function.update_self, Function.update_of_ne hji] at hj heq
      exact absurd ((own j hj).mp heq) hji
    · simp only [Pools.put, Function.update_of_ne hji, Function.update_of_ne hki] at hj hk heq
      exact hf.clients j k hj hk heq
  · intro j hj
    by_cases hji : j = i
    · simp [Pools.put, hji]
    · rw [put_other f hji]
      exact hf.cur j hj
  · exact hf.sending

theorem Ok.pop {f : Pools} (hf : f.Ok) (sending : f.sending = false) : (f.pop i).Ok := by
  refine ⟨?_, ?_, fun j k hj hk => hf.clients j k (ne_nil_of_pop hj) (ne_nil_of_pop hk), nofun, fun _ => sending⟩
  · intro j
    by_cases hj : j = i
    · subst hj
      simp only [Pools.pop, Function.update_self]
      exact (hf.nodup j).sublist ((List.tail_sublist _).map _)
    · rw [pop_other f hj]
      exact hf.nodup j
  · exact fun j k hjk b hb b' hb' => hf.apart j k hjk b (mem_of_pop hb) b' (mem_of_pop hb')

theorem Ok.step (hf : f.Ok) (hs : Step remote src f effects f') : f'.Ok := by
  cases hs with
  | drop => exact hf
  | accept own fresh => exact hf.put own fresh
  | @start _ _ i b bs cur head =>
    refine ⟨hf.nodup, hf.apart, hf.clients, ?_, nofun⟩
    intro j hj
    obtain rfl := Option.some.inj hj
    rw [head]
    exact List.cons_ne_nil _ _
  | endTx cur sending head => exact ⟨hf.nodup, hf.apart, hf.clients, hf.cur, fun _ => rfl⟩
  | take cur sending head => exact hf.pop sending

theorem Ok.run (hf : f.Ok) (hr : Run remote src f effects f') : f'.Ok := by
  induction hr with
  | nil => exact hf
  | cons step _ ih => exact ih (hf.step step)

theorem Ok.idle {f : Pools} (hf : f.Ok) : Ok { f with sending := false } :=
  ⟨hf.nodup, hf.apart, hf.clients, hf.cur, fun _ => rfl⟩

/-- Only connections with a payload in a pool, or with data that has just come, are told of theirs. -/
theorem Run.states {f f' : Pools} {P : Pcb → Prop} (h : Run remote src f effects f')
    (hsrc : ∀ pcb, src = some pcb → P pcb) (hf : ∀ i, ∀ b ∈ f.bufs i, P b.state) :
    (∀ pcb len, .tcpRecved pcb len ∈ effects → P pcb) ∧ ∀ i, ∀ b ∈ f'.bufs i, P b.state := by
  induction h with
  | nil => exact ⟨fun _ _ => nofun, hf⟩
  | @cons f effects f' rest f'' step _ ih =>
    have hstep : (∀ pcb len, .tcpRecved pcb len ∈ effects → P pcb) ∧ ∀ i, ∀ b ∈ f'.bufs i, P b.state := by
      cases step with
      | drop =>
        refine ⟨fun p len hmem => ?_, hf⟩
        simp only [List.mem_cons, reduceCtorEq, NetEffect.tcpRecved.injEq, List.not_mem_nil, or_false,
          false_or] at hmem
        exact hmem.1 ▸ hsrc _ rfl
      | @accept _ pcb i node data own fresh =>
        refine ⟨fun p len hmem => by simp at hmem, fun j b hb => ?_⟩
        by_cases hji : j = i
        · subst hji
          simp only [put, Function.update_self, List.mem_append, List.mem_singleton] at hb
          rcases hb with hb | rfl
          · exact hf j b hb
          · exact hsrc _ rfl
        · simp only [put, Function.update_of_ne hji] at hb
          exact hf j b hb
      | start cur head => exact ⟨fun p len hmem => by simp at hmem, hf⟩
      | endTx cur sending head => exact ⟨fun p len hmem => by simp at hmem, hf⟩
      | @take _ _ i b bs cur sending head =>
        refine ⟨fun p len hmem => ?_, fun j b' hb' => ?_⟩
        · simp only [List.mem_cons, reduceCtorEq, NetEffect.tcpRecved.injEq, List.not_mem_nil,
            or_false] at hmem
          exact hmem.1 ▸ hf i b (by simp [head])
        · by_cases hji : j = i
          · subst hji
            simp only [pop, Function.update_self] at hb'
            exact hf j b' (List.mem_of_mem_tail hb')
          · simp only [pop, Function.update_of_ne hji] at hb'
            exact hf j b' hb'
    obtain ⟨hrest, hend⟩ := ih hstep.2
    refine ⟨fun pcb len hmem => ?_, hend⟩
    rcases List.mem_append.mp hmem with hmem | hmem
    · exact hstep.1 pcb len hmem
    · exact hrest pcb len hmem

-- ---------------------------------------------------------------------------
-- The history of the pools
-- ---------------------------------------------------------------------------

/-- What is queued in a pool and was not handed to the PDC. -/
def waiting (f : Pools) (i : PoolIdx) : List Buf := if f.cur = some i then (f.bufs i).tail else f.bufs i

def queuedBytes (pcb : Pcb) (bufs : List Buf) : Nat :=
  (bufs.map fun b => if b.state = pcb then b.data.length else 0).sum

def Lacks (f : Pools) (c : Client) : Prop := ∀ i, f.bufs i ≠ [] → f.client i ≠ c

theorem Run.append (h : Run remote src f effects f') (h' : Run remote src f' rest f'') :
    Run remote src f (effects ++ rest) f'' := by
  induction h with
  | nil => exact h'
  | cons step _ ih =>
    rw [List.append_assoc]
    exact .cons step (ih h')

structure Told (remote : Pcb → Client) (past : List NetEffect) (f : Pools) : Prop where
  owner : ∀ i, ∀ b ∈ f.bufs i, remote b.state = f.client i
  fifo : ∀ i, f.bufs i ≠ [] →
    acceptedFrom (f.client i) past = handedFrom (f.client i) past ++ (f.waiting i).map Buf.data
  served : ∀ c, f.Lacks c → acceptedFrom c past = handedFrom c past
  flow : ∀ pcb i, f.bufs i ≠ [] → f.client i = remote pcb →
    receivedOn pcb past = tcpRecvedOn pcb past + queuedBytes pcb (f.bufs i)
  drained : ∀ pcb, f.Lacks (remote pcb) → receivedOn pcb past = tcpRecvedOn pcb past
  free : ∀ node, (∀ i, ∀ b ∈ f.bufs i, b.node ≠ node) → life node past = some .free
  queued : ∀ i, ∀ b ∈ f.waiting i, life b.node past = some .queued
  head : ∀ i b bs, f.cur = some i → f.bufs i = b :: bs →
    life b.node past = some (if f.sending then .sending else .sent)

@[simp] theorem waiting_sending (f : Pools) (sending : Bool) :
    waiting { f with sending := sending } i = f.waiting i := rfl

theorem waiting_of_cur {f : Pools} (h : f.cur = some i) :
    f.waiting j = Function.update f.bufs i (f.bufs i).tail j := by
  by_cases hj : j = i
  · subst hj
    rw [waiting, if_pos h, Function.update_self]
  · have hne : ¬ f.cur = some j := fun heq => hj (Option.some.inj (heq.symm.trans h))
    rw [waiting, if_neg hne, Function.update_of_ne hj]

theorem mem_of_waiting {f : Pools} (hb : b ∈ f.waiting i) : b ∈ f.bufs i := by
  unfold waiting at hb
  split at hb
  · exact List.mem_of_mem_tail hb
  · exact hb

theorem waiting_of_none {f : Pools} (h : f.cur = none) : f.waiting j = f.bufs j :=
  if_neg (by simp [h])

theorem Ok.head_ne {f : Pools} (hok : f.Ok) (head : f.bufs i = b :: bs)
    (hb : b' ∈ Function.update f.bufs i (f.bufs i).tail j) : b.node ≠ b'.node := by
  by_cases hj : j = i
  · subst hj
    have hnodup := hok.nodup j
    rw [head, List.map_cons] at hnodup
    rw [Function.update_self, head, List.tail_cons] at hb
    exact fun heq => (List.nodup_cons.mp hnodup).1 (heq ▸ List.mem_map_of_mem hb)
  · rw [Function.update_of_ne hj] at hb
    exact hok.apart i j (Ne.symm hj) b (by simp [head]) b' hb

theorem Told.drop {f : Pools} (ht : f.Told remote past) :
    f.Told remote (past ++ [.received pcb len, .tcpRecved pcb len]) := by
  have hother : ∀ node, ∀ e ∈ [NetEffect.received pcb len, .tcpRecved pcb len], e.node ≠ some node := by
    simp [NetEffect.node]
  constructor
  · exact ht.owner
  · intro j hj
    simpa [acceptedFrom, handedFrom] using ht.fifo j hj
  · intro c hc
    simpa [acceptedFrom, handedFrom] using ht.served c hc
  · intro p j hj hown
    have hflow := ht.flow p j hj hown
    simp only [receivedOn_append, tcpRecvedOn_append]
    simp only [receivedOn, tcpRecvedOn, List.map_cons, List.map_nil, List.sum_cons, List.sum_nil] at hflow ⊢
    omega
  · intro p hc
    rw [receivedOn_append, tcpRecvedOn_append, ht.drained p hc]
    simp [receivedOn, tcpRecvedOn]
  · exact fun node hnode => life_other (ht.free node hnode) (hother node)
  · exact fun j b hb => life_other (ht.queued j b hb) (hother b.node)
  · exact fun j b bs hj hhead => life_other (ht.head j b bs hj hhead) (hother b.node)

-- ---------------------------------------------------------------------------
-- A payload comes
-- ---------------------------------------------------------------------------

section
variable {remote : Pcb → Client} {f : Pools} {i j : PoolIdx} {pcb : Pcb} {node : Addr} {data : List Byte}

theorem waiting_put_self (hok : f.Ok) : (f.put i c b).waiting i = f.waiting i ++ [b] := by
  by_cases hcur : f.cur = some i
  · simp [waiting, put, hcur, List.tail_append_of_ne_nil (hok.cur i hcur)]
  · simp [waiting, put, hcur]

theorem waiting_put_other (f : Pools) (hji : j ≠ i) : (f.put i c b).waiting j = f.waiting j := by
  simp [waiting, put, hji]

theorem accept_node (remote : Pcb → Client) (hne : a ≠ node) : ∀ e ∈ [NetEffect.received pcb data.length,
    .accepted (remote pcb).1 (remote pcb).2 node data], e.node ≠ some a := by
  intro e he
  rcases List.mem_cons.mp he with rfl | he
  · exact nofun
  · rw [List.mem_singleton.mp he]
    exact fun heq => hne (Option.some.inj heq).symm

section
variable (own : ∀ j, f.bufs j ≠ [] → (f.client j = remote pcb ↔ j = i))
include own

theorem lacks_of_nil (hi : f.bufs i = []) : f.Lacks (remote pcb) := by
  intro j hj heq
  exact hj ((own j hj).mp heq ▸ hi)

theorem client_ne (hji : j ≠ i) (hj : f.bufs j ≠ []) : remote pcb ≠ f.client j :=
  fun heq => hji ((own j hj).mp heq.symm)

theorem put_lacks (hc : (f.put i (remote pcb) b).Lacks c) : remote pcb ≠ c ∧ f.Lacks c := by
  have hi : remote pcb ≠ c := by simpa [put] using hc i (by simp [put])
  refine ⟨hi, fun j hj heq => ?_⟩
  by_cases hji : j = i
  · exact hi (((own j hj).mpr hji).symm.trans heq)
  · exact hc j (by simpa [put, hji] using hj) (by simpa [put, hji] using heq)

theorem Told.accept_owner (ht : f.Told remote past) (hb : b ∈ (f.put i (remote pcb) ⟨node, pcb, data⟩).bufs j) :
    remote b.state = (f.put i (remote pcb) ⟨node, pcb, data⟩).client j := by
  by_cases hji : j = i
  · subst hji
    simp only [put, Function.update_self, List.mem_append, List.mem_singleton] at hb ⊢
    rcases hb with hb | rfl
    · exact (ht.owner j b hb).trans ((own j (List.ne_nil_of_mem hb)).mpr rfl)
    · rfl
  · simp only [put, Function.update_of_ne hji] at hb ⊢
    exact ht.owner j b hb

theorem Told.accept_fifo (hok : f.Ok) (ht : f.Told remote past)
    (hj : (f.put i (remote pcb) ⟨node, pcb, data⟩).bufs j ≠ []) :
    acceptedFrom ((f.put i (remote pcb) ⟨node, pcb, data⟩).client j)
        (past ++ [.received pcb data.length, .accepted (remote pcb).1 (remote pcb).2 node data]) =
      handedFrom ((f.put i (remote pcb) ⟨node, pcb, data⟩).client j)
          (past ++ [.received pcb data.length, .accepted (remote pcb).1 (remote pcb).2 node data]) ++
        ((f.put i (remote pcb) ⟨node, pcb, data⟩).waiting j).map Buf.data := by
  by_cases hji : j = i
  · subst hji
    have hold : acceptedFrom (remote pcb) past = handedFrom (remote pcb) past ++ (f.waiting j).map Buf.data := by
      by_cases hnil : f.bufs j = []
      · rw [ht.served _ (lacks_of_nil own hnil)]
        simp [waiting, hnil]
      · rw [← (own j hnil).mpr rfl]
        exact ht.fifo j hnil
    rw [waiting_put_self hok]
    simp only [put, Function.update_self, acceptedFrom_append, handedFrom_append, hold]
    simp [acceptedFrom, handedFrom]
  · rw [put_other f hji] at hj
    rw [waiting_put_other f hji]
    simpa [put, hji, acceptedFrom, handedFrom, client_ne own hji hj] using ht.fifo j hj

theorem Told.accept_flow (ht : f.Told remote past) (hj : (f.put i (remote pcb) ⟨node, pcb, data⟩).bufs j ≠ [])
    (hown : (f.put i (remote pcb) ⟨node, pcb, data⟩).client j = remote p) :
    receivedOn p (past ++ [.received pcb data.length, .accepted (remote pcb).1 (remote pcb).2 node data]) =
      tcpRecvedOn p (past ++ [.received pcb data.length, .accepted (remote pcb).1 (remote pcb).2 node data]) +
        queuedBytes p ((f.put i (remote pcb) ⟨node, pcb, data⟩).bufs j) := by
  by_cases hji : j = i
  · subst hji
    have hclient : remote pcb = remote p := by simpa [put] using hown
    have hold : receivedOn p past = tcpRecvedOn p past + queuedBytes p (f.bufs j) := by
      by_cases hnil : f.bufs j = []
      · rw [hnil]
        exact ht.drained p (hclient ▸ lacks_of_nil own hnil)
      · exact ht.flow p j hnil (((own j hnil).mpr rfl).trans hclient)
    have hput : queuedBytes p ((f.put j (remote pcb) ⟨node, pcb, data⟩).bufs j) =
        queuedBytes p (f.bufs j) + if pcb = p then data.length else 0 := by
      simp [queuedBytes, put]
    rw [hput, receivedOn_append, tcpRecvedOn_append, hold]
    simp [receivedOn, tcpRecvedOn, Nat.add_assoc]
  · have hj' : f.bufs j ≠ [] := put_other f hji ▸ hj
    have hown' : f.client j = remote p := by simpa [put, hji] using hown
    have hp : pcb ≠ p := fun heq => client_ne own hji hj' (heq ▸ hown'.symm)
    simpa [put, hji, receivedOn, tcpRecvedOn, hp] using ht.flow p j hj' hown'

end

theorem waiting_put (hok : f.Ok) (hb : b ∈ (f.put i c b').waiting j) : b ∈ f.waiting j ∨ b = b' := by
  by_cases hji : j = i
  · subst hji
    rw [waiting_put_self hok] at hb
    exact (List.mem_append.mp hb).imp id List.mem_singleton.mp
  · exact .inl (waiting_put_other f hji ▸ hb)

theorem put_head (hi : f.bufs j ≠ []) (head : (f.put i c b').bufs j = b :: bs) : ∃ bs', f.bufs j = b :: bs' := by
  obtain ⟨b₀, bs₀, hbufs⟩ := List.exists_cons_of_ne_nil hi
  by_cases hji : j = i
  · subst hji
    simp only [put, Function.update_self, hbufs, List.cons_append, List.cons.injEq] at head
    exact ⟨bs₀, head.1 ▸ hbufs⟩
  · rw [put_other f hji] at head
    exact ⟨bs, head⟩

theorem Told.accept (hok : f.Ok) (ht : f.Told remote past)
    (own : ∀ j, f.bufs j ≠ [] → (f.client j = remote pcb ↔ j = i))
    (fresh : ∀ j, ∀ b ∈ f.bufs j, b.node ≠ node) :
    (f.put i (remote pcb) ⟨node, pcb, data⟩).Told remote
      (past ++ [.received pcb data.length, .accepted (remote pcb).1 (remote pcb).2 node data]) := by
  constructor
  · exact fun j b hb => ht.accept_owner own hb
  · exact fun j hj => ht.accept_fifo own hok hj
  · intro c hc
    obtain ⟨hi, hold⟩ := put_lacks own hc
    rw [acceptedFrom_append, handedFrom_append, ht.served c hold]
    simp [acceptedFrom, handedFrom, hi]
  · exact fun p j hj hown => ht.accept_flow own hj hown
  · intro p hc
    obtain ⟨hi, hold⟩ := put_lacks own hc
    have hp : pcb ≠ p := fun heq => hi (heq ▸ rfl)
    simpa [receivedOn, tcpRecvedOn, hp] using ht.drained p hold
  · intro a ha
    have hne : node ≠ a := ha i ⟨node, pcb, data⟩ (by simp [put])
    refine life_other (ht.free a fun j b hb => ha j b ?_) (accept_node remote hne.symm)
    by_cases hji : j = i
    · subst hji
      simp [put, hb]
    · rwa [put_other f hji]
  · intro j b hb
    rcases waiting_put hok hb with hold | rfl
    · exact life_other (ht.queued j b hold) (accept_node remote (fresh j b (mem_of_waiting hold)))
    · exact life_last (b := [.received pcb data.length]) (ht.free node fresh) (by simp [NetEffect.node]) rfl
  · intro j b bs hj hhead
    obtain ⟨bs', hold⟩ := put_head (hok.cur j hj) hhead
    exact life_other (ht.head j b bs' hj hold) (accept_node remote (fresh j b (by simp [hold])))

end

-- ---------------------------------------------------------------------------
-- A payload goes
-- ---------------------------------------------------------------------------

theorem Told.start {f : Pools} (hok : f.Ok) (ht : f.Told remote past) (cur : f.cur = none)
    (head : f.bufs i = b :: bs) :
    Told remote (past ++ [.handed (f.client i).1 (f.client i).2 b.node b.data])
      { f with cur := some i, sending := true } := by
  have hi : f.bufs i ≠ [] := by
    rw [head]
    exact List.cons_ne_nil _ _
  constructor
  · exact ht.owner
  · intro j hj
    have hfifo := ht.fifo j hj
    rw [waiting_of_none cur] at hfifo
    rw [acceptedFrom_append, handedFrom_append, hfifo, waiting_of_cur rfl]
    by_cases hji : j = i
    · subst hji
      simp [acceptedFrom, handedFrom, head]
    · have hne : f.client i ≠ f.client j := fun heq => hji (hok.clients j i hj hi heq.symm)
      simp [acceptedFrom, handedFrom, hne, hji]
  · intro c hc
    rw [acceptedFrom_append, handedFrom_append, ht.served c hc]
    simp [acceptedFrom, handedFrom, hc i hi]
  · intro pcb j hj hown
    simpa [receivedOn, tcpRecvedOn] using ht.flow pcb j hj hown
  · intro pcb hc
    simpa [receivedOn, tcpRecvedOn] using ht.drained pcb hc
  · intro node hnode
    refine life_other (ht.free node hnode) fun e he => ?_
    rw [List.mem_singleton.mp he]
    exact fun heq => hnode i b (by simp [head]) (Option.some.inj heq)
  · intro j b' hb'
    rw [waiting_of_cur rfl] at hb'
    have hold : b' ∈ f.bufs j := by
      by_cases hji : j = i
      · subst hji
        rw [Function.update_self] at hb'
        exact List.mem_of_mem_tail hb'
      · rwa [Function.update_of_ne hji] at hb'
    refine life_other (ht.queued j b' ((waiting_of_none cur).symm ▸ hold)) fun e he => ?_
    rw [List.mem_singleton.mp he]
    exact fun heq => hok.head_ne head hb' (Option.some.inj heq)
  · intro j b' bs' hj hhead
    obtain rfl := Option.some.inj hj
    obtain ⟨rfl, rfl⟩ := List.cons.inj (head.symm.trans hhead)
    have hlife := ht.queued i b (by simp [waiting_of_none cur, head])
    exact life_last (b := []) hlife nofun rfl

theorem Told.endTx {f : Pools} (hok : f.Ok) (ht : f.Told remote past) (cur : f.cur = some i)
    (sending : f.sending = true) (head : f.bufs i = b :: bs) :
    Told remote (past ++ [.endTx b.node]) { f with sending := false } := by
  constructor
  · exact ht.owner
  · intro j hj
    rw [waiting_sending]
    simpa [acceptedFrom, handedFrom] using ht.fifo j hj
  · intro c hc
    simpa [acceptedFrom, handedFrom] using ht.served c hc
  · intro pcb j hj hown
    simpa [receivedOn, tcpRecvedOn] using ht.flow pcb j hj hown
  · intro pcb hc
    simpa [receivedOn, tcpRecvedOn] using ht.drained pcb hc
  · intro node hnode
    refine life_other (ht.free node hnode) fun e he => ?_
    rw [List.mem_singleton.mp he]
    exact fun heq => hnode i b (by simp [head]) (Option.some.inj heq)
  · intro j b' hb'
    rw [waiting_sending] at hb'
    refine life_other (ht.queued j b' hb') fun e he => ?_
    rw [List.mem_singleton.mp he]
    rw [waiting_of_cur cur] at hb'
    exact fun heq => hok.head_ne head hb' (Option.some.inj heq)
  · intro j b' bs' hj hhead
    obtain rfl := Option.some.inj (cur.symm.trans hj)
    obtain ⟨rfl, rfl⟩ := List.cons.inj (head.symm.trans hhead)
    have hlife := ht.head i b bs cur head
    rw [sending] at hlife
    exact life_last (b := []) hlife nofun rfl

section
variable {f : Pools} {b : Buf}

theorem pop_self (head : f.bufs i = b :: bs) : (f.pop i).bufs i = bs := by simp [pop, head]

theorem waiting_pop (cur : f.cur = some i) : (f.pop i).waiting j = f.waiting j := by
  rw [waiting_of_cur cur, waiting_of_none rfl]
  rfl

theorem pop_lacks (hc : (f.pop i).Lacks c) (hclient : f.client i ≠ c) : f.Lacks c := by
  intro j hj heq
  by_cases hji : j = i
  · exact hclient (hji ▸ heq)
  · exact hc j (pop_other f hji ▸ hj) heq

theorem pop_last (head : f.bufs i = b :: bs) (hc : (f.pop i).Lacks c) (hclient : f.client i = c) : bs = [] := by
  by_contra hbs
  exact hc i (by rwa [pop_self head]) hclient

theorem take_node (hne : b.node ≠ a) : ∀ e ∈ [NetEffect.tcpRecved b.state b.data.length, .freed b.node],
    e.node ≠ some a := by
  intro e he
  rcases List.mem_cons.mp he with rfl | he
  · exact nofun
  · rw [List.mem_singleton.mp he]
    exact fun heq => hne (Option.some.inj heq)

theorem Told.take_served (ht : f.Told remote past) (cur : f.cur = some i) (head : f.bufs i = b :: bs)
    (hc : (f.pop i).Lacks c) : acceptedFrom c past = handedFrom c past := by
  by_cases hclient : f.client i = c
  · have hfifo := ht.fifo i (head ▸ List.cons_ne_nil _ _)
    rw [waiting, if_pos cur, head, List.tail_cons, pop_last head hc hclient, hclient] at hfifo
    simpa using hfifo
  · exact ht.served c (pop_lacks hc hclient)

theorem Told.take_flow (hok : f.Ok) (ht : f.Told remote past) (head : f.bufs i = b :: bs)
    (hj : (f.pop i).bufs j ≠ []) (hown : f.client j = remote p) :
    receivedOn p (past ++ [.tcpRecved b.state b.data.length, .freed b.node]) =
      tcpRecvedOn p (past ++ [.tcpRecved b.state b.data.length, .freed b.node]) +
        queuedBytes p ((f.pop i).bufs j) := by
  have hold := ne_nil_of_pop hj
  have hflow := ht.flow p j hold hown
  by_cases hji : j = i
  · subst hji
    rw [pop_self head, receivedOn_append, tcpRecvedOn_append, hflow, head]
    simp [receivedOn, tcpRecvedOn, queuedBytes, Nat.add_assoc]
  · have hp : b.state ≠ p := by
      rintro rfl
      have howner := ht.owner i b (head ▸ List.mem_cons_self)
      exact hji (hok.clients j i hold (head ▸ List.cons_ne_nil _ _) (hown.trans howner))
    rw [pop_other f hji]
    simpa [receivedOn, tcpRecvedOn, hp] using hflow

theorem Told.take_drained (ht : f.Told remote past) (head : f.bufs i = b :: bs) (hc : (f.pop i).Lacks (remote p)) :
    receivedOn p (past ++ [.tcpRecved b.state b.data.length, .freed b.node]) =
      tcpRecvedOn p (past ++ [.tcpRecved b.state b.data.length, .freed b.node]) := by
  by_cases hclient : f.client i = remote p
  · have hflow := ht.flow p i (head ▸ List.cons_ne_nil _ _) hclient
    rw [head, pop_last head hc hclient] at hflow
    simpa [receivedOn, tcpRecvedOn, queuedBytes] using hflow
  · have hp : b.state ≠ p := by
      rintro rfl
      exact hclient (ht.owner i b (head ▸ List.mem_cons_self)).symm
    simpa [receivedOn, tcpRecvedOn, hp] using ht.drained p (pop_lacks hc hclient)

theorem Told.take_free (ht : f.Told remote past) (cur : f.cur = some i) (sending : f.sending = false)
    (head : f.bufs i = b :: bs) (ha : ∀ j, ∀ b' ∈ (f.pop i).bufs j, b'.node ≠ a) :
    life a (past ++ [.tcpRecved b.state b.data.length, .freed b.node]) = some .free := by
  by_cases hba : b.node = a
  · subst hba
    have hlife := ht.head i b bs cur head
    rw [sending] at hlife
    exact life_last (b := [.tcpRecved b.state b.data.length]) hlife (by simp [NetEffect.node]) rfl
  · refine life_other (ht.free a fun j b' hb' => ?_) (take_node hba)
    by_cases hji : j = i
    · subst hji
      rw [head] at hb'
      rcases List.mem_cons.mp hb' with rfl | hb'
      · exact hba
      · exact ha j b' (by rwa [pop_self head])
    · exact ha j b' (by rwa [pop_other f hji])

theorem Told.take (hok : f.Ok) (ht : f.Told remote past) (cur : f.cur = some i) (sending : f.sending = false)
    (head : f.bufs i = b :: bs) :
    (f.pop i).Told remote (past ++ [.tcpRecved b.state b.data.length, .freed b.node]) := by
  constructor
  · exact fun j b' hb' => ht.owner j b' (mem_of_pop hb')
  · intro j hj
    rw [waiting_pop cur, pop_client]
    simpa [acceptedFrom, handedFrom] using ht.fifo j (ne_nil_of_pop hj)
  · intro c hc
    simpa [acceptedFrom, handedFrom] using ht.take_served cur head hc
  · exact fun p j hj hown => ht.take_flow hok head hj hown
  · exact fun p hc => ht.take_drained head hc
  · exact fun a ha => ht.take_free cur sending head ha
  · intro j b' hb'
    rw [waiting_pop cur] at hb'
    refine life_other (ht.queued j b' hb') (take_node ?_)
    rw [waiting_of_cur cur] at hb'
    exact hok.head_ne head hb'
  · exact fun _ _ _ => nofun

end

theorem Told.step {f : Pools} (hok : f.Ok) (ht : f.Told remote past) (hs : Step remote src f effects f') :
    f'.Told remote (past ++ effects) := by
  cases hs with
  | drop => exact ht.drop
  | accept own fresh => exact ht.accept hok own fresh
  | start cur head => exact ht.start hok cur head
  | endTx cur sending head => exact ht.endTx hok cur sending head
  | take cur sending head => exact ht.take hok cur sending head

theorem Told.run {f : Pools} (hok : f.Ok) (ht : f.Told remote past) (hr : Run remote src f effects f') :
    f'.Told remote (past ++ effects) := by
  induction hr generalizing past with
  | nil => rwa [List.append_nil]
  | cons step run ih =>
    rw [← List.append_assoc]
    exact ih (hok.step step) (ht.step hok step)

end Pools

end EthernetOta.Firmware
