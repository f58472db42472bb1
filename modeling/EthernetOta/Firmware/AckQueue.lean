import EthernetOta.Lib.Faulting
import EthernetOta.Firmware.Server

/-!
# The acks of a connection

Runs of the callbacks that work on the list at `callback_arg`. As long as every
`tcp_write` loop ends with some of the data taken, the list stays whole; a loop
that fails frees it and leaves the pointer.
-/

namespace EthernetOta.Firmware

inductive ConnEvent
  | sendData (tcp : Tcp) (malloc : Heap.Malloc AppToEth) (buf : List Byte)
  /-- `server_sent` -/
  | sent (tcp : Tcp) (len : Nat)
  /-- `server_recv` without data -/
  | close
  /-- `server_connection_err`; the pcb is gone then. -/
  | err

/-- A callback on a connection. After a close only the error callback is left. -/
def connStep (c : Conn) : ConnEvent → Option (Conn × List AckEffect)
  | .sendData tcp malloc buf => if c.pcb = .attached then sendData c tcp malloc buf else some (c, [])
  | .sent tcp len =>
    if c.pcb = .attached then do
      let (c, effects) ← serverSent c tcp len
      some (c, .notified len :: effects)
    else some (c, [])
  | .close =>
    if c.pcb = .attached then do
      let c ← serverCloseConnection c c.callbackArg
      some (c, [])
    else some (c, [])
  | .err =>
    if c.pcb = .gone then some (c, [])
    else do
      let c ← serverConnectionErr c c.callbackArg
      some ({ c with pcb := .gone }, [])

def conn : Faulting Conn ConnEvent AckEffect := ⟨connStep⟩

def accepted (heap : Heap AppToEth) : Conn := ⟨heap, none, .attached⟩

-- ---------------------------------------------------------------------------
-- tcp_write
-- ---------------------------------------------------------------------------

/-- One of the lengths the loop tries is taken, and those before it met `ERR_MEM`. -/
def Taken (write : Nat → Nat → Err) (attempt len : Nat) : Prop :=
  ∃ k, write (attempt + k) (len / 2 ^ k) = .ok ∧
    ∀ j, j < k → write (attempt + j) (len / 2 ^ j) = .mem ∧ 1 < len / 2 ^ (j + 1)

theorem taken_ok {write : Nat → Nat → Err} (h : write attempt len = .ok) : Taken write attempt len :=
  ⟨0, by simpa using h, fun _ hj => nomatch hj⟩

theorem not_taken_other {write : Nat → Nat → Err} (h : write attempt len = .other) :
    ¬ Taken write attempt len := by
  rintro ⟨k, hk, hmem⟩
  cases k with
  | zero =>
    have hok : write attempt len = .ok := by simpa using hk
    cases h.symm.trans hok
  | succ k =>
    have hmem : write attempt len = .mem := by simpa using (hmem 0 (Nat.succ_pos k)).1
    cases h.symm.trans hmem

theorem taken_mem {write : Nat → Nat → Err} (h : write attempt len = .mem) :
    Taken write attempt len ↔ 1 < len / 2 ∧ Taken write (attempt + 1) (len / 2) := by
  have hhalf : ∀ k, len / 2 / 2 ^ k = len / 2 ^ (k + 1) := by
    intro k
    rw [Nat.div_div_eq_div_mul, Nat.pow_succ, Nat.mul_comm]
  constructor
  · rintro ⟨k, hk, hmem⟩
    cases k with
    | zero =>
      have hok : write attempt len = .ok := by simpa using hk
      cases h.symm.trans hok
    | succ k =>
      refine ⟨by simpa using (hmem 0 (Nat.succ_pos k)).2, k, ?_, fun j hj => ?_⟩
      · rw [hhalf, Nat.add_assoc, Nat.add_comm 1]
        exact hk
      · rw [hhalf, hhalf, Nat.add_assoc, Nat.add_comm 1]
        exact hmem (j + 1) (Nat.succ_lt_succ hj)
  · rintro ⟨hlen, k, hk, hmem⟩
    refine ⟨k + 1, ?_, fun j hj => ?_⟩
    · rw [← hhalf, Nat.add_comm k, ← Nat.add_assoc]
      exact hk
    · cases j with
      | zero => exact ⟨by simpa using h, by simpa using hlen⟩
      | succ j =>
        rw [← hhalf, ← hhalf, show attempt + (j + 1) = attempt + 1 + j by omega]
        exact hmem j (Nat.lt_of_succ_lt_succ hj)

theorem tcpWriteLoop_ok (write : Nat → Nat → Err) (attempt len : Nat) :
    (tcpWriteLoop write attempt len).1 = .ok ↔ Taken write attempt len := by
  induction attempt, len using tcpWriteLoop.induct write with
  | case1 attempt len h hlen ih =>
    rw [tcpWriteLoop, h, taken_mem h]
    simp only [hlen, if_true, true_and]
    exact ih
  | case2 attempt len h hlen =>
    rw [tcpWriteLoop, h, taken_mem h]
    simp [hlen]
  | case3 attempt len h =>
    rw [tcpWriteLoop]
    cases hw : write attempt len with
    | ok => simpa using taken_ok hw
    | other => simpa using not_taken_other hw
    | mem => exact absurd hw h

theorem tcpWriteLoop_le (write : Nat → Nat → Err) (attempt len : Nat) :
    (tcpWriteLoop write attempt len).2 ≤ len := by
  induction attempt, len using tcpWriteLoop.induct write with
  | case1 attempt len h hlen ih =>
    rw [tcpWriteLoop, h]
    simp only [hlen, if_true]
    omega
  | case2 attempt len h hlen =>
    rw [tcpWriteLoop, h]
    simp only [hlen, if_false]
    omega
  | case3 attempt len h =>
    rw [tcpWriteLoop]
    cases hw : write attempt len with
    | mem => exact absurd hw h
    | _ => exact Nat.le_refl _

-- ---------------------------------------------------------------------------
-- The list at callback_arg
-- ---------------------------------------------------------------------------

def Tcp.Takes (tcp : Tcp) (left : Nat) : Prop :=
  Taken tcp.write 0 (if tcp.sndbuf < left then tcp.sndbuf else left)

def ConnEvent.sending (c : Conn) : ConnEvent → Option (Tcp × Nat)
  | .sendData tcp malloc buf =>
    if c.pcb = .attached ∧ c.callbackArg = none ∧ (malloc.run c.heap).isSome then some (tcp, buf.length)
    else none
  | .sent tcp len =>
    if c.pcb = .attached then do
      let v ← c.callbackArg.bind c.heap
      if 0 < v.left then some (tcp, v.left)
      else if (v.ack len).acked < v.len then none
      else
        let w ← v.next.bind c.heap
        some (tcp, w.left)
    else none
  | _ => none

def SendsOk (c : Conn) (e : ConnEvent) : Prop := ∀ tcp left, e.sending c = some (tcp, left) → tcp.Takes left

abbrev AckList (heap : Heap AppToEth) (p : Option Addr) (l : List (Addr × AppToEth)) : Prop :=
  Heap.Chain AppToEth.next heap p l

/-- `callback_arg` is NULL or the head of a NULL-terminated list of allocated nodes. -/
def Live (c : Conn) : Prop := c.pcb ≠ .gone → ∃ l, AckList c.heap c.callbackArg l

variable {c c' : Conn} {tcp : Tcp} {malloc : Heap.Malloc AppToEth}

theorem freeList_some (hc : AckList heap p l) : ∃ heap', freeList heap p = some heap' ∧
    ∀ x ∈ l, heap' x.1 = none := by
  cases p with
  | none =>
    cases hc
    exact ⟨heap, rfl, by simp⟩
  | some p =>
    obtain ⟨heap', hfree, hgone, -⟩ := hc.freeAll_eq hc.length_le
    exact ⟨heap', hfree, hgone⟩

theorem sendDataToClient_takes (hv : c.heap p = some v) (takes : tcp.Takes v.left) :
    ∃ k, k ≤ v.left ∧ sendDataToClient c tcp p =
      some ({ c with heap := c.heap.set p { v with data := v.data.drop k, left := v.left - k } },
        [.wrote (v.data.take k)]) := by
  have hok := (tcpWriteLoop_ok _ _ _).mpr takes
  have hle := tcpWriteLoop_le tcp.write 0 (if tcp.sndbuf < v.left then tcp.sndbuf else v.left)
  simp only [sendDataToClient, hv, Option.bind_eq_bind, Option.bind_some]
  generalize tcpWriteLoop tcp.write 0 (if tcp.sndbuf < v.left then tcp.sndbuf else v.left) = res at hok hle
  obtain ⟨err, k⟩ := res
  obtain rfl : err = .ok := hok
  refine ⟨k, by split at hle <;> omega, ?_⟩
  simp only [Heap.store_some hv, Option.bind_some]

/-- When the loop fails, the whole list is freed and `callback_arg` still points to its head. -/
theorem sendDataToClient_fails (hc : AckList c.heap c.callbackArg l) (hv : c.heap p = some v)
    (arg : c.callbackArg = some q) (takes : ¬ tcp.Takes v.left) :
    ∃ heap, sendDataToClient c tcp p = some ({ c with heap := heap }, []) ∧ heap q = none := by
  have hok : (tcpWriteLoop tcp.write 0 (if tcp.sndbuf < v.left then tcp.sndbuf else v.left)).1 ≠ .ok :=
    fun h => takes ((tcpWriteLoop_ok _ _ _).mp h)
  obtain ⟨heap, hfree, hgone⟩ := freeList_some hc
  rw [arg] at hc
  obtain ⟨w, l', rfl, -, -⟩ := hc.eq_cons
  refine ⟨heap, ?_, hgone (q, w) (List.mem_cons_self ..)⟩
  simp only [sendDataToClient, hv, Option.bind_eq_bind, Option.bind_some]
  generalize tcpWriteLoop tcp.write 0 (if tcp.sndbuf < v.left then tcp.sndbuf else v.left) = res at hok
  obtain ⟨err, k⟩ := res
  cases err with
  | ok => exact absurd rfl hok
  | mem => simp [serverConnectionErr, hfree]
  | other => simp [serverConnectionErr, hfree]

-- ---------------------------------------------------------------------------
-- The branches of server_sent
-- ---------------------------------------------------------------------------

section
variable (harg : c.callbackArg = some p) (hv : c.heap p = some v)
include harg hv

theorem serverSent_more (tcp : Tcp) (len : Nat) (hleft : 0 < v.left) :
    serverSent c tcp len = sendDataToClient ⟨c.heap.set p (v.ack len), some p, c.pcb⟩ tcp p := by
  simp only [serverSent, harg, hv, Option.bind_eq_bind, Option.bind_some, Heap.store_some hv,
    AppToEth.ack_left, hleft, if_true]

theorem serverSent_wait (tcp : Tcp) (hleft : v.left = 0) (hacked : (v.ack len).acked < v.len) :
    serverSent c tcp len = some (⟨c.heap.set p (v.ack len), some p, c.pcb⟩, []) := by
  simp only [serverSent, harg, hv, Option.bind_eq_bind, Option.bind_some, Heap.store_some hv,
    AppToEth.ack_left, AppToEth.ack_len, hleft, Nat.lt_irrefl, if_false, hacked, if_true]

theorem serverSent_last (tcp : Tcp) (hleft : v.left = 0) (hacked : ¬ (v.ack len).acked < v.len)
    (hnext : v.next = none) :
    serverSent c tcp len = some (⟨(c.heap.set p (v.ack len)).erase p, none, c.pcb⟩, [.freed p]) := by
  simp only [serverSent, harg, hv, Option.bind_eq_bind, Option.bind_some, Heap.store_some hv,
    AppToEth.ack_left, AppToEth.ack_len, AppToEth.ack_next, hleft, Nat.lt_irrefl, if_false, hacked,
    Heap.free_set, hnext]

theorem serverSent_next (tcp : Tcp) (hleft : v.left = 0) (hacked : ¬ (v.ack len).acked < v.len)
    (hnext : v.next = some q) :
    serverSent c tcp len =
      (sendDataToClient ⟨(c.heap.set p (v.ack len)).erase p, some q, c.pcb⟩ tcp q).map
        fun r => (r.1, .freed p :: r.2) := by
  simp only [serverSent, harg, hv, Option.bind_eq_bind, Option.bind_some, Heap.store_some hv,
    AppToEth.ack_left, AppToEth.ack_len, AppToEth.ack_next, hleft, Nat.lt_irrefl, if_false, hacked,
    Heap.free_set, hnext]
  generalize sendDataToClient _ tcp q = r
  cases r <;> rfl

end

-- ---------------------------------------------------------------------------
-- One callback
-- ---------------------------------------------------------------------------

theorem connStep_sent (hpcb : c.pcb = .attached) (h : serverSent c tcp len = some (c', E)) :
    connStep c (.sent tcp len) = some (c', .notified len :: E) := by
  simp only [connStep, hpcb, if_true, h, Option.bind_eq_bind, Option.bind_some]

theorem sendData_first (harg : c.callbackArg = none) (hm : malloc.run c.heap = some node) :
    sendData c tcp malloc buf =
      (sendDataToClient ⟨c.heap.set node (.ofBuf buf), some node, c.pcb⟩ tcp node).map
        fun r => (r.1, .queued buf :: r.2) := by
  simp only [sendData, hm, harg]
  generalize sendDataToClient _ tcp node = r
  cases r <;> rfl

theorem sendData_append (tcp : Tcp) (buf : List Byte) (hl : AckList c.heap (some p) l) (harg : c.callbackArg = some p)
    (hm : malloc.run c.heap = some node) : ∃ init a w heap, l = init ++ [(a, w)] ∧
      sendData c tcp malloc buf = some ({ c with heap := heap }, [.queued buf]) ∧
      AckList heap (some p) (init ++ [(a, { w with next := some node }), (node, .ofBuf buf)]) := by
  have hfresh := malloc.fresh hm
  have hset := hl.set (hl.fresh hfresh) (.ofBuf buf)
  -- the walk ends at the last node, behind which the new one goes
  obtain ⟨init, ⟨a, w⟩, rfl⟩ : ∃ init x, l = init ++ [x] := by
    obtain ⟨_, _, rfl, -⟩ := hl.eq_cons
    exact ⟨_, _, (List.dropLast_append_getLast (List.cons_ne_nil _ _)).symm⟩
  have hlen := hl.length_le
  rw [List.length_append, List.length_singleton] at hlen
  have hlast := hset.last_eq rfl (Nat.lt_of_succ_le hlen)
  have hw := hset.lookup (x := (a, w)) (by simp)
  refine ⟨init, a, w, _, rfl, ?_, hl.snoc hfresh rfl rfl⟩
  simp only [sendData, hm, harg, hlast, Option.bind_eq_bind, Option.bind_some, hw, Heap.store_some hw]

theorem connStep_sends (h : Live c) (hs : e.sending c = some (tcp, left)) : ∃ c₁ p v l E,
    c₁.pcb = .attached ∧ c₁.callbackArg = some p ∧ AckList c₁.heap (some p) ((p, v) :: l) ∧
      v.left = left ∧
      connStep c e = (sendDataToClient c₁ tcp p).map fun r => (r.1, E ++ r.2) := by
  cases e with
  | close => exact nomatch hs
  | err => exact nomatch hs
  | sendData tcp' malloc buf =>
    by_cases hc : c.pcb = .attached ∧ c.callbackArg = none ∧ (malloc.run c.heap).isSome
    case neg => simp [ConnEvent.sending, hc] at hs
    obtain ⟨hpcb, harg, hm⟩ := hc
    obtain ⟨node, hnode⟩ := Option.isSome_iff_exists.mp hm
    simp only [ConnEvent.sending, hpcb, harg, hm, and_self, if_true, Option.some.injEq,
      Prod.mk.injEq] at hs
    obtain ⟨rfl, rfl⟩ := hs
    exact ⟨⟨c.heap.set node (.ofBuf buf), some node, c.pcb⟩, node, .ofBuf buf, [], [.queued buf], hpcb,
      rfl, .cons (Heap.set_self _ _ _) .nil, rfl, (if_pos hpcb).trans (sendData_first harg hnode)⟩
  | sent tcp' len =>
    by_cases hpcb : c.pcb = .attached
    case neg => simp [ConnEvent.sending, hpcb] at hs
    obtain ⟨l, hl⟩ := h (by simp [hpcb])
    simp only [ConnEvent.sending, hpcb, if_true] at hs
    cases harg : c.callbackArg with
    | none => simp [harg] at hs
    | some p =>
      rw [harg] at hl
      obtain ⟨v, l, rfl, hv, tail⟩ := hl.eq_cons
      simp only [harg, Option.bind_some, hv, Option.bind_eq_bind] at hs
      have hl' : AckList (c.heap.set p (v.ack len)) (some p) ((p, v.ack len) :: l) := hl.replace rfl
      by_cases hleft : 0 < v.left
      · simp only [hleft, if_true, Option.some.injEq, Prod.mk.injEq] at hs
        obtain ⟨rfl, rfl⟩ := hs
        refine ⟨⟨c.heap.set p (v.ack len), some p, c.pcb⟩, p, v.ack len, l, [.notified len], hpcb, rfl,
          hl', rfl, ?_⟩
        rw [connStep, if_pos hpcb, serverSent_more harg hv tcp' len hleft]
        generalize sendDataToClient _ tcp' p = r
        cases r <;> rfl
      · by_cases hacked : (v.ack len).acked < v.len
        · simp [hleft, hacked] at hs
        cases hn : v.next with
        | none => simp [hleft, hacked, hn] at hs
        | some q =>
          have hpop : AckList ((c.heap.set p (v.ack len)).erase p) v.next l := hl'.pop
          rw [hn] at hpop tail
          obtain ⟨w, l, rfl, hw, -⟩ := tail.eq_cons
          simp only [hleft, hacked, if_false, hn, Option.bind_some, hw, Option.some.injEq,
            Prod.mk.injEq] at hs
          obtain ⟨rfl, rfl⟩ := hs
          refine ⟨⟨(c.heap.set p (v.ack len)).erase p, some q, c.pcb⟩, q, w, l, [.notified len, .freed p],
            hpcb, rfl, hpop, rfl, ?_⟩
          rw [connStep, if_pos hpcb, serverSent_next harg hv tcp' (Nat.eq_zero_of_not_pos hleft) hacked hn]
          generalize sendDataToClient _ tcp' q = r
          cases r <;> rfl

theorem connStep_quiet (h : Live c) (hs : e.sending c = none) :
    ∃ c' E, connStep c e = some (c', E) ∧ Live c' := by
  cases e with
  | close =>
    by_cases hpcb : c.pcb = .attached
    case neg => exact ⟨c, [], if_neg hpcb, h⟩
    obtain ⟨l, hl⟩ := h (by simp [hpcb])
    obtain ⟨heap, hfree, -⟩ := freeList_some hl
    exact ⟨⟨heap, none, .closed⟩, [], by simp [connStep, hpcb, serverCloseConnection, hfree],
      fun _ => ⟨[], .nil⟩⟩
  | err =>
    by_cases hpcb : c.pcb = .gone
    · exact ⟨c, [], if_pos hpcb, h⟩
    · obtain ⟨l, hl⟩ := h hpcb
      obtain ⟨heap, hfree, -⟩ := freeList_some hl
      exact ⟨⟨heap, c.callbackArg, .gone⟩, [], by simp [connStep, hpcb, serverConnectionErr, hfree],
        fun hne => absurd rfl hne⟩
  | sendData tcp malloc buf =>
    by_cases hpcb : c.pcb = .attached
    case neg => exact ⟨c, [], if_neg hpcb, h⟩
    simp only [connStep, hpcb, if_true]
    cases hm : malloc.run c.heap with
    | none => exact ⟨c, [], by rw [sendData, hm], h⟩
    | some node =>
      cases harg : c.callbackArg with
      | none => simp [ConnEvent.sending, hpcb, harg, hm] at hs
      | some p =>
        obtain ⟨l, hl⟩ := h (by simp [hpcb])
        rw [harg] at hl
        obtain ⟨init, a, w, heap, rfl, happend, hl'⟩ := sendData_append tcp buf hl harg hm
        exact ⟨_, _, happend, fun _ => ⟨_, harg ▸ hl'⟩⟩
  | sent tcp len =>
    by_cases hpcb : c.pcb = .attached
    case neg => exact ⟨c, [], if_neg hpcb, h⟩
    obtain ⟨l, hl⟩ := h (by simp [hpcb])
    simp only [ConnEvent.sending, hpcb, if_true] at hs
    cases harg : c.callbackArg with
    | none => exact ⟨c, _, connStep_sent hpcb (by rw [serverSent, harg]), h⟩
    | some p =>
      rw [harg] at hl
      obtain ⟨v, l, rfl, hv, tail⟩ := hl.eq_cons
      simp only [harg, Option.bind_some, hv, Option.bind_eq_bind] at hs
      by_cases hleft : 0 < v.left
      · simp [hleft] at hs
      have hleft' := Nat.eq_zero_of_not_pos hleft
      by_cases hacked : (v.ack len).acked < v.len
      · have hsent := serverSent_wait harg hv tcp hleft' hacked
        exact ⟨_, _, connStep_sent hpcb hsent, fun _ => ⟨(p, v.ack len) :: l, hl.replace rfl⟩⟩
      · cases hn : v.next with
        | some q =>
          rw [hn] at tail
          obtain ⟨w, l, rfl, hw, -⟩ := tail.eq_cons
          simp [hleft, hacked, hn, hw] at hs
        | none =>
          have hsent := serverSent_last harg hv tcp hleft' hacked hn
          exact ⟨_, _, connStep_sent hpcb hsent, fun _ => ⟨[], .nil⟩⟩

theorem connStep_live (h : Live c) (hs : SendsOk c e) :
    ∃ c' E, connStep c e = some (c', E) ∧ Live c' := by
  cases hsend : e.sending c with
  | none => exact connStep_quiet h hsend
  | some call =>
    obtain ⟨tcp, left⟩ := call
    obtain ⟨c₁, p, v, l, E, -, harg, hl, rfl, hstep⟩ := connStep_sends h hsend
    have hv : c₁.heap p = some v := hl.lookup (x := (p, v)) (List.mem_cons_self ..)
    obtain ⟨k, -, htakes⟩ := sendDataToClient_takes hv (hs tcp v.left hsend)
    rw [htakes] at hstep
    refine ⟨_, _, hstep, fun _ => ?_⟩
    simp only [harg]
    exact ⟨_, hl.replace rfl⟩

/-- A callback whose `tcp_write` loop fails leaves `callback_arg` at a freed node. -/
theorem connStep_dead (h : Live c) (hs : ¬ SendsOk c e) :
    ∃ c' E, connStep c e = some (c', E) ∧ ¬ Live c' := by
  obtain ⟨tcp, left, hsend, htakes⟩ : ∃ tcp left, e.sending c = some (tcp, left) ∧ ¬ tcp.Takes left := by
    simpa [SendsOk] using hs
  obtain ⟨c₁, p, v, l, E, hpcb, harg, hl, rfl, hstep⟩ := connStep_sends h hsend
  have hv : c₁.heap p = some v := hl.lookup (x := (p, v)) (List.mem_cons_self ..)
  obtain ⟨heap, hfails, hgone⟩ := sendDataToClient_fails (harg ▸ hl) hv harg htakes
  rw [hfails] at hstep
  refine ⟨_, _, hstep, fun hlive => ?_⟩
  obtain ⟨l', hl'⟩ := hlive (by simp [hpcb])
  simp only [harg] at hl'
  obtain ⟨w, l', -, hw, -⟩ := hl'.eq_cons
  exact nomatch hgone.symm.trans hw

/-- After every prefix of a run, nothing freed has been touched and `callback_arg`
heads a whole list, just when every `tcp_write` loop gets something through. -/
theorem ack_list_live (heap : Heap AppToEth) (events : List ConnEvent) :
    (∀ k, ∃ c E, conn.run (accepted heap) (events.take k) = some (c, E) ∧ Live c) ↔
      conn.Meets (fun _ => SendsOk) [] (accepted heap) events :=
  Faulting.inv_iff_meets (fun _ _ h hs => connStep_live h hs) (fun _ _ h hs => connStep_dead h hs)
    fun _ => ⟨[], .nil⟩

def oneNode : Heap.Malloc AppToEth where
  run h := if (h 0x20000000).isNone then some 0x20000000 else none
  fresh := by
    intro h p hp
    obtain ⟨hnone, hp⟩ : (h 0x20000000).isNone = true ∧ 0x20000000 = p := by simpa using hp
    rw [← hp]
    exact Option.isNone_iff_eq_none.mp hnone

/-- One ack while lwIP is out of memory: the node is freed and `callback_arg` still points to it. -/
theorem ack_list_dangling : ∃ c E,
    conn.run (accepted fun _ => none)
        [.sendData ⟨2920, fun _ _ => .mem⟩ oneNode (generateAckFrame (uHtonl authenticatedPass))] =
      some (c, E) ∧ ¬ Live c := by
  have hloop : (tcpWriteLoop (fun _ _ => .mem) 0 15).1 = .mem := by simp [tcpWriteLoop]
  obtain ⟨c, E, hstep, hdead⟩ := connStep_dead (c := accepted fun _ => none)
    (e := .sendData ⟨2920, fun _ _ => .mem⟩ oneNode (generateAckFrame (uHtonl authenticatedPass)))
    (fun _ => ⟨[], .nil⟩) fun h => by
      have hok := (tcpWriteLoop_ok _ _ _).mpr (h _ _ rfl)
      cases hloop.symm.trans hok
  exact ⟨c, _, Faulting.run_cons hstep rfl, hdead⟩

end EthernetOta.Firmware
