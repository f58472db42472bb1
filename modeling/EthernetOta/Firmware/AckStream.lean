import EthernetOta.Firmware.AckQueue

/-!
# The byte stream of the acks

What `tcp_write` took is what was queued, in order, up to the data still on the
list: only the head is in flight, and it leaves the list with its last byte
acknowledged. `Flow` says so of the queue of frames alone; `Stream` adds that the
list at `callback_arg` is this queue.
-/

namespace EthernetOta.Firmware

-- ---------------------------------------------------------------------------
-- What happened so far
-- ---------------------------------------------------------------------------

def queued (past : List AckEffect) : List (List Byte) := past.filterMap fun
  | .queued data => some data
  | _ => none

def written (past : List AckEffect) : List Byte := past.flatMap fun
  | .wrote data => data
  | _ => []

def notified (past : List AckEffect) : Nat := (past.map fun
  | .notified len => len
  | _ => 0).sum

def freedNodes (past : List AckEffect) : List Addr := past.filterMap fun
  | .freed node => some node
  | _ => none

theorem queued_append (past now : List AckEffect) : queued (past ++ now) = queued past ++ queued now :=
  List.filterMap_append

theorem written_append (past now : List AckEffect) :
    written (past ++ now) = written past ++ written now := List.flatMap_append

theorem notified_append (past now : List AckEffect) :
    notified (past ++ now) = notified past + notified now := by
  simp [notified, List.sum_append]

theorem freedNodes_append (past now : List AckEffect) :
    freedNodes (past ++ now) = freedNodes past ++ freedNodes now := List.filterMap_append

-- ---------------------------------------------------------------------------
-- The queue of frames
-- ---------------------------------------------------------------------------

def headAcked : List Outgoing → Nat
  | [] => 0
  | o :: _ => o.acked

/-- `done` are the frames whose nodes were freed, `q` those still queued. -/
structure Flow (past : List AckEffect) (q : List Outgoing) (done : List (List Byte)) : Prop where
  queued : ∃ pending, queued past = done ++ pending ∧ pending.map List.length = q.map Outgoing.len
  freed : (freedNodes past).length = done.length
  /-- What was queued is what was written and what is left to write. -/
  stream : (Firmware.queued past).flatten = written past ++ q.flatMap Outgoing.data
  waiting : ∀ o ∈ q.tail, o.left = o.len ∧ o.acked = 0
  data : ∀ o ∈ q, o.data.length = o.left
  fits : ∀ o ∈ q, o.acked + o.left ≤ o.len ∧ 0 < o.len ∧ o.len < 2 ^ 16
  notified : Firmware.notified past = done.flatten.length + headAcked q

def Open (q : List Outgoing) : Prop := ∀ o ∈ q.head?, o.acked < o.len

def Outgoing.sent (o : Outgoing) (k : Nat) : Outgoing :=
  { o with data := o.data.drop k, left := o.left - k }

namespace Flow

variable {past : List AckEffect} {q : List Outgoing} {done : List (List Byte)} {o : Outgoing}

/-- Only the head is in flight, so all that was written is what was freed and what the head has sent. -/
theorem length_written (h : Flow past (o :: q) done) :
    (written past).length = done.flatten.length + (o.len - o.left) := by
  obtain ⟨pending, hqueued, hlens⟩ := h.queued
  have hlen := congrArg List.length h.stream
  have hfits := (h.fits o (List.mem_cons_self ..)).1
  have hpending : pending.flatten.length = o.len + (q.map Outgoing.len).sum := by
    rw [List.length_flatten, hlens, List.map_cons, List.sum_cons]
  have hdata : (q.flatMap Outgoing.data).length = (q.map Outgoing.len).sum := by
    rw [List.length_flatMap]
    refine congrArg List.sum (List.map_congr_left fun x hx => ?_)
    rw [h.data x (List.mem_cons_of_mem _ hx), (h.waiting x hx).1]
  rw [hqueued, List.flatten_append, List.flatMap_cons] at hlen
  simp only [List.length_append, hpending, hdata, h.data o (List.mem_cons_self ..)] at hlen
  omega

theorem written_prefix (h : Flow past q done) : written past <+: (Firmware.queued past).flatten := by
  rw [h.stream]
  exact List.prefix_append _ _

theorem push (h : Flow past q done) (hlen : 0 < buf.length ∧ buf.length < 2 ^ 16) :
    Flow (past ++ [.queued buf]) (q ++ [.ofBuf buf]) done := by
  obtain ⟨pending, hqueued, hlens⟩ := h.queued
  constructor
  · exact ⟨pending ++ [buf], by rw [queued_append, hqueued, List.append_assoc]; rfl,
      by simp [hlens, Outgoing.ofBuf]⟩
  · simpa [freedNodes_append, freedNodes] using h.freed
  · rw [queued_append, List.flatten_append, h.stream, written_append, List.flatMap_append]
    simp [Firmware.queued, written, Outgoing.ofBuf]
  · intro x hx
    cases q with
    | nil => exact nomatch hx
    | cons o q =>
      rcases List.mem_append.mp hx with hx | hx
      · exact h.waiting x hx
      · rw [List.mem_singleton.mp hx]
        exact ⟨rfl, rfl⟩
  · intro x hx
    rcases List.mem_append.mp hx with hx | hx
    · exact h.data x hx
    · rw [List.mem_singleton.mp hx]
      rfl
  · intro x hx
    rcases List.mem_append.mp hx with hx | hx
    · exact h.fits x hx
    · rw [List.mem_singleton.mp hx]
      exact ⟨Nat.le_of_eq (Nat.zero_add _), hlen⟩
  · rw [notified_append, h.notified]
    cases q <;> rfl

theorem write (h : Flow past (o :: q) done) (hk : k ≤ o.left) :
    Flow (past ++ [.wrote (o.data.take k)]) (o.sent k :: q) done := by
  have hdata := h.data o (List.mem_cons_self ..)
  have hfits := h.fits o (List.mem_cons_self ..)
  constructor
  · simpa [queued_append, Firmware.queued, Outgoing.sent] using h.queued
  · simpa [freedNodes_append, freedNodes] using h.freed
  · have hqueued : Firmware.queued [.wrote (o.data.take k)] = [] := rfl
    have hwritten : written [.wrote (o.data.take k)] = o.data.take k := List.append_nil _
    have hrest : (o.sent k).data = o.data.drop k := rfl
    rw [queued_append, hqueued, List.append_nil, h.stream, written_append, hwritten, List.flatMap_cons,
      List.flatMap_cons, hrest, List.append_assoc, ← List.append_assoc (o.data.take k),
      List.take_append_drop]
  · exact h.waiting
  · intro x hx
    rcases List.mem_cons.mp hx with rfl | hx
    · simp [Outgoing.sent, hdata]
    · exact h.data x (List.mem_cons_of_mem _ hx)
  · intro x hx
    rcases List.mem_cons.mp hx with rfl | hx
    · exact ⟨by simp only [Outgoing.sent]; omega, hfits.2⟩
    · exact h.fits x (List.mem_cons_of_mem _ hx)
  · simpa [notified_append, Firmware.notified, headAcked, Outgoing.sent] using h.notified

theorem notify (h : Flow past (o :: q) done) (hlen : Firmware.notified past + len ≤ (written past).length) :
    o.acked + len ≤ o.len - o.left ∧
      Flow (past ++ [.notified len]) ({ o with acked := o.acked + len } :: q) done := by
  have hfits := h.fits o (List.mem_cons_self ..)
  have hwritten := h.length_written
  have hnotified := h.notified
  rw [headAcked] at hnotified
  have hacked : o.acked + len ≤ o.len - o.left := by omega
  refine ⟨hacked, ?_, ?_, ?_, h.waiting, ?_, ?_, ?_⟩
  · simpa [queued_append, Firmware.queued] using h.queued
  · simpa [freedNodes_append, freedNodes] using h.freed
  · simpa [queued_append, written_append, Firmware.queued, written] using h.stream
  · intro x hx
    rcases List.mem_cons.mp hx with rfl | hx
    · exact h.data o (List.mem_cons_self ..)
    · exact h.data x (List.mem_cons_of_mem _ hx)
  · intro x hx
    rcases List.mem_cons.mp hx with rfl | hx
    · exact ⟨by simp only; omega, hfits.2⟩
    · exact h.fits x (List.mem_cons_of_mem _ hx)
  · rw [notified_append, h.notified]
    simp only [Firmware.notified, headAcked, List.map_cons, List.map_nil, List.sum_cons, List.sum_nil]
    omega

theorem pop (h : Flow past (o :: q) done) (hacked : o.acked = o.len) (node : Addr) :
    ∃ frame, Flow (past ++ [.freed node]) q (done ++ [frame]) := by
  obtain ⟨pending, hqueued, hlens⟩ := h.queued
  have hfits := h.fits o (List.mem_cons_self ..)
  have hleft : o.data = [] := List.eq_nil_of_length_eq_zero (by
    rw [h.data o (List.mem_cons_self ..)]
    omega)
  cases pending with
  | nil => exact nomatch hlens
  | cons frame pending =>
    simp only [List.map_cons, List.cons.injEq] at hlens
    refine ⟨frame, ⟨pending, ?_, hlens.2⟩, ?_, ?_, ?_, ?_, ?_, ?_⟩
    · have hnone : Firmware.queued [.freed node] = [] := rfl
      rw [queued_append, hqueued, hnone, List.append_nil, List.append_cons]
    · rw [freedNodes_append, List.length_append, h.freed, List.length_append]
      rfl
    · simpa [queued_append, written_append, Firmware.queued, written, hleft] using h.stream
    · exact fun x hx => h.waiting x (List.mem_of_mem_tail hx)
    · exact fun x hx => h.data x (List.mem_cons_of_mem _ hx)
    · exact fun x hx => h.fits x (List.mem_cons_of_mem _ hx)
    · have hnext : headAcked q = 0 := by
        cases q with
        | nil => rfl
        | cons o' q => exact (h.waiting o' (List.mem_cons_self ..)).2
      rw [notified_append, h.notified, hnext, headAcked, hacked, ← hlens.1]
      simp [Firmware.notified]

theorem idle (h : Flow past [] done) (hlen : Firmware.notified past + len ≤ (written past).length) :
    Flow (past ++ [.notified len]) [] done := by
  obtain ⟨pending, hqueued, hlens⟩ := h.queued
  obtain rfl : pending = [] := List.map_eq_nil_iff.mp hlens
  have hstream := congrArg List.length h.stream
  have hnotified := h.notified
  rw [hqueued, List.append_nil] at hstream
  simp only [List.flatMap_nil, List.append_nil] at hstream
  rw [headAcked, Nat.add_zero] at hnotified
  obtain rfl : len = 0 := by omega
  refine ⟨⟨[], ?_, rfl⟩, ?_, ?_, fun _ h => (nomatch h), fun _ h => (nomatch h), fun _ h => (nomatch h), ?_⟩
  · simpa [queued_append, Firmware.queued] using hqueued
  · simpa [freedNodes_append, freedNodes] using h.freed
  · simpa [queued_append, written_append, Firmware.queued, written] using h.stream
  · rw [notified_append, h.notified]
    rfl

end Flow

-- ---------------------------------------------------------------------------
-- The list at callback_arg is the queue
-- ---------------------------------------------------------------------------

structure Stream (past : List AckEffect) (c : Conn) (q : List Outgoing) (done : List (List Byte)) :
    Prop where
  pcb : c.pcb = .attached
  list : ∃ l, AckList c.heap c.callbackArg l ∧ l.map (fun x => x.2.toOutgoing) = q
  flow : Flow past q done
  opened : Open q

/-- Frames that are sent fit in a `uint16_t`, every loop gets something through, and
only what was written and not notified yet is notified. -/
def Paced (past : List AckEffect) (c : Conn) (e : ConnEvent) : Prop :=
  SendsOk c e ∧
    match e with
    | .sendData _ _ buf => 0 < buf.length ∧ buf.length < 2 ^ 16
    | .sent _ len => notified past + len ≤ (written past).length
    | .close | .err => False

variable {past : List AckEffect} {c : Conn} {q : List Outgoing} {done : List (List Byte)}

theorem Stream.send (c : Conn) {l : List (Addr × AppToEth)} {tcp : Tcp} (pcb : c.pcb = .attached)
    (harg : c.callbackArg = some p) (hl : AckList c.heap (some p) ((p, v) :: l))
    (flow : Flow past (v.toOutgoing :: l.map fun x => x.2.toOutgoing) done) (opened : v.acked < v.len)
    (takes : tcp.Takes v.left) : ∃ c' E q', sendDataToClient c tcp p = some (c', E) ∧
      Stream (past ++ E) c' q' done := by
  have hv : c.heap p = some v := hl.lookup (x := (p, v)) (List.mem_cons_self ..)
  obtain ⟨k, hk, hsend⟩ := sendDataToClient_takes hv takes
  let v' : AppToEth := { v with data := v.data.drop k, left := v.left - k }
  have hl' : AckList (c.heap.set p v') (some p) ((p, v') :: l) := hl.replace rfl
  refine ⟨_, _, v.toOutgoing.sent k :: l.map fun x => x.2.toOutgoing, hsend, pcb, ⟨(p, v') :: l, ?_, rfl⟩,
    flow.write hk, ?_⟩
  · exact harg ▸ hl'
  · intro o ho
    obtain rfl := Option.some.inj ho
    exact opened

theorem Stream.sendData (h : Stream past c q done) (hp : Paced past c (.sendData tcp malloc buf)) :
    ∃ c' E q', sendData c tcp malloc buf = some (c', E) ∧ Stream (past ++ E) c' q' done := by
  obtain ⟨hok, hpos, hsmall⟩ := hp
  obtain ⟨l, hl, rfl⟩ := h.list
  cases hm : malloc.run c.heap with
  | none =>
    refine ⟨c, [], l.map fun x => x.2.toOutgoing, by rw [Firmware.sendData, hm], ?_⟩
    rw [List.append_nil]
    exact h
  | some node =>
    cases harg : c.callbackArg with
    | none =>
      rw [harg] at hl
      cases hl
      have takes : tcp.Takes buf.length := hok _ _ (by simp [ConnEvent.sending, h.pcb, harg, hm])
      obtain ⟨c', E, q', hsend, hstream⟩ := Stream.send ⟨c.heap.set node (.ofBuf buf), some node, c.pcb⟩
        (v := .ofBuf buf) h.pcb rfl (.cons (Heap.set_self _ _ _) .nil) (h.flow.push ⟨hpos, hsmall⟩) hpos takes
      refine ⟨c', .queued buf :: E, q', ?_, by simpa using hstream⟩
      rw [sendData_first harg hm, hsend]
      rfl
    | some p =>
      rw [harg] at hl
      obtain ⟨init, a, w, heap, rfl, happend, hl'⟩ := sendData_append tcp buf hl harg hm
      refine ⟨_, _, (init ++ [(a, w)]).map (fun x => x.2.toOutgoing) ++ [.ofBuf buf], happend, h.pcb,
        ⟨_, harg ▸ hl', ?_⟩, h.flow.push ⟨hpos, hsmall⟩, ?_⟩
      · simp [AppToEth.ofBuf]
      · intro o ho
        have hopen := h.opened o
        cases init with
        | nil => exact hopen ho
        | cons x init => exact hopen ho

theorem Stream.sent (h : Stream past c q done) (hp : Paced past c (.sent tcp len)) :
    ∃ c' E q' done', serverSent c tcp len = some (c', E) ∧
      Stream (past ++ .notified len :: E) c' q' done' := by
  obtain ⟨hok, hlen⟩ := hp
  obtain ⟨l, hl, rfl⟩ := h.list
  cases harg : c.callbackArg with
  | none =>
    rw [harg] at hl
    cases hl
    exact ⟨c, [], [], done, by rw [serverSent, harg], h.pcb, ⟨[], harg ▸ .nil, rfl⟩, h.flow.idle hlen,
      fun _ h => nomatch h⟩
  | some p =>
    rw [harg] at hl
    obtain ⟨v, l, rfl, hv, tail⟩ := hl.eq_cons
    have hflow : Flow past (v.toOutgoing :: l.map fun x => x.2.toOutgoing) done := h.flow
    obtain ⟨hacked, hnotify⟩ := hflow.notify hlen
    have hfits := hflow.fits v.toOutgoing (List.mem_cons_self ..)
    -- no counter wraps
    have hack : (v.ack len).acked = v.acked + len := Nat.mod_eq_of_lt (by omega)
    have hout : { v.toOutgoing with acked := v.acked + len } = (v.ack len).toOutgoing := by
      simp only [AppToEth.ack] at hack ⊢
      rw [hack]
    have hl' : AckList (c.heap.set p (v.ack len)) (some p) ((p, v.ack len) :: l) := hl.replace rfl
    rw [hout] at hnotify
    have hsending : ∀ tcp' left, (if 0 < v.left then some (tcp, v.left)
        else if (v.ack len).acked < v.len then none
        else (v.next.bind c.heap).bind fun w => some (tcp, w.left)) = some (tcp', left) → tcp'.Takes left := by
      intro tcp' left hs
      apply hok tcp' left
      simpa [ConnEvent.sending, h.pcb, harg, hv] using hs
    by_cases hleft : 0 < v.left
    · have takes : tcp.Takes v.left := hsending _ _ (if_pos hleft)
      obtain ⟨c', E, q', hsend, hstream⟩ := Stream.send ⟨c.heap.set p (v.ack len), some p, c.pcb⟩
        h.pcb rfl hl' hnotify (by rw [hack]; show v.acked + len < v.len; omega) takes
      refine ⟨c', E, q', done, ?_, by simpa using hstream⟩
      rw [serverSent_more harg hv tcp len hleft, hsend]
    have hleft' := Nat.eq_zero_of_not_pos hleft
    by_cases hdone : (v.ack len).acked < v.len
    · refine ⟨_, [], _, done, serverSent_wait harg hv tcp hleft' hdone, h.pcb,
        ⟨(p, v.ack len) :: l, hl', rfl⟩, hnotify, ?_⟩
      intro o ho
      obtain rfl := Option.some.inj ho
      exact hdone
    · obtain ⟨frame, hpop⟩ := hnotify.pop
        (by show (v.ack len).acked = v.len; omega) p
      cases hn : v.next with
      | none =>
        rw [hn] at tail
        cases tail
        refine ⟨_, _, [], done ++ [frame], serverSent_last harg hv tcp hleft' hdone hn, h.pcb,
          ⟨[], .nil, rfl⟩, ?_, fun _ h => nomatch h⟩
        simpa using hpop
      | some q =>
        have hnext : AckList ((c.heap.set p (v.ack len)).erase p) v.next l := hl'.pop
        rw [hn] at hnext tail
        obtain ⟨w, l, rfl, hw, -⟩ := tail.eq_cons
        have takes : tcp.Takes w.left := by
          apply hsending
          rw [if_neg hleft, if_neg hdone, hn, Option.bind_some, hw]
          rfl
        have hwait := hflow.waiting w.toOutgoing (List.mem_cons_self ..)
        have hwpos := (hpop.fits w.toOutgoing (List.mem_cons_self ..)).2.1
        obtain ⟨c', E, q', hsend, hstream⟩ := Stream.send
          ⟨(c.heap.set p (v.ack len)).erase p, some q, c.pcb⟩ h.pcb rfl hnext hpop
          (hwait.2 ▸ hwpos) takes
        refine ⟨c', .freed p :: E, q', done ++ [frame], ?_, by simpa using hstream⟩
        rw [serverSent_next harg hv tcp hleft' hdone hn, hsend]
        rfl

theorem stream_step (h : Stream past c q done) (hp : Paced past c e) :
    ∃ c' E, connStep c e = some (c', E) ∧ ∃ q' done', Stream (past ++ E) c' q' done' := by
  cases e with
  | close => exact hp.2.elim
  | err => exact hp.2.elim
  | sendData tcp malloc buf =>
    obtain ⟨c', E, q', hsend, hstream⟩ := h.sendData hp
    exact ⟨c', E, (if_pos h.pcb).trans hsend, q', done, hstream⟩
  | sent tcp len =>
    obtain ⟨c', E, q', done', hsent, hstream⟩ := h.sent hp
    exact ⟨c', _, connStep_sent h.pcb hsent, q', done', hstream⟩

/-- The stream of the acks is the queued frames, in order. -/
theorem ack_stream (heap : Heap AppToEth) (events : List ConnEvent)
    (paced : conn.Meets Paced [] (accepted heap) events) : ∃ c E q done,
      conn.run (accepted heap) events = some (c, E) ∧ Stream E c q done ∧
        written E <+: (queued E).flatten := by
  have hstart : Stream [] (accepted heap) [] [] :=
    { pcb := rfl
      list := ⟨[], .nil, rfl⟩
      flow := ⟨⟨[], rfl, rfl⟩, rfl, rfl, fun _ h => (nomatch h), fun _ h => (nomatch h),
        fun _ h => (nomatch h), rfl⟩
      opened := fun _ h => nomatch h }
  obtain ⟨c, E, hrun, q, done, hstream⟩ := Faulting.history_of_meets (m := conn)
    (R := fun past c => ∃ q done, Stream past c q done)
    (fun past c e ⟨q, done, h⟩ hp => stream_step h hp) ⟨[], [], hstart⟩ paced
  exact ⟨c, E, q, done, hrun, hstream, hstream.flow.written_prefix⟩

def retried : Tcp := ⟨2920, fun attempt _ => if attempt = 0 then .mem else .ok⟩

theorem retried_takes (hleft : 4 ≤ left) : retried.Takes left := by
  have hlen : 1 < (if 2920 < left then 2920 else left) / 2 := by
    by_cases h : 2920 < left
    · rw [if_pos h]
      decide
    · rw [if_neg h]
      omega
  refine ⟨1, rfl, fun j hj => ?_⟩
  obtain rfl : j = 0 := by omega
  exact ⟨rfl, hlen⟩

/-- One ack: seven of its bytes are taken at the second attempt, then acknowledged. -/
theorem ack_stream_retried : ∃ c E q done,
    conn.run (accepted fun _ => none) [.sendData retried oneNode (generateAckFrame (uHtonl authenticatedPass)),
      .sent retried 7] = some (c, E) ∧ Stream E c q done ∧ written E <+: (queued E).flatten := by
  have hloop : tcpWriteLoop retried.write 0 15 = (.ok, 7) := by simp [tcpWriteLoop, retried]
  have hlen : (generateAckFrame (uHtonl authenticatedPass)).length = 15 := rfl
  refine ack_stream (fun _ => none) _ ⟨⟨?_, by decide⟩, ?_⟩
  · intro tcp left hs
    obtain ⟨rfl, rfl⟩ := Prod.mk.inj (Option.some.inj hs)
    exact retried_takes (by decide)
  · intro c' E hs
    generalize generateAckFrame (uHtonl authenticatedPass) = frame at hs hlen
    have hsnd : ¬ retried.sndbuf < 15 := by decide
    simp [conn, connStep, accepted, sendData, oneNode, sendDataToClient, AppToEth.ofBuf, Outgoing.ofBuf,
      hlen, hloop, hsnd, Heap.store] at hs
    obtain ⟨rfl, rfl⟩ := hs
    refine ⟨⟨?_, ?_⟩, fun _ _ _ => trivial⟩
    · intro tcp left hs
      simp only [ConnEvent.sending, if_true, Option.bind_some, Heap.set_self, Option.bind_eq_bind,
        Nat.zero_lt_succ, Option.some.injEq, Prod.mk.injEq] at hs
      obtain ⟨rfl, rfl⟩ := hs
      exact retried_takes (by decide)
    · simp [notified, written, hlen]

end EthernetOta.Firmware
