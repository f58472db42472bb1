import EthernetOta.Lib.Shared
import EthernetOta.Firmware.AckStream

/-!
# A connection among others

The acks of all connections are on one heap. A callback works on the list of its own
connection, and `Framed` says how little of the heap that is: the lists of the others,
and the bytes they still have to send, stay as they are.
-/

namespace EthernetOta.Firmware

/-- The list of a connection; lwIP keeps none for one that is gone. -/
def Conn.head (c : Conn) : Option Addr := if c.pcb = .gone then none else c.callbackArg

theorem Conn.head_attached {c : Conn} (h : c.pcb = .attached) : c.head = c.callbackArg := by
  simp [Conn.head, h]

theorem Conn.list_attached (heap : Heap AppToEth) {state : PcbState} (h : state = .attached) (hl : AckList heap arg l) :
    AckList heap (Conn.head ⟨heap, arg, state⟩) l := by
  rwa [Conn.head_attached h]

def StaysOn (c : Conn) (l : List (Addr × AppToEth)) (r : Option (Conn × List AckEffect)) : Prop :=
  ∃ c' E l', r = some (c', E) ∧ AckList c'.heap c'.head l' ∧ Heap.Framed c.heap l c'.heap l'

section
variable {c c' : Conn} {tcp : Tcp} {malloc : Heap.Malloc AppToEth} {l : List (Addr × AppToEth)}

theorem StaysOn.idle (hl : AckList c.heap c.head l) (E : List AckEffect) : StaysOn c l (some (c, E)) :=
  ⟨c, E, l, rfl, hl, .refl _ _⟩

theorem StaysOn.after {r : Option (Conn × List AckEffect)} (E : List AckEffect)
    (framed : Heap.Framed c.heap l c'.heap l') (works : StaysOn c' l' r) :
    StaysOn c l (r.map fun x => (x.1, E ++ x.2)) := by
  obtain ⟨c'', E', l'', rfl, hl, framed'⟩ := works
  exact ⟨c'', E ++ E', l'', rfl, hl, framed.trans framed'⟩

theorem staysOn_send (pcb : c.pcb = .attached) (harg : c.callbackArg = some p)
    (hl : AckList c.heap (some p) ((p, v) :: l)) (takes : tcp.Takes v.left) :
    StaysOn c ((p, v) :: l) (sendDataToClient c tcp p) := by
  have hv : c.heap p = some v := hl.lookup (x := (p, v)) (List.mem_cons_self ..)
  obtain ⟨k, -, hsend⟩ := sendDataToClient_takes hv takes
  refine ⟨_, _, (p, _) :: l, hsend, Conn.list_attached _ pcb ?_, .replace c.heap p v _ l⟩
  rw [harg]
  exact hl.replace rfl

theorem staysOn_sendData (pcb : c.pcb = .attached) (hl : AckList c.heap c.callbackArg l) (buf : List Byte)
    (takes : c.callbackArg = none → (malloc.run c.heap).isSome = true → tcp.Takes buf.length) :
    StaysOn c l (sendData c tcp malloc buf) := by
  cases hm : malloc.run c.heap with
  | none =>
    rw [sendData, hm]
    exact .idle (by rwa [Conn.head_attached pcb]) []
  | some node =>
    have hfresh := malloc.fresh hm
    cases harg : c.callbackArg with
    | none =>
      rw [harg] at hl
      cases hl
      have hlist : AckList (c.heap.set node (.ofBuf buf)) (some node) [(node, .ofBuf buf)] :=
        .cons (Heap.set_self _ _ _) .nil
      rw [sendData_first harg hm]
      exact .after [.queued buf] (.single hfresh _)
        (staysOn_send (c := ⟨c.heap.set node (.ofBuf buf), some node, c.pcb⟩) pcb rfl hlist (takes harg (by rw [hm]; rfl)))
    | some p =>
      rw [harg] at hl
      have hset := hl.set (hl.fresh hfresh) (.ofBuf buf)
      obtain ⟨init, ⟨a, w⟩, rfl⟩ : ∃ init x, l = init ++ [x] := by
        obtain ⟨_, _, rfl, -⟩ := hl.eq_cons
        exact ⟨_, _, (List.dropLast_append_getLast (List.cons_ne_nil _ _)).symm⟩
      have hlen := hl.length_le
      rw [List.length_append, List.length_singleton] at hlen
      have hlast := hset.last_eq rfl (Nat.lt_of_succ_le hlen)
      have hw := hset.lookup (x := (a, w)) (by simp)
      have happended : AckList ((c.heap.set node (.ofBuf buf)).set a { w with next := some node }) c.callbackArg
          (init ++ [(a, { w with next := some node }), (node, .ofBuf buf)]) := by
        rw [harg]
        exact hl.snoc hfresh rfl rfl
      refine ⟨⟨(c.heap.set node (.ofBuf buf)).set a { w with next := some node }, c.callbackArg, c.pcb⟩, [.queued buf], _,
        ?_, Conn.list_attached _ pcb happended, .snoc hfresh init a w _ _⟩
      simp only [sendData, hm, harg, hlast, Option.bind_eq_bind, Option.bind_some, hw, Heap.store_some hw]

theorem staysOn_sent (pcb : c.pcb = .attached) (hl : AckList c.heap c.callbackArg l) (tcp : Tcp) (len : Nat)
    (hs : SendsOk c (.sent tcp len)) : StaysOn c l (serverSent c tcp len) := by
  cases harg : c.callbackArg with
  | none =>
    rw [serverSent, harg]
    exact .idle (by rwa [Conn.head_attached pcb]) []
  | some p =>
    rw [harg] at hl
    obtain ⟨v, l, rfl, hv, tail⟩ := hl.eq_cons
    have hl' : AckList (c.heap.set p (v.ack len)) (some p) ((p, v.ack len) :: l) := hl.replace rfl
    have hnode : p ∉ l.map Prod.fst := (List.nodup_cons.mp hl.nodup).1
    have hfirst := Heap.Framed.replace c.heap p v (v.ack len) l
    -- The call that the callback makes, if it makes one.
    have hsending : ∀ left, (if 0 < v.left then some (tcp, v.left)
        else if (v.ack len).acked < v.len then none
        else (v.next.bind c.heap).bind fun w => some (tcp, w.left)) = some (tcp, left) → tcp.Takes left := by
      intro left h
      apply hs tcp left
      simpa [ConnEvent.sending, pcb, harg, hv] using h
    by_cases hleft : 0 < v.left
    · have hsend := staysOn_send (c := ⟨c.heap.set p (v.ack len), some p, c.pcb⟩) pcb rfl hl' (hsending _ (if_pos hleft))
      have hworks := StaysOn.after [] hfirst hsend
      rw [serverSent_more harg hv tcp len hleft]
      simpa using hworks
    have hleft' := Nat.eq_zero_of_not_pos hleft
    by_cases hacked : (v.ack len).acked < v.len
    · exact ⟨_, [], _, serverSent_wait harg hv tcp hleft' hacked, Conn.list_attached _ pcb hl', hfirst⟩
    · have hpop : AckList ((c.heap.set p (v.ack len)).erase p) v.next l := hl'.pop
      have hfreed := hfirst.trans (.pop (c.heap.set p (v.ack len)) hnode)
      cases hn : v.next with
      | none =>
        rw [hn] at tail hpop
        exact ⟨_, _, l, serverSent_last harg hv tcp hleft' hacked hn, Conn.list_attached _ pcb hpop, hfreed⟩
      | some q =>
        rw [hn] at tail hpop
        obtain ⟨w, l, rfl, hw, -⟩ := tail.eq_cons
        have takes : tcp.Takes w.left := by
          apply hsending
          rw [if_neg hleft, if_neg hacked, hn, Option.bind_some, hw]
          rfl
        rw [serverSent_next harg hv tcp hleft' hacked hn]
        exact .after [.freed p] hfreed
          (staysOn_send (c := ⟨(c.heap.set p (v.ack len)).erase p, some q, c.pcb⟩) pcb rfl hpop takes)

theorem freeList_framed (hl : AckList heap p l) : ∃ heap', freeList heap p = some heap' ∧ Heap.Framed heap l heap' [] := by
  cases p with
  | none =>
    cases hl
    exact ⟨heap, rfl, .refl _ _⟩
  | some p =>
    obtain ⟨heap', hfree, hgone, hkept⟩ := hl.freeAll_eq hl.length_le
    exact ⟨heap', hfree, .freed hgone hkept⟩

end

-- ---------------------------------------------------------------------------
-- The stream of a connection
-- ---------------------------------------------------------------------------

section
variable {past : List AckEffect} {c c' : Conn} {q : List Outgoing} {done : List (List Byte)}

theorem stream_accepted (heap : Heap AppToEth) : Stream [] (accepted heap) [] [] where
  pcb := rfl
  list := ⟨[], .nil, rfl⟩
  flow := ⟨⟨[], rfl, rfl⟩, rfl, rfl, nofun, nofun, nofun, rfl⟩
  opened := nofun

theorem Stream.congr (h : Stream past c q done) (hl : AckList c.heap c.callbackArg l)
    (hsame : ∀ x ∈ l, heap x.1 = c.heap x.1) : Stream past { c with heap := heap } q done where
  pcb := h.pcb
  list := by
    obtain ⟨l', hl', rfl⟩ := h.list
    obtain rfl := hl.det hl'
    exact ⟨l, hl.congr hsame, rfl⟩
  flow := h.flow
  opened := h.opened

def ConnEvent.frames : ConnEvent → List (List Byte)
  | .sendData _ _ buf => [buf]
  | .sent .. | .close | .err => []

theorem sendDataToClient_queued (h : sendDataToClient c tcp p = some (c', E)) : queued E = [] := by
  simp only [sendDataToClient, Option.bind_eq_bind, Option.bind_eq_some_iff] at h
  obtain ⟨v, -, h⟩ := h
  split at h
  · obtain ⟨heap, -, h⟩ := Option.bind_eq_some_iff.mp h
    obtain ⟨-, rfl⟩ := Prod.mk.inj (Option.some.inj h)
    rfl
  · obtain ⟨c₁, -, h⟩ := Option.bind_eq_some_iff.mp h
    obtain ⟨-, rfl⟩ := Prod.mk.inj (Option.some.inj h)
    rfl

theorem sendData_queued (h : sendData c tcp malloc buf = some (c', E)) : (queued E).Sublist [buf] := by
  simp only [sendData] at h
  split at h
  · obtain ⟨-, rfl⟩ := Prod.mk.inj (Option.some.inj h)
    exact List.nil_sublist _
  · split at h
    · simp only [Option.bind_eq_bind, Option.bind_eq_some_iff] at h
      obtain ⟨last, -, w, -, heap, -, h⟩ := h
      obtain ⟨-, rfl⟩ := Prod.mk.inj (Option.some.inj h)
      exact .refl _
    · obtain ⟨⟨c₁, E₁⟩, hsend, h⟩ := Option.bind_eq_some_iff.mp h
      obtain ⟨-, rfl⟩ := Prod.mk.inj (Option.some.inj h)
      have hnone := sendDataToClient_queued hsend
      show (buf :: queued E₁).Sublist [buf]
      rw [hnone]

theorem serverSent_queued (h : serverSent c tcp len = some (c', E)) : queued E = [] := by
  simp only [serverSent] at h
  split at h
  · obtain ⟨-, rfl⟩ := Prod.mk.inj (Option.some.inj h)
    rfl
  · simp only [Option.bind_eq_bind, Option.bind_eq_some_iff] at h
    obtain ⟨v, -, heap, -, h⟩ := h
    split at h
    · exact sendDataToClient_queued h
    · split at h
      · obtain ⟨-, rfl⟩ := Prod.mk.inj (Option.some.inj h)
        rfl
      · obtain ⟨heap', -, h⟩ := Option.bind_eq_some_iff.mp h
        split at h
        · obtain ⟨-, rfl⟩ := Prod.mk.inj (Option.some.inj h)
          rfl
        · obtain ⟨⟨c₁, E₁⟩, hsend, h⟩ := Option.bind_eq_some_iff.mp h
          obtain ⟨-, rfl⟩ := Prod.mk.inj (Option.some.inj h)
          have hnone := sendDataToClient_queued hsend
          exact hnone

/-- What a connection has had from its acks so far, whether it has ended or not. -/
structure Serves (past : List AckEffect) (c : Conn) : Prop where
  stream : c.pcb = .attached → ∃ q done, Stream past c q done
  written : written past <+: (queued past).flatten

def InPace (past : List AckEffect) (c : Conn) : ConnEvent → Prop
  | .close | .err => True
  | e => Paced past c e

theorem serves_accepted (heap : Heap AppToEth) : Serves [] (accepted heap) where
  stream _ := ⟨[], [], stream_accepted heap⟩
  written := List.nil_prefix

theorem Serves.ended (h : Serves past c) (hpcb : c'.pcb ≠ .attached) : Serves (past ++ []) c' where
  stream hattached := absurd hattached hpcb
  written := by
    rw [List.append_nil]
    exact h.written

theorem Stream.serves (h : Stream past c q done) : Serves past c where
  stream _ := ⟨q, done, h⟩
  written := h.flow.written_prefix

def ServesStep (past : List AckEffect) (c : Conn) (l : List (Addr × AppToEth)) (e : ConnEvent)
    (r : Option (Conn × List AckEffect)) : Prop :=
  ∃ c' E l', r = some (c', E) ∧ AckList c'.heap c'.head l' ∧ Heap.Framed c.heap l c'.heap l' ∧
    Serves (past ++ E) c' ∧ (c'.pcb ≠ .attached → c'.head = none) ∧ (queued E).Sublist e.frames ∧
    (c'.pcb = c.pcb ∨ e = .close ∨ e = .err)

theorem connStep_serves (h : Serves past c) (ended : c.pcb ≠ .attached → c.head = none)
    (inPace : c.pcb = .attached → InPace past c e) (hl : AckList c.heap c.head l) :
    ServesStep past c l e (connStep c e) := by
  by_cases pcb : c.pcb = .attached
  · have hlist := hl
    rw [Conn.head_attached pcb] at hlist
    obtain ⟨q, done, stream⟩ := h.stream pcb
    cases e with
    | sendData tcp malloc buf =>
      have paced : Paced past c (.sendData tcp malloc buf) := inPace pcb
      obtain ⟨c', E, q', hsend, stream'⟩ := stream.sendData paced
      have stays : StaysOn c _ (sendData c tcp malloc buf) :=
        staysOn_sendData pcb hlist buf fun harg hm => paced.1 _ _ (if_pos ⟨pcb, harg, hm⟩)
      obtain ⟨c₁, E₁, l', hworks, hl', framed⟩ := stays
      obtain ⟨rfl, rfl⟩ := Prod.mk.inj (Option.some.inj (hsend.symm.trans hworks))
      exact ⟨c', E, l', (if_pos pcb).trans hsend, hl', framed, stream'.serves, fun hne => absurd stream'.pcb hne,
        sendData_queued hsend, .inl (stream'.pcb.trans pcb.symm)⟩
    | sent tcp len =>
      have paced : Paced past c (.sent tcp len) := inPace pcb
      obtain ⟨c', E, q', done', hsent, stream'⟩ := stream.sent paced
      obtain ⟨c₁, E₁, l', hworks, hl', framed⟩ := staysOn_sent pcb hlist tcp len paced.1
      obtain ⟨rfl, rfl⟩ := Prod.mk.inj (Option.some.inj (hsent.symm.trans hworks))
      have hnone := serverSent_queued hsent
      have hqueued : queued (.notified len :: E) = [] := hnone
      exact ⟨c', _, l', connStep_sent pcb hsent, hl', framed, stream'.serves, fun hne => absurd stream'.pcb hne,
        hqueued ▸ .refl _, .inl (stream'.pcb.trans pcb.symm)⟩
    | close =>
      obtain ⟨heap, hfree, framed⟩ := freeList_framed hlist
      exact ⟨⟨heap, none, .closed⟩, [], [], by simp [connStep, pcb, serverCloseConnection, hfree], .nil, framed,
        h.ended (by simp), fun _ => rfl, .refl _, .inr (.inl rfl)⟩
    | err =>
      obtain ⟨heap, hfree, framed⟩ := freeList_framed hlist
      exact ⟨⟨heap, c.callbackArg, .gone⟩, [], [], by simp [connStep, pcb, serverConnectionErr, hfree], .nil, framed,
        h.ended (by simp), fun _ => rfl, .refl _, .inr (.inr rfl)⟩
  · have idle : connStep c e = some (c, []) → ServesStep past c l e (connStep c e) := fun hstep =>
      ⟨c, [], l, hstep, hl, .refl _ _, h.ended pcb, ended, List.nil_sublist _, .inl rfl⟩
    cases e with
    | sendData => exact idle (if_neg pcb)
    | sent => exact idle (if_neg pcb)
    | close => exact idle (if_neg pcb)
    | err =>
      by_cases gone : c.pcb = .gone
      · exact idle (if_pos gone)
      · have hhead : c.head = c.callbackArg := if_neg gone
        rw [hhead] at hl
        obtain ⟨heap, hfree, framed⟩ := freeList_framed hl
        exact ⟨⟨heap, c.callbackArg, .gone⟩, [], [], by simp [connStep, gone, serverConnectionErr, hfree], .nil, framed,
          h.ended (by simp), fun _ => rfl, .refl _, .inr (.inr rfl)⟩

end

end EthernetOta.Firmware
