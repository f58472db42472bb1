import Mathlib.Algebra.Order.BigOperators.Group.List
import EthernetOta.Firmware.PoolRep
import EthernetOta.Lib.Faulting

/-!
# Forwarding data to the UART

The receive callback, the poll of the main loop and the interrupt, in every
order. The last statement of a poll enables the interrupt, and `server_recv`
reads nothing that it writes: it is a step of its own.
-/

namespace EthernetOta.Firmware

-- ---------------------------------------------------------------------------
-- Runs
-- ---------------------------------------------------------------------------

structure Uart where
  net : Net
  /-- The connections that were closed or reported dead. -/
  ended : Pcb → Bool

inductive UartEvent
  /-- `server_recv` with data that does not start like an upgrade frame. -/
  | recv (pcb : Pcb) (p : PbufChain) (malloc : Heap.Malloc SubData)
  | poll
  | interrupt
  /-- `server_recv` without data, which calls `server_close_connection`. -/
  | close (pcb : Pcb)
  /-- `server_connection_err` -/
  | err (pcb : Pcb)

def Uart.endConn (s : Uart) (pcb : Pcb) : Uart := { s with ended := fun p => p = pcb || s.ended p }

/-- Both ends of a connection free its acks and leave the pools as they are. -/
def uartStep (remote : Pcb → Client) (s : Uart) : UartEvent → Option (Uart × List NetEffect)
  | .recv pcb p malloc =>
    -- lwIP makes no call for a connection that is no more
    if s.ended pcb then some (s, [])
    else do
      let (net, effects) ← serverRecvOther s.net pcb (remote pcb).1 (remote pcb).2 p malloc
      some ({ s with net := net }, effects)
  | .poll => do
    let (net, effects) ← checkUartDataPool s.net
    some ({ s with net := net }, effects)
  | .interrupt => some ({ s with net := (uart1Handler s.net).1 }, (uart1Handler s.net).2)
  | .close pcb => some (s.endConn pcb, [])
  | .err pcb => some (s.endConn pcb, [])

def uart (remote : Pcb → Client) : Faulting Uart UartEvent NetEffect where
  step := uartStep remote

def uartInit : Uart where
  net := networkInit
  ended := fun _ => false

def rounds (k : Nat) : List UartEvent := (List.replicate k [UartEvent.interrupt, .poll]).flatten

def Uart.source (s : Uart) : UartEvent → Option Pcb
  | .recv pcb _ _ => if s.ended pcb then none else some pcb
  | _ => none

section

variable {remote : Pcb → Client} {s : Uart} {f : Pools} {past : List NetEffect}

theorem uartStep_run (remote : Pcb → Client) (hr : Rep s.net f) (hok : f.Ok) (e : UartEvent) :
    ∃ s' effects f', uartStep remote s e = some (s', effects) ∧
      Pools.Run remote (s.source e) f effects f' ∧ Rep s'.net f' := by
  cases e with
  | recv pcb p malloc =>
    simp only [uartStep, Uart.source]
    split
    · exact ⟨s, [], f, rfl, .nil, hr⟩
    · obtain ⟨net, effects, f', hn, hrun, hr'⟩ := hr.recv remote pcb hok malloc p
      refine ⟨{ s with net := net }, effects, f', ?_, hrun, hr'⟩
      simp only [hn, Option.bind_eq_bind, Option.bind_some]
  | poll =>
    obtain ⟨net, effects, f', hn, hrun, hr', -⟩ := hr.poll remote none hok
    refine ⟨{ s with net := net }, effects, f', ?_, hrun, hr'⟩
    simp only [uartStep, hn, Option.bind_eq_bind, Option.bind_some]
  | interrupt =>
    obtain ⟨effects, hn, hrun, hr'⟩ := hr.interrupt remote none hok
    exact ⟨_, effects, _, by rw [uartStep, hn], hrun, hr'⟩
  | close pcb => exact ⟨_, [], f, rfl, .nil, hr⟩
  | err pcb => exact ⟨_, [], f, rfl, .nil, hr⟩

theorem uart_history (remote : Pcb → Client) (events : List UartEvent) :
    ∃ s effects f, (uart remote).run uartInit events = some (s, effects) ∧ Rep s.net f ∧ f.Ok ∧
      f.Told remote effects := by
  obtain ⟨s, effects, hrun, f, hr, hok, ht⟩ := Faulting.history (m := uart remote) (s := uartInit)
    (R := fun past (s : Uart) => ∃ f : Pools, Rep s.net f ∧ f.Ok ∧ f.Told remote past)
    (fun past s e ⟨f, hr, hok, ht⟩ => by
      obtain ⟨s', effects, f', hs, hsteps, hr'⟩ := uartStep_run remote hr hok e
      exact ⟨s', effects, hs, f', hr', hok.run hsteps, ht.run hok hsteps⟩)
    ⟨poolsInit, rep_init, ok_init, told_init⟩ events
  exact ⟨s, effects, f, hrun, hr, hok, ht⟩

theorem uart_round (remote : Pcb → Client) (hr : Rep s.net f) (hok : f.Ok) :
    ∃ s' effects f', (uart remote).run s [.interrupt, .poll] = some (s', effects) ∧
      Pools.Run remote none f effects f' ∧ Rep s'.net f' ∧ f'.bufs = f.waiting ∧
      (f'.cur = none → ∀ i, f'.bufs i = []) := by
  obtain ⟨effects, hn, hrun, hr'⟩ := hr.interrupt remote none hok
  obtain ⟨net, rest, f', hpoll, hrun', hr'', hnext⟩ := hr'.poll remote none hok.idle
  have hstep : uartStep remote { s with net := (uart1Handler s.net).1 } .poll =
      some ({ s with net := net }, rest) := by
    simp only [uartStep, hpoll, Option.bind_eq_bind, Option.bind_some]
  refine ⟨{ s with net := net }, effects ++ (rest ++ []), f', ?_, ?_, hr'', hnext rfl⟩
  · exact Faulting.run_cons (show uartStep remote s .interrupt = _ by rw [uartStep, hn])
      (Faulting.run_cons hstep rfl)
  · rw [List.append_nil]
    exact hrun.append hrun'

def Pools.count (f : Pools) : Nat :=
  ((List.finRange maximumPoolForDataFromEth).map fun i => (f.bufs i).length).sum

theorem Pools.count_eq_zero {f : Pools} (h : f.count = 0) (i : PoolIdx) : f.bufs i = [] := by
  have hi := List.sum_eq_zero_iff.mp h _ (List.mem_map_of_mem (List.mem_finRange i))
  exact List.length_eq_zero_iff.mp hi

theorem count_lt {f f' : Pools} (hok : f.Ok) (cur : f.cur = some i) (h : f'.bufs = f.waiting) :
    f'.count < f.count := by
  have hle : ∀ j, (f.waiting j).length ≤ (f.bufs j).length := by
    intro j
    rw [Pools.waiting]
    split
    · rw [List.length_tail]
      exact Nat.sub_le _ _
    · exact Nat.le_refl _
  have hlt : (f.waiting i).length < (f.bufs i).length := by
    rw [Pools.waiting, if_pos cur, List.length_tail]
    exact Nat.sub_lt (List.length_pos_of_ne_nil (hok.cur i cur)) Nat.one_pos
  rw [Pools.count, Pools.count, h]
  exact List.sum_lt_sum _ _ (fun j _ => hle j) ⟨i, List.mem_finRange i, hlt⟩

theorem uart_drain (remote : Pcb → Client) (hr : Rep s.net f) (hok : f.Ok) (hnext : f.cur = none → ∀ i, f.bufs i = [])
    (hcount : f.count ≤ k) :
    ∃ s' effects f', (uart remote).run s (rounds k) = some (s', effects) ∧ Pools.Run remote none f effects f' ∧
      Rep s'.net f' ∧ ∀ i, f'.bufs i = [] := by
  induction k generalizing s f with
  | zero => exact ⟨s, [], f, rfl, .nil, hr, Pools.count_eq_zero (Nat.le_zero.mp hcount)⟩
  | succ k ih =>
    obtain ⟨s₁, effects, f₁, hrun, hsteps, hr₁, hbufs, hempty⟩ := uart_round remote hr hok
    have hok₁ := hok.run hsteps
    have hcount₁ : f₁.count ≤ k := by
      cases cur : f.cur with
      | none =>
        have hzero : f₁.count = 0 := by
          simp [Pools.count, hbufs, Pools.waiting_of_none cur, hnext cur]
        rw [hzero]
        exact Nat.zero_le k
      | some i => exact Nat.le_of_lt_succ (Nat.lt_of_lt_of_le (count_lt hok cur hbufs) hcount)
    obtain ⟨s', rest, f', hrun', hsteps', hr', hdone⟩ := ih hr₁ hok₁ hempty hcount₁
    refine ⟨s', effects ++ rest, f', ?_, hsteps.append hsteps', hr', hdone⟩
    exact Faulting.run_append hrun hrun'

end

/-- No node is used out of turn: freed once, and only after the end of its own transfer. -/
theorem life_ne_none {f : Pools} (ht : f.Told remote past) (node : Addr) : life node past ≠ none := by
  by_cases hfree : ∀ i, ∀ b ∈ f.bufs i, b.node ≠ node
  · rw [ht.free node hfree]
    exact Option.some_ne_none _
  · simp only [not_forall, Decidable.not_not] at hfree
    obtain ⟨i, b, hb, rfl⟩ := hfree
    by_cases hw : b ∈ f.waiting i
    · rw [ht.queued i b hw]
      exact Option.some_ne_none _
    · rw [Pools.waiting] at hw
      split at hw
      · rename_i cur
        obtain ⟨b', bs, head⟩ := List.exists_cons_of_ne_nil (List.ne_nil_of_mem hb)
        rw [head] at hb hw
        obtain rfl := (List.mem_cons.mp hb).resolve_right hw
        rw [ht.head i b bs cur head]
        exact Option.some_ne_none _
      · exact absurd hb hw

/-- In every run nothing faults, each client's payloads are handed to the PDC in
the order they came, no node is used out of turn, no client has two pools, the
flow control is told of what has left the pools, and what is left in them goes
out as the transfers end. -/
theorem uart_forwarding (remote : Pcb → Client) (events : List UartEvent) :
    ∃ s effects f, (uart remote).run uartInit events = some (s, effects) ∧ Rep s.net f ∧
      f.Told remote effects ∧ (∀ node, life node effects ≠ none) ∧
      (∀ i j, (s.net.dataFromEth i).dirty = true → (s.net.dataFromEth j).dirty = true →
        (s.net.dataFromEth i).ipaddr = (s.net.dataFromEth j).ipaddr →
        (s.net.dataFromEth i).port = (s.net.dataFromEth j).port → i = j) ∧
      ∃ k s' rest, (uart remote).run s (rounds k) = some (s', rest) ∧
        ∀ c, handedFrom c (effects ++ rest) = acceptedFrom c (effects ++ rest) := by
  obtain ⟨s, effects, f, hrun, hr, hok, ht⟩ := uart_history remote events
  refine ⟨s, effects, f, hrun, hr, ht, life_ne_none ht, ?_, ?_⟩
  · intro i j hi hj hip hport
    have hi' := (hr.dirty i).mp hi
    have hj' := (hr.dirty j).mp hj
    refine hok.clients i j hi' hj' ?_
    rw [← hr.client i hi', ← hr.client j hj', hip, hport]
  · obtain ⟨s₁, effects₁, f₁, hrun₁, hsteps₁, hr₁, hbufs, hempty⟩ := uart_round remote hr hok
    have hok₁ := hok.run hsteps₁
    obtain ⟨s', rest, f', hrun', hsteps', -, hdone⟩ := uart_drain remote hr₁ hok₁ hempty (Nat.le_refl _)
    refine ⟨f₁.count + 1, s', effects₁ ++ rest, Faulting.run_append hrun₁ hrun', fun c => ?_⟩
    have ht' := ht.run hok (hsteps₁.append hsteps')
    exact (ht'.served c fun i hne => absurd (hdone i) hne).symm

-- ---------------------------------------------------------------------------
-- Connections that end
-- ---------------------------------------------------------------------------

def Queued (n : Net) (pcb : Pcb) : Prop :=
  ∃ i bufs, Queue n.heap (n.dataFromEth i).next bufs ∧ ∃ b ∈ bufs, b.state = pcb

/-- No connection ends while a payload of it is queued. -/
def EndsDrained (_past : List NetEffect) (s : Uart) : UartEvent → Prop
  | .close pcb | .err pcb => ¬ Queued s.net pcb
  | _ => True

/-- `tcp_recved` is called for connections that have not ended. -/
def RecvedLive (remote : Pcb → Client) (_past : List NetEffect) (s : Uart) (e : UartEvent) : Prop :=
  ∀ s' effects, uartStep remote s e = some (s', effects) →
    ∀ pcb len, .tcpRecved pcb len ∈ effects → s.ended pcb = false

theorem uartStep_ended (hs : uartStep remote s e = some (s', effects)) (hcond : EndsDrained past s e)
    (hr : Rep s'.net f) (hb : b ∈ f.bufs i) (hlive : s.ended b.state = false) :
    s'.ended b.state = false := by
  have hend : ∀ pcb, s' = s.endConn pcb → ¬ Queued s.net pcb → s'.ended b.state = false := by
    rintro pcb rfl hq
    have hne : b.state ≠ pcb := fun heq => hq ⟨i, f.bufs i, hr.queue i, b, hb, heq⟩
    simpa [Uart.endConn, hne] using hlive
  cases e with
  | recv pcb p malloc =>
    simp only [uartStep] at hs
    split at hs
    · obtain ⟨rfl, rfl⟩ := Prod.mk.inj (Option.some.inj hs)
      exact hlive
    · obtain ⟨⟨net, rest⟩, -, hs⟩ := Option.bind_eq_some_iff.mp hs
      obtain ⟨rfl, rfl⟩ := Prod.mk.inj (Option.some.inj hs)
      exact hlive
  | poll =>
    obtain ⟨⟨net, rest⟩, -, hs⟩ := Option.bind_eq_some_iff.mp hs
    obtain ⟨rfl, rfl⟩ := Prod.mk.inj (Option.some.inj hs)
    exact hlive
  | interrupt =>
    obtain ⟨rfl, rfl⟩ := Prod.mk.inj (Option.some.inj hs)
    exact hlive
  | close pcb =>
    obtain ⟨rfl, rfl⟩ := Prod.mk.inj (Option.some.inj hs)
    exact hend pcb rfl hcond
  | err pcb =>
    obtain ⟨rfl, rfl⟩ := Prod.mk.inj (Option.some.inj hs)
    exact hend pcb rfl hcond

/-- In every run whose connections end with nothing queued, `tcp_recved` is only
called for connections that have not ended. -/
theorem recved_live {remote : Pcb → Client} (hm : (uart remote).Meets EndsDrained [] uartInit events) :
    (uart remote).Meets (RecvedLive remote) [] uartInit events := by
  refine Faulting.Meets.of_history (R := fun _ s => ∃ f : Pools, Rep s.net f ∧ f.Ok ∧
    ∀ i, ∀ b ∈ f.bufs i, s.ended b.state = false) ?_ ⟨poolsInit, rep_init, ok_init, nofun⟩ hm
  rintro past s e ⟨f, hr, hok, hlive⟩ hcond
  obtain ⟨s', effects, f', hs, hsteps, hr'⟩ := uartStep_run remote hr hok e
  have hsrc : ∀ pcb, s.source e = some pcb → s.ended pcb = false := by
    intro pcb h
    cases e with
    | recv p _ _ =>
      simp only [Uart.source, Option.ite_none_left_eq_some] at h
      exact Option.some.inj h.2 ▸ Bool.eq_false_iff.mpr h.1
    | poll => exact nomatch h
    | interrupt => exact nomatch h
    | close p => exact nomatch h
    | err p => exact nomatch h
  obtain ⟨hrecved, hlive'⟩ := hsteps.states (P := fun pcb => s.ended pcb = false) hsrc hlive
  refine ⟨fun s'' effects' hs' => ?_, fun s'' effects' hs' => ?_⟩
  · obtain ⟨rfl, rfl⟩ := Prod.mk.inj (Option.some.inj (hs.symm.trans hs'))
    exact hrecved
  · obtain ⟨rfl, rfl⟩ := Prod.mk.inj (Option.some.inj (hs.symm.trans hs'))
    exact ⟨f', hr', hok.run hsteps, fun i b hb => uartStep_ended hs hcond hr' hb (hlive' i b hb)⟩

def mallocAt16 : Heap.Malloc SubData where
  run h := if (h 16).isNone then some 16 else none
  fresh hrun := by
    split at hrun
    · rename_i hnone
      exact Option.some.inj hrun ▸ Option.isNone_iff_eq_none.mp hnone
    · exact nomatch hrun

/-- Data of connection 1 goes to the UART, and the client closes it after the transfer. -/
def closedDrained : List UartEvent :=
  [.recv 1 [[0x41]] mallocAt16, .poll, .interrupt, .poll, .close 1]

def oneRemote (_pcb : Pcb) : Client := (0xC0A80002, 5000)

theorem not_queued {n : Net} (h : ∀ i, (n.dataFromEth i).next = none) (pcb : Pcb) : ¬ Queued n pcb := by
  rintro ⟨i, bufs, hq, b, hb, -⟩
  rw [hq.eq_none_iff.mp (h i)] at hb
  exact nomatch hb

theorem recved_live_drained : (uart oneRemote).Meets (RecvedLive oneRemote) [] uartInit closedDrained := by
  refine recved_live (.cons trivial rfl (.cons trivial rfl (.cons trivial rfl (.cons trivial rfl
    (.cons ?_ rfl trivial)))))
  exact not_queued (by decide) 1

/-- Data of connection 1 goes to the UART, and the client closes it before the transfer ends. -/
def closedEarly : List UartEvent :=
  [.recv 1 [[0x41]] mallocAt16, .poll, .close 1, .interrupt]

theorem recved_ended : ¬ (uart oneRemote).Meets (RecvedLive oneRemote) [] uartInit (closedEarly ++ [.poll]) := by
  intro hm
  have hlast := hm.last rfl
  have hended := hlast _ _ rfl 1 1 (List.mem_cons_self ..)
  exact nomatch hended

end EthernetOta.Firmware
