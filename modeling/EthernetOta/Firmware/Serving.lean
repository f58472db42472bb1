import EthernetOta.Firmware.Connections
import EthernetOta.Firmware.Device
import EthernetOta.Firmware.Nodes
import EthernetOta.Firmware.Reassembly
import EthernetOta.Firmware.Uart
import EthernetOta.System.AckChunks

/-!
# The board at work

The callbacks of any number of connections, the polls of the main loop and the
interrupt of the UART, in every order, on one state. One device answers all
connections; each has its own list of acks on one heap, and each client its own queue
of payloads for the UART. A bank switch ends with a reset, after which there is no
connection and nothing is allocated.
-/

namespace EthernetOta.Firmware

-- ---------------------------------------------------------------------------
-- The state
-- ---------------------------------------------------------------------------

structure TcpPcb where
  callbackArg : Option Addr
  state : PcbState

structure Server extends Board where
  acks : Heap AppToEth
  /-- The connections `server_accept` was called for. -/
  pcbs : Pcb → Option TcpPcb

def Server.conn (s : Server) (pcb : Pcb) : Conn :=
  match s.pcbs pcb with
  | none => ⟨s.acks, none, .gone⟩
  | some t => ⟨s.acks, t.callbackArg, t.state⟩

def Server.setConn (s : Server) (pcb : Pcb) (c : Conn) : Server :=
  { s with acks := c.heap, pcbs := Function.update s.pcbs pcb (some ⟨c.callbackArg, c.pcb⟩) }

/-- After a reset: `network_init` has run, and no client has connected. -/
def Server.started (dev : Dev) : Server where
  dev := dev
  net := networkInit
  acks := fun _ => none
  pcbs := fun _ => none

inductive ServerEvent
  /-- `server_accept` -/
  | accept (pcb : Pcb)
  /-- `server_recv` with data -/
  | recv (pcb : Pcb) (p : List Byte) (next : PbufChain) (env : RecvEnv) (tcp : Tcp) (malloc : Heap.Malloc AppToEth)
  /-- `server_sent` -/
  | sent (pcb : Pcb) (tcp : Tcp) (len : Nat)
  /-- `server_recv` without data -/
  | close (pcb : Pcb)
  /-- `server_connection_err` -/
  | err (pcb : Pcb)
  /-- `check_uart_data_pool` -/
  | poll
  /-- `UART1_Handler` -/
  | interrupt
  /-- `switching_timer_poll` -/
  | switching (curTime : Word) (o : GpnvmOutcome)

inductive ServerEffect
  | ack (pcb : Pcb) (e : AckEffect)
  | net (e : NetEffect)
  /-- A turn of the device, and the connection its frame came on. -/
  | device (src : Option Pcb) (t : DeviceTurn)
  | reset

-- ---------------------------------------------------------------------------
-- Steps
-- ---------------------------------------------------------------------------

def Server.callback (s : Server) (pcb : Pcb) (e : ConnEvent) : Option (Server × List ServerEffect) :=
  match s.pcbs pcb with
  | none => some (s, [])
  | some _ => do
    let (c, effects) ← connStep (s.conn pcb) e
    some (s.setConn pcb c, effects.map (.ack pcb))

/-- What `server_recv` does, in order; `turn` is the device's for a frame. -/
def Server.react (turn : List Byte → DeviceTurn) (pcb : Pcb) (tcp : Tcp) (malloc : Heap.Malloc AppToEth) (s : Server) :
    List RecvEffect → Option (Server × List ServerEffect)
  | [] => some (s, [])
  | .handled frame :: effects => do
    let (s, rest) ← s.react turn pcb tcp malloc effects
    some (s, .device (some pcb) (turn frame) :: rest)
  | .net e :: effects => do
    let (s, rest) ← s.react turn pcb tcp malloc effects
    some (s, .net e :: rest)
  | .sendData frame :: effects => do
    let (s, first) ← s.callback pcb (.sendData tcp malloc frame)
    let (s, rest) ← s.react turn pcb tcp malloc effects
    some (s, first ++ rest)

def Server.recv (lib : GcmLib) (idx : Int) (remote : Pcb → Client) (s : Server) (pcb : Pcb) (p : List Byte)
    (next : PbufChain) (env : RecvEnv) (tcp : Tcp) (malloc : Heap.Malloc AppToEth) :
    Option (Server × List ServerEffect) := do
  let turn := fun frame => (device lib idx).turn s.dev (.frame ⟨.ofList frame env.behind, env.upgrade⟩)
  let (b, effects) ← serverRecv lib s.toBoard pcb (remote pcb).1 (remote pcb).2 p next env
  let (s, rest) ← ({ s with toBoard := b } : Server).react turn pcb tcp malloc effects
  if startsUpgrade (.ofList p env.behind) then
    -- of other data `serverRecvOther` tells itself
    some (s, .net (.received pcb (PbufChain.totLen (p :: next))) :: rest)
  else some (s, rest)

def serverStep (lib : GcmLib) (idx : Int) (remote : Pcb → Client) (s : Server) :
    ServerEvent → Option (Server × List ServerEffect)
  | .accept pcb =>
    match s.pcbs pcb with
    | none => some (s.setConn pcb (accepted s.acks), [])
    | some _ => some (s, [])
  | .recv pcb p next env tcp malloc =>
    if (s.conn pcb).pcb = .attached then s.recv lib idx remote pcb p next env tcp malloc else some (s, [])
  | .sent pcb tcp len => s.callback pcb (.sent tcp len)
  | .close pcb => s.callback pcb .close
  | .err pcb => s.callback pcb .err
  | .poll => do
    let (net, effects) ← checkUartDataPool s.net
    some ({ s with net := net }, effects.map .net)
  | .interrupt => some ({ s with net := (uart1Handler s.net).1 }, (uart1Handler s.net).2.map .net)
  | .switching curTime o =>
    let t := (device lib idx).turn s.dev (.poll curTime o)
    match t.out.2 with
    | [] => some ({ s with dev := t.post }, [.device none t])
    | _ :: _ => some (.started t.post, [.device none t, .reset])

def tcpServer (lib : GcmLib) (idx : Int) (remote : Pcb → Client) : Faulting Server ServerEvent ServerEffect where
  step := serverStep lib idx remote

-- ---------------------------------------------------------------------------
-- Histories
-- ---------------------------------------------------------------------------

def sinceReset (past : List ServerEffect) : List ServerEffect :=
  past.foldl (fun now e => match e with | .reset => [] | e => now ++ [e]) []

def acksOn (pcb : Pcb) (effects : List ServerEffect) : List AckEffect := effects.filterMap fun
  | .ack p e => if p = pcb then some e else none
  | _ => none

def netOf (effects : List ServerEffect) : List NetEffect := effects.filterMap fun
  | .net e => some e
  | _ => none

def turnsOf (effects : List ServerEffect) : List DeviceTurn := effects.filterMap fun
  | .device _ t => some t
  | _ => none

def answersOn (pcb : Pcb) (effects : List ServerEffect) : List Out := effects.filterMap fun
  | .device (some p) t => if p = pcb then t.out.1 else none
  | _ => none

def framesFor (pcb : Pcb) (effects : List ServerEffect) : List (List Byte) :=
  (answersOn pcb effects).map fun out => generateAckFrame out.ack

theorem sinceReset_append (h : .reset ∉ now) : sinceReset (past ++ now) = sinceReset past ++ now := by
  induction now generalizing past with
  | nil => simp
  | cons e now ih =>
    have hrest : sinceReset (past ++ [e] ++ now) = sinceReset (past ++ [e]) ++ now :=
      ih fun hin => h (List.mem_cons_of_mem _ hin)
    have hfirst : sinceReset (past ++ [e]) = sinceReset past ++ [e] := by
      rw [sinceReset, List.foldl_append]
      cases e with
      | reset => exact absurd List.mem_cons_self h
      | _ => rfl
    rw [List.append_cons, hrest, hfirst, List.append_assoc]
    rfl

theorem sinceReset_reset (past : List ServerEffect) : sinceReset (past ++ [.device none t, .reset]) = [] := by
  simp [sinceReset, List.foldl_append]

@[simp] theorem acksOn_append (pcb : Pcb) (a b : List ServerEffect) :
    acksOn pcb (a ++ b) = acksOn pcb a ++ acksOn pcb b := List.filterMap_append

@[simp] theorem netOf_append (a b : List ServerEffect) : netOf (a ++ b) = netOf a ++ netOf b := List.filterMap_append

@[simp] theorem turnsOf_append (a b : List ServerEffect) : turnsOf (a ++ b) = turnsOf a ++ turnsOf b :=
  List.filterMap_append

@[simp] theorem framesFor_append (pcb : Pcb) (a b : List ServerEffect) :
    framesFor pcb (a ++ b) = framesFor pcb a ++ framesFor pcb b := by
  simp [framesFor, answersOn, List.filterMap_append]

section
variable (pcb : Pcb) (E : List AckEffect)

@[simp] theorem acksOn_acks : acksOn pcb (E.map (.ack pcb)) = E := by simp [acksOn]

@[simp] theorem acksOn_others (h : j ≠ pcb) : acksOn j (E.map (.ack pcb)) = [] := by simp [acksOn, Ne.symm h]

@[simp] theorem netOf_acks : netOf (E.map (.ack pcb)) = [] := by simp [netOf]

@[simp] theorem turnsOf_acks : turnsOf (E.map (.ack pcb)) = [] := by simp [turnsOf]

@[simp] theorem framesFor_acks : framesFor j (E.map (.ack pcb)) = [] := by simp [framesFor, answersOn]

@[simp] theorem acksOn_nets (effects : List NetEffect) : acksOn pcb (effects.map .net) = [] := by simp [acksOn]

@[simp] theorem netOf_nets (effects : List NetEffect) : netOf (effects.map .net) = effects := by
  simp [netOf]

@[simp] theorem turnsOf_nets (effects : List NetEffect) : turnsOf (effects.map .net) = [] := by simp [turnsOf]

end

-- ---------------------------------------------------------------------------
-- What holds between two events
-- ---------------------------------------------------------------------------

structure Logged (lib : GcmLib) (idx : Int) (flash : Flash) (past : List ServerEffect) (d : Dev) : Prop where
  turns : turnsOf past = (device lib idx).turns (boot idx flash) ((turnsOf past).map Turn.input)
  dev : d = (device lib idx).run (boot idx flash) ((turnsOf past).map Turn.input)

structure Connected (now : List ServerEffect) (s : Server) : Prop where
  shared : ∃ lists, Heap.Shared AppToEth.next s.acks (fun pcb => (s.conn pcb).head) lists
  serves : ∀ pcb, Serves (acksOn pcb now) (s.conn pcb)
  /-- One that has ended has no acks left. -/
  ended : ∀ pcb, (s.conn pcb).pcb ≠ .attached → (s.conn pcb).head = none
  fresh : ∀ pcb, s.pcbs pcb = none → acksOn pcb now = []
  answered : ∀ pcb, (queued (acksOn pcb now)).Sublist (framesFor pcb now)

structure Forwarded (remote : Pcb → Client) (now : List ServerEffect) (s : Server) : Prop where
  pools : ∃ f : Pools, Rep s.net f ∧ f.Ok ∧ f.Told remote (netOf now) ∧
    ∀ i, ∀ b ∈ f.bufs i, (s.conn b.state).pcb = .attached
  held : ∀ a, s.net.heap a ≠ none → life a (netOf now) ≠ some .free

/-- What lwIP and the clients have to do for it: the flow control and `tcp_write` do
their part, a frame in a chain fits the buffer it is put together in, and no connection
ends while a payload of it is queued. -/
def Regular (past : List ServerEffect) (s : Server) : ServerEvent → Prop
  | .recv pcb p next env tcp malloc =>
    (s.conn pcb).pcb = .attached → startsUpgrade (.ofList p env.behind) = true →
      (next ≠ [] → PbufChain.totLen (p :: next) ≤ maxPlaintextLen) ∧
      ∀ ack, SendsOk (s.conn pcb) (.sendData tcp malloc (generateAckFrame ack))
  | .sent pcb tcp len =>
    (s.conn pcb).pcb = .attached → Paced (acksOn pcb (sinceReset past)) (s.conn pcb) (.sent tcp len)
  | .close pcb | .err pcb => ¬ Queued s.net pcb
  | .accept _ | .poll | .interrupt | .switching .. => True

structure Serving (lib : GcmLib) (idx : Int) (flash : Flash) (remote : Pcb → Client) (past : List ServerEffect)
    (s : Server) : Prop where
  logged : Logged lib idx flash past s.dev
  connected : Connected (sinceReset past) s
  forwarded : Forwarded remote (sinceReset past) s

section
variable {lib : GcmLib} {idx : Int} {flash : Flash} {remote : Pcb → Client} {past now E : List ServerEffect}
  {s : Server} {pcb : Pcb} {b : Board} {c : Conn}

theorem Logged.turn (h : Logged lib idx flash past d) (hE : turnsOf E = [(device lib idx).turn d i]) :
    Logged lib idx flash (past ++ E) ((device lib idx).next d i) := by
  have hinput : (turnsOf (past ++ E)).map Turn.input = (turnsOf past).map Turn.input ++ [i] := by
    rw [turnsOf_append, hE, List.map_append]
    rfl
  constructor
  · rw [hinput, Machine.turns_snoc, ← h.turns, ← h.dev, turnsOf_append, hE]
  · rw [hinput, Machine.run_snoc, ← h.dev]

theorem Logged.keep (h : Logged lib idx flash past d) (hE : turnsOf E = []) : Logged lib idx flash (past ++ E) d := by
  have hsame : turnsOf (past ++ E) = turnsOf past := by rw [turnsOf_append, hE, List.append_nil]
  exact ⟨by rw [hsame]; exact h.turns, by rw [hsame]; exact h.dev⟩

theorem connected_started (dev : Dev) : Connected [] (.started dev) where
  shared := ⟨_, .empty _ fun _ => rfl⟩
  serves _ := ⟨nofun, List.nil_prefix⟩
  ended _ _ := rfl
  fresh _ _ := rfl
  answered _ := .refl _

theorem forwarded_started (remote : Pcb → Client) (dev : Dev) : Forwarded remote [] (.started dev) where
  pools := ⟨poolsInit, rep_init, ok_init, told_init, nofun⟩
  held _ ha := absurd rfl ha

theorem conn_heap (s : Server) (j : Pcb) : (s.conn j).heap = s.acks := by
  unfold Server.conn
  split <;> rfl

theorem conn_setConn (s : Server) (pcb : Pcb) (c : Conn) : (s.setConn pcb c).conn pcb = c := by
  simp [Server.conn, Server.setConn]

theorem conn_setConn_ne (s : Server) (c : Conn) (hj : j ≠ pcb) :
    (s.setConn pcb c).conn j = { s.conn j with heap := c.heap } := by
  simp only [Server.conn, Server.setConn, Function.update_of_ne hj]
  cases s.pcbs j <;> rfl

theorem heads_setConn (s : Server) (pcb : Pcb) (c : Conn) : (fun j => ((s.setConn pcb c).conn j).head) =
    Function.update (fun j => (s.conn j).head) pcb c.head := by
  funext j
  by_cases hj : j = pcb
  · subst hj
    rw [conn_setConn, Function.update_self]
  · rw [conn_setConn_ne s c hj, Function.update_of_ne hj]
    rfl

-- ---------------------------------------------------------------------------
-- The connections
-- ---------------------------------------------------------------------------

theorem Connected.keep (h : Connected now s) (b : Board) (hE : ∀ j, acksOn j E = []) :
    Connected (now ++ E) { s with toBoard := b } := by
  have hacks : ∀ j, acksOn j (now ++ E) = acksOn j now := fun j => by rw [acksOn_append, hE, List.append_nil]
  constructor
  · exact h.shared
  · exact fun j => hacks j ▸ h.serves j
  · exact h.ended
  · exact fun j hj => (hacks j).trans (h.fresh j hj)
  · exact fun j => by rw [hacks, framesFor_append]; exact (h.answered j).trans (List.sublist_append_left _ _)

theorem Connected.accept (h : Connected now s) (hnone : s.pcbs pcb = none) :
    Connected (now ++ []) (s.setConn pcb (accepted s.acks)) := by
  rw [List.append_nil]
  have hgone : s.conn pcb = ⟨s.acks, none, .gone⟩ := by rw [Server.conn, hnone]
  constructor
  · obtain ⟨lists, shared⟩ := h.shared
    have hheads : Function.update (fun j => (s.conn j).head) pcb (accepted s.acks).head =
        fun j => (s.conn j).head := by
      refine Function.update_eq_self_iff.mpr ?_
      rw [hgone]
      rfl
    exact ⟨lists, (heads_setConn s pcb (accepted s.acks)).trans hheads ▸ shared⟩
  · intro j
    by_cases hj : j = pcb
    · subst hj
      rw [conn_setConn, h.fresh j hnone]
      exact serves_accepted _
    · rw [conn_setConn_ne s _ hj]
      have hsame : { s.conn j with heap := (accepted s.acks).heap } = s.conn j := by
        have hheap := conn_heap s j
        rw [← hheap]
        rfl
      rw [hsame]
      exact h.serves j
  · intro j hne
    by_cases hj : j = pcb
    · subst hj
      rw [conn_setConn]
      rfl
    · rw [conn_setConn_ne s _ hj] at hne ⊢
      exact h.ended j hne
  · intro j hj
    by_cases hjp : j = pcb
    · exact hjp ▸ h.fresh pcb hnone
    · have hpcbs : Function.update s.pcbs pcb (some ⟨none, .attached⟩) j = none := hj
      rw [Function.update_of_ne hjp] at hpcbs
      exact h.fresh j hpcbs
  · exact h.answered

theorem Connected.callback (h : Connected now s) (known : s.pcbs pcb ≠ none) {E : List AckEffect}
    {lists : Pcb → List (Addr × AppToEth)}
    (shared : Heap.Shared AppToEth.next s.acks (fun pcb => (s.conn pcb).head) lists) (hl : AckList c.heap c.head l)
    (framed : Heap.Framed s.acks (lists pcb) c.heap l) (serves : Serves (acksOn pcb now ++ E) c)
    (ended : c.pcb ≠ .attached → c.head = none)
    (answered : (queued (acksOn pcb now ++ E)).Sublist (framesFor pcb now)) :
    Connected (now ++ E.map (.ack pcb)) (s.setConn pcb c) := by
  have hothers : ∀ j, j ≠ pcb → acksOn j (now ++ E.map (.ack pcb)) = acksOn j now := by
    intro j hj
    rw [acksOn_append, acksOn_others pcb E hj, List.append_nil]
  have hown : acksOn pcb (now ++ E.map (.ack pcb)) = acksOn pcb now ++ E := by rw [acksOn_append, acksOn_acks]
  have hframes : ∀ j, framesFor j (now ++ E.map (.ack pcb)) = framesFor j now := by
    intro j
    rw [framesFor_append, framesFor_acks, List.append_nil]
  constructor
  · exact ⟨_, heads_setConn s pcb c ▸ shared.work framed hl⟩
  · intro j
    by_cases hj : j = pcb
    · subst hj
      rw [hown, conn_setConn]
      exact serves
    · rw [hothers j hj, conn_setConn_ne s c hj]
      refine ⟨fun hattached => ?_, (h.serves j).written⟩
      have hopen : (s.conn j).pcb = .attached := hattached
      obtain ⟨q, done, stream⟩ := (h.serves j).stream hopen
      have hlist : AckList s.acks (s.conn j).head (lists j) := shared.chain j
      rw [← conn_heap s j, Conn.head_attached hopen] at hlist
      -- The callback worked on the list of `pcb`, so this one is as it was.
      refine ⟨q, done, stream.congr hlist fun x hx => ?_⟩
      rw [conn_heap]
      exact (shared.untouched framed hj (List.mem_map_of_mem hx)).2
  · intro j hne
    by_cases hj : j = pcb
    · subst hj
      rw [conn_setConn] at hne ⊢
      exact ended hne
    · rw [conn_setConn_ne s c hj] at hne ⊢
      exact h.ended j hne
  · intro j hnone
    have hpcbs : Function.update s.pcbs pcb (some ⟨c.callbackArg, c.pcb⟩) j = none := hnone
    have hj : j ≠ pcb := by
      rintro rfl
      rw [Function.update_self] at hpcbs
      cases hpcbs
    rw [Function.update_of_ne hj] at hpcbs
    rw [hothers j hj]
    exact h.fresh j hpcbs
  · intro j
    rw [hframes]
    by_cases hj : j = pcb
    · subst hj
      rw [hown]
      exact answered
    · rw [hothers j hj]
      exact h.answered j

-- ---------------------------------------------------------------------------
-- The payloads
-- ---------------------------------------------------------------------------

theorem Forwarded.callback (h : Forwarded remote now s) (E : List AckEffect)
    (stays : c.pcb = .attached ∨ c.pcb = (s.conn pcb).pcb ∨ ¬ Queued s.net pcb) :
    Forwarded remote (now ++ E.map (.ack pcb)) (s.setConn pcb c) := by
  have hnet : netOf (now ++ E.map (.ack pcb)) = netOf now := by rw [netOf_append, netOf_acks, List.append_nil]
  constructor
  · obtain ⟨f, hr, hok, ht, hattached⟩ := h.pools
    refine ⟨f, hr, hok, hnet ▸ ht, fun i b hb => ?_⟩
    by_cases hj : b.state = pcb
    · rw [hj, conn_setConn]
      rcases stays with hopen | hsame | hq
      · exact hopen
      · rw [hsame, ← hj]
        exact hattached i b hb
      · exact absurd ⟨i, _, hr.queue i, b, hb, hj⟩ hq
    · rw [conn_setConn_ne s c hj]
      exact hattached i b hb
  · rw [hnet]
    exact h.held

theorem Forwarded.board (h : Forwarded remote now s) {src : Option Pcb}
    (hsrc : ∀ pcb, src = some pcb → (s.conn pcb).pcb = .attached)
    (runs : ∀ f, Rep s.net f → f.Ok → ∃ f', Pools.Run remote src f (netOf E) f' ∧ Rep b.net f')
    (accounted : Accounted s.net b.net (netOf E)) : Forwarded remote (now ++ E) { s with toBoard := b } ∧
      ∀ pcb len, .tcpRecved pcb len ∈ netOf E → (s.conn pcb).pcb = .attached := by
  obtain ⟨f, hr, hok, ht, hattached⟩ := h.pools
  obtain ⟨f', hrun, hr'⟩ := runs f hr hok
  obtain ⟨hrecved, hattached'⟩ := hrun.states (P := fun pcb => (s.conn pcb).pcb = .attached) hsrc hattached
  refine ⟨⟨⟨f', hr', hok.run hrun, ?_, hattached'⟩, ?_⟩, hrecved⟩
  · rw [netOf_append]
    exact ht.run hok hrun
  · rw [netOf_append]
    exact accounted.history h.held

-- ---------------------------------------------------------------------------
-- One event
-- ---------------------------------------------------------------------------

def Goes (lib : GcmLib) (idx : Int) (flash : Flash) (remote : Pcb → Client) (past : List ServerEffect) (s : Server)
    (r : Option (Server × List ServerEffect)) : Prop :=
  ∃ s' E, r = some (s', E) ∧ Serving lib idx flash remote (past ++ E) s' ∧
    ∀ pcb len, .net (.tcpRecved pcb len) ∈ E → (s.conn pcb).pcb = .attached

theorem Serving.idle (h : Serving lib idx flash remote past s) : Goes lib idx flash remote past s (some (s, [])) :=
  ⟨s, [], rfl, by rwa [List.append_nil], fun _ _ hin => absurd hin List.not_mem_nil⟩

theorem Serving.callback (h : Serving lib idx flash remote past s) (pcb : Pcb) (e : ConnEvent)
    (inPace : (s.conn pcb).pcb = .attached → InPace (acksOn pcb (sinceReset past)) (s.conn pcb) e)
    (answered : (queued (acksOn pcb (sinceReset past)) ++ e.frames).Sublist (framesFor pcb (sinceReset past)))
    (drained : e = .close ∨ e = .err → ¬ Queued s.net pcb) :
    Goes lib idx flash remote past s (s.callback pcb e) := by
  cases known : s.pcbs pcb with
  | none =>
    rw [Server.callback, known]
    exact h.idle
  | some t =>
    obtain ⟨lists, shared⟩ := h.connected.shared
    have hlist := shared.chain pcb
    rw [← conn_heap s pcb] at hlist
    obtain ⟨c, E, l, hstep, hl, framed, serves, ended, hqueued, hpcb⟩ :=
      connStep_serves (h.connected.serves pcb) (h.connected.ended pcb) inPace hlist
    have hreset : .reset ∉ E.map (ServerEffect.ack pcb) := by simp
    refine ⟨s.setConn pcb c, E.map (.ack pcb), ?_, ⟨?_, ?_, ?_⟩, fun _ _ hin => by simp at hin⟩
    · simp only [Server.callback, known, hstep, Option.bind_eq_bind, Option.bind_some]
    · exact h.logged.keep (turnsOf_acks pcb E)
    · rw [sinceReset_append hreset]
      rw [conn_heap] at framed
      refine h.connected.callback (by rw [known]; exact Option.some_ne_none t) shared hl framed serves ended ?_
      rw [queued_append]
      exact (List.Sublist.append (.refl _) hqueued).trans answered
    · rw [sinceReset_append hreset]
      refine h.forwarded.callback E ?_
      rcases hpcb with hsame | hend
      · exact .inr (.inl hsame)
      · exact .inr (.inr (drained hend))

theorem Serving.answered (h : Serving lib idx flash remote past s) (pcb : Pcb) :
    (queued (acksOn pcb (sinceReset past)) ++ []).Sublist (framesFor pcb (sinceReset past)) := by
  rw [List.append_nil]
  exact h.connected.answered pcb

theorem mem_netOf (h : .net e ∈ E) : e ∈ netOf E := List.mem_filterMap.mpr ⟨.net e, h, rfl⟩

theorem Serving.board (h : Serving lib idx flash remote past s) (going : .reset ∉ E) (quiet : ∀ j, acksOn j E = [])
    (logged : Logged lib idx flash (past ++ E) b.dev) (src : Option Pcb)
    (hsrc : ∀ pcb, src = some pcb → (s.conn pcb).pcb = .attached)
    (runs : ∀ f, Rep s.net f → f.Ok → ∃ f', Pools.Run remote src f (netOf E) f' ∧ Rep b.net f')
    (accounted : Accounted s.net b.net (netOf E)) :
    Goes lib idx flash remote past s (some ({ s with toBoard := b }, E)) := by
  obtain ⟨forwarded, hrecved⟩ := h.forwarded.board hsrc runs accounted
  refine ⟨_, E, rfl, ⟨logged, ?_, ?_⟩, fun pcb len hin => hrecved pcb len (mem_netOf hin)⟩
  · rw [sinceReset_append going]
    exact h.connected.keep b quiet
  · rw [sinceReset_append going]
    exact forwarded

theorem Serving.net (h : Serving lib idx flash remote past s) (net : Net) (effects : List NetEffect) (src : Option Pcb)
    (hsrc : ∀ pcb, src = some pcb → (s.conn pcb).pcb = .attached)
    (runs : ∀ f, Rep s.net f → f.Ok → ∃ f', Pools.Run remote src f effects f' ∧ Rep net f')
    (accounted : Accounted s.net net effects) :
    Goes lib idx flash remote past s (some ({ s with net := net }, effects.map .net)) := by
  have hnet : netOf (effects.map .net) = effects := netOf_nets effects
  refine h.board (b := { s.toBoard with net := net }) (by simp) (fun j => acksOn_nets j effects)
    (h.logged.keep (turnsOf_nets effects)) src hsrc ?_ ?_
  · rw [hnet]
    exact runs
  · rw [hnet]
    exact accounted

theorem Serving.accept (h : Serving lib idx flash remote past s) (pcb : Pcb) :
    Goes lib idx flash remote past s (serverStep lib idx remote s (.accept pcb)) := by
  cases hpcb : s.pcbs pcb with
  | some t =>
    rw [serverStep, hpcb]
    exact h.idle
  | none =>
    rw [serverStep, hpcb]
    refine ⟨_, [], rfl, ⟨h.logged.keep rfl, ?_, ?_⟩, fun _ _ hin => absurd hin List.not_mem_nil⟩
    · rw [sinceReset_append List.not_mem_nil]
      exact h.connected.accept hpcb
    · rw [sinceReset_append List.not_mem_nil]
      exact h.forwarded.callback [] (.inl rfl)

theorem Serving.poll (h : Serving lib idx flash remote past s) :
    Goes lib idx flash remote past s (serverStep lib idx remote s .poll) := by
  obtain ⟨f, hr, hok, -⟩ := h.forwarded.pools
  obtain ⟨net, effects, -, hpoll, -⟩ := hr.poll remote none hok
  have hgoes := h.net net effects none nofun ?_ (checkUartDataPool_accounted hpoll)
  · simpa only [serverStep, hpoll, Option.bind_eq_bind, Option.bind_some] using hgoes
  · intro f hr hok
    obtain ⟨net', effects', f', hpoll', hrun, hr', -⟩ := hr.poll remote none hok
    obtain ⟨rfl, rfl⟩ := Prod.mk.inj (Option.some.inj (hpoll.symm.trans hpoll'))
    exact ⟨f', hrun, hr'⟩

theorem Serving.interrupt (h : Serving lib idx flash remote past s) :
    Goes lib idx flash remote past s (serverStep lib idx remote s .interrupt) := by
  refine h.net _ _ none nofun (fun f hr hok => ?_) (uart1Handler_accounted s.net)
  obtain ⟨effects, rfl, hrun, hr'⟩ := hr.interrupt remote none hok
  exact ⟨_, hrun, hr'⟩

theorem Serving.switching (h : Serving lib idx flash remote past s) (curTime : Word) (o : GpnvmOutcome) :
    Goes lib idx flash remote past s (serverStep lib idx remote s (.switching curTime o)) := by
  rw [serverStep]
  cases ((device lib idx).turn s.dev (.poll curTime o)).out.2 with
  | nil =>
    refine h.board (b := ⟨((device lib idx).turn s.dev (.poll curTime o)).post, s.net⟩)
      (E := [.device none ((device lib idx).turn s.dev (.poll curTime o))]) (by simp) (fun _ => rfl)
      (h.logged.turn rfl) none nofun (fun f hr _ => ⟨f, .nil, hr⟩) (.of_heap rfl fun _ => List.not_mem_nil)
  | cons e es =>
    have hreset := sinceReset_reset (t := (device lib idx).turn s.dev (.poll curTime o)) past
    refine ⟨_, _, rfl, ⟨h.logged.turn rfl, ?_, ?_⟩, fun _ _ hin => by simp at hin⟩
    · rw [hreset]
      exact connected_started _
    · rw [hreset]
      exact forwarded_started remote _

theorem react_nets (turn : List Byte → DeviceTurn) (pcb : Pcb) (tcp : Tcp) (malloc : Heap.Malloc AppToEth) (s : Server)
    (effects : List NetEffect) :
    s.react turn pcb tcp malloc (effects.map .net) = some (s, effects.map .net) := by
  induction effects with
  | nil => rfl
  | cons e effects ih =>
    rw [List.map_cons, Server.react, ih]
    rfl

theorem react_upgrade (turn : List Byte → DeviceTurn) {tcp : Tcp} {malloc : Heap.Malloc AppToEth} {reply : List Byte}
    (h : s.callback pcb (.sendData tcp malloc reply) = some (s', E)) (frame : List Byte) (e : NetEffect) :
    s.react turn pcb tcp malloc [.handled frame, .net e, .sendData reply] =
      some (s', .device (some pcb) (turn frame) :: .net e :: E) := by
  simp [Server.react, h]

theorem Serving.recvOther (h : Serving lib idx flash remote past s) (hopen : (s.conn pcb).pcb = .attached)
    (starts : ¬ startsUpgrade (.ofList p env.behind) = true) (tcp : Tcp) (malloc : Heap.Malloc AppToEth) :
    Goes lib idx flash remote past s (s.recv lib idx remote pcb p next env tcp malloc) := by
  obtain ⟨f, hr, hok, -⟩ := h.forwarded.pools
  obtain ⟨net, effects, -, hother, -⟩ := hr.recv remote pcb hok env.malloc (p :: next)
  have hsrc : ∀ j, some pcb = some j → (s.conn j).pcb = .attached := fun j hj => Option.some.inj hj ▸ hopen
  have hgoes := h.net net effects (some pcb) hsrc ?_ (serverRecvOther_accounted hother)
  · simpa only [Server.recv, serverRecv, if_neg starts, hother, Option.bind_eq_bind, Option.bind_some, react_nets]
      using hgoes
  · intro f hr hok
    obtain ⟨net', effects', f', hother', hrun, hr'⟩ := hr.recv remote pcb hok env.malloc (p :: next)
    obtain ⟨rfl, rfl⟩ := Prod.mk.inj (Option.some.inj (hother.symm.trans hother'))
    exact ⟨f', hrun, hr'⟩

theorem recv_dropped (starts : startsUpgrade (.ofList p env.behind) = true)
    (room : p.length < PbufChain.totLen (p :: next) ∧ env.ciphertext = false) (tcp : Tcp)
    (malloc : Heap.Malloc AppToEth) : s.recv lib idx remote pcb p next env tcp malloc =
      some (s, [.net (.received pcb (PbufChain.totLen (p :: next))),
        .net (.tcpRecved pcb (PbufChain.totLen (p :: next)))]) := by
  simp [Server.recv, serverRecv, if_pos starts, serverRecvUpgrade, if_pos room, Server.react]

def Server.frameTurn (lib : GcmLib) (idx : Int) (s : Server) (frame : List Byte) (env : RecvEnv) : DeviceTurn :=
  (device lib idx).turn s.dev (.frame ⟨.ofList frame env.behind, env.upgrade⟩)

theorem frameTurn_out (lib : GcmLib) (idx : Int) (s : Server) (frame : List Byte) (env : RecvEnv) :
    (s.frameTurn lib idx frame env).out.1 =
      some (handleUpgradePacket lib env.upgrade s.dev (.ofList frame env.behind)).2 := rfl

theorem recv_handled (starts : startsUpgrade (.ofList p env.behind) = true)
    (room : ¬ (p.length < PbufChain.totLen (p :: next) ∧ env.ciphertext = false)) {tcp : Tcp}
    {malloc : Heap.Malloc AppToEth}
    (h : Server.callback { s with dev := (s.frameTurn lib idx (p :: next).flatten env).post } pcb (.sendData tcp malloc
      (generateAckFrame (handleUpgradePacket lib env.upgrade s.dev (.ofList (p :: next).flatten env.behind)).2.ack)) =
        some (s', E)) :
    s.recv lib idx remote pcb p next env tcp malloc =
      some (s', [.net (.received pcb (PbufChain.totLen (p :: next))),
        .device (some pcb) (s.frameTurn lib idx (p :: next).flatten env),
        .net (.tcpRecved pcb (PbufChain.totLen (p :: next)))] ++ E) := by
  have hreact := react_upgrade (fun frame => s.frameTurn lib idx frame env) h (p :: next).flatten
    (.tcpRecved pcb (PbufChain.totLen (p :: next)))
  rw [Server.recv, serverRecv, if_pos starts, serverRecvUpgrade, if_neg room]
  simp only [Option.bind_eq_bind, Option.bind_some, if_pos starts]
  exact (congrArg (Option.bind · _) hreact).trans rfl

theorem framesFor_device {t : DeviceTurn} (h : t.out.1 = some out) :
    framesFor pcb [.net e, .device (some pcb) t, .net e'] = [generateAckFrame out.ack] := by
  simp [framesFor, answersOn, h]

theorem Serving.recvUpgrade (h : Serving lib idx flash remote past s) (hopen : (s.conn pcb).pcb = .attached)
    (starts : startsUpgrade (.ofList p env.behind) = true) {tcp : Tcp} {malloc : Heap.Malloc AppToEth}
    (sends : ∀ ack, SendsOk (s.conn pcb) (.sendData tcp malloc (generateAckFrame ack))) :
    Goes lib idx flash remote past s (s.recv lib idx remote pcb p next env tcp malloc) := by
  have hsrc : ∀ j, some pcb = some j → (s.conn j).pcb = .attached := fun j hj => Option.some.inj hj ▸ hopen
  have hrun : ∀ f : Pools, Rep s.net f → f.Ok → ∃ f', Pools.Run remote (some pcb) f
      [.received pcb (PbufChain.totLen (p :: next)), .tcpRecved pcb (PbufChain.totLen (p :: next))] f' ∧
        Rep s.net f' := fun f hr _ => ⟨f, .single (.drop f), hr⟩
  have accounted : Accounted s.net s.net
      [.received pcb (PbufChain.totLen (p :: next)), .tcpRecved pcb (PbufChain.totLen (p :: next))] :=
    .of_heap rfl fun a hin => by simp at hin
  by_cases room : p.length < PbufChain.totLen (p :: next) ∧ env.ciphertext = false
  · rw [recv_dropped starts room]
    exact h.net s.net _ (some pcb) hsrc hrun accounted
  · -- The device has its turn, and the ack frame of its answer is queued.
    have hdevice := h.board (b := ⟨(s.frameTurn lib idx (p :: next).flatten env).post, s.net⟩)
      (E := [.net (.received pcb (PbufChain.totLen (p :: next))),
        .device (some pcb) (s.frameTurn lib idx (p :: next).flatten env),
        .net (.tcpRecved pcb (PbufChain.totLen (p :: next)))]) (by simp) (fun _ => rfl) (h.logged.turn rfl) (some pcb)
      hsrc hrun accounted
    obtain ⟨s₁, E₁, heq, serving, hrecved⟩ := hdevice
    obtain ⟨rfl, rfl⟩ := Prod.mk.inj (Option.some.inj heq)
    have hcall := serving.callback pcb (.sendData tcp malloc (generateAckFrame
      (handleUpgradePacket lib env.upgrade s.dev (.ofList (p :: next).flatten env.behind)).2.ack)) ?_ ?_ ?_
    · obtain ⟨s', E, hs, serving', hnone⟩ := hcall
      refine ⟨s', _, recv_handled starts room hs, ?_, fun j len hin => ?_⟩
      · rw [← List.append_assoc]
        exact serving'
      · rcases List.mem_append.mp hin with hin | hin
        · exact hrecved j len hin
        · exact hnone j len hin
    · intro _
      exact ⟨sends _, by rw [System.length_generateAckFrame]; decide, by rw [System.length_generateAckFrame]; decide⟩
    · have hqueue : ∀ e e' t, acksOn pcb [.net e, .device (some pcb) t, .net e'] = [] := fun _ _ _ => rfl
      rw [sinceReset_append (by simp), acksOn_append, hqueue, List.append_nil, framesFor_append,
        framesFor_device (frameTurn_out lib idx s _ env)]
      exact (h.connected.answered pcb).append (.refl _)
    · rintro (heq | heq) <;> cases heq

/-- Every event is handled without a fault, and what held before it holds after it. -/
theorem server_step (h : Serving lib idx flash remote past s) (regular : Regular past s e) :
    Goes lib idx flash remote past s ((tcpServer lib idx remote).step s e) := by
  cases e with
  | accept pcb => exact h.accept pcb
  | recv pcb p next env tcp malloc =>
    by_cases hopen : (s.conn pcb).pcb = .attached
    · have hstep : (tcpServer lib idx remote).step s (.recv pcb p next env tcp malloc) =
          s.recv lib idx remote pcb p next env tcp malloc := if_pos hopen
      rw [hstep]
      by_cases starts : startsUpgrade (.ofList p env.behind) = true
      · exact h.recvUpgrade hopen starts (regular hopen starts).2
      · exact h.recvOther hopen starts tcp malloc
    · have hstep : (tcpServer lib idx remote).step s (.recv pcb p next env tcp malloc) = some (s, []) := if_neg hopen
      rw [hstep]
      exact h.idle
  | sent pcb tcp len => exact h.callback pcb (.sent tcp len) regular (h.answered pcb) (by rintro (heq | heq) <;> cases heq)
  | close pcb => exact h.callback pcb .close (fun _ => trivial) (h.answered pcb) fun _ => regular
  | err pcb => exact h.callback pcb .err (fun _ => trivial) (h.answered pcb) fun _ => regular
  | poll => exact h.poll
  | interrupt => exact h.interrupt
  | switching curTime o => exact h.switching curTime o

-- ---------------------------------------------------------------------------
-- Runs
-- ---------------------------------------------------------------------------

/-- `tcp_recved` is called for connections that are open. -/
def RecvedOpen (lib : GcmLib) (idx : Int) (remote : Pcb → Client) (_past : List ServerEffect) (s : Server)
    (e : ServerEvent) : Prop :=
  ∀ s' E, serverStep lib idx remote s e = some (s', E) →
    ∀ pcb len, .net (.tcpRecved pcb len) ∈ E → (s.conn pcb).pcb = .attached

theorem serving_started (lib : GcmLib) (idx : Int) (flash : Flash) (remote : Pcb → Client) :
    Serving lib idx flash remote [] (.started (boot idx flash)) where
  logged := ⟨rfl, rfl⟩
  connected := connected_started _
  forwarded := forwarded_started remote _

theorem Forwarded.handed (h : Forwarded remote now s) (client : Client) :
    handedFrom client (netOf now) <+: acceptedFrom client (netOf now) := by
  obtain ⟨f, -, -, ht, -⟩ := h.pools
  by_cases hlacks : f.Lacks client
  · exact ht.served client hlacks ▸ List.prefix_rfl
  · simp only [Pools.Lacks, not_forall, Decidable.not_not] at hlacks
    obtain ⟨i, hi, rfl⟩ := hlacks
    rw [ht.fifo i hi]
    exact List.prefix_append _ _

theorem Forwarded.queued (h : Forwarded remote now s) (ha : s.net.heap a ≠ none) : ∃ i bufs,
    Queue s.net.heap (s.net.dataFromEth i).next bufs ∧ ∃ b ∈ bufs, b.node = a ∧ (s.conn b.state).pcb = .attached := by
  obtain ⟨f, hr, -, ht, hattached⟩ := h.pools
  by_contra hnone
  refine h.held a ha (ht.free a fun i b hb heq => hnone ?_)
  exact ⟨i, f.bufs i, hr.queue i, b, hb, heq, hattached i b hb⟩

/-- In every run over any number of connections nothing faults and the device goes its
own way; every client gets, since the last reset, the ack frames of its own frames, as
far as there was memory for them, in order and none twice; the payloads of every client
go to the UART in order; lwIP is told of data of open connections only; and everything
that is allocated belongs to an open connection. -/
theorem server_serves (lib : GcmLib) (idx : Int) (flash : Flash) (remote : Pcb → Client) (events : List ServerEvent)
    (regular : (tcpServer lib idx remote).Meets Regular [] (.started (boot idx flash)) events) :
    (tcpServer lib idx remote).Meets (RecvedOpen lib idx remote) [] (.started (boot idx flash)) events ∧
    ∃ s past, (tcpServer lib idx remote).run (.started (boot idx flash)) events = some (s, past) ∧
      Logged lib idx flash past s.dev ∧
      (∀ pcb, written (acksOn pcb (sinceReset past)) <+: (queued (acksOn pcb (sinceReset past))).flatten ∧
        (queued (acksOn pcb (sinceReset past))).Sublist (framesFor pcb (sinceReset past))) ∧
      (∀ client, handedFrom client (netOf (sinceReset past)) <+: acceptedFrom client (netOf (sinceReset past))) ∧
      (∃ lists, Heap.Shared AppToEth.next s.acks (fun pcb => (s.conn pcb).head) lists) ∧
      (∀ pcb, (s.conn pcb).pcb ≠ .attached → (s.conn pcb).head = none) ∧
      ∀ a, s.net.heap a ≠ none → ∃ i bufs, Queue s.net.heap (s.net.dataFromEth i).next bufs ∧
        ∃ b ∈ bufs, b.node = a ∧ (s.conn b.state).pcb = .attached := by
  have hstart := serving_started lib idx flash remote
  constructor
  · refine Faulting.Meets.of_history (R := Serving lib idx flash remote) (fun past s e h hreg => ?_) hstart regular
    obtain ⟨s', E, hs, serving, hrecved⟩ := server_step h hreg
    constructor
    · intro s'' E' hs'
      obtain ⟨rfl, rfl⟩ := Prod.mk.inj (Option.some.inj (hs.symm.trans hs'))
      exact hrecved
    · intro s'' E' hs'
      obtain ⟨rfl, rfl⟩ := Prod.mk.inj (Option.some.inj (hs.symm.trans hs'))
      exact serving
  · obtain ⟨s, past, hrun, serving⟩ := Faulting.history_of_meets (R := Serving lib idx flash remote)
      (fun past s e h hreg => by
        obtain ⟨s', E, hs, serving, -⟩ := server_step h hreg
        exact ⟨s', E, hs, serving⟩) hstart regular
    rw [List.nil_append] at serving
    exact ⟨s, past, hrun, serving.logged,
      fun pcb => ⟨(serving.connected.serves pcb).written, serving.connected.answered pcb⟩,
      serving.forwarded.handed, serving.connected.shared, serving.connected.ended, fun a => serving.forwarded.queued⟩

end

def willing : Tcp := ⟨2920, fun _ _ => .ok⟩

theorem sendsOk_willing (c : Conn) (buf : List Byte) : SendsOk c (.sendData willing malloc buf) := by
  intro tcp left hs
  simp only [ConnEvent.sending, Option.ite_none_right_eq_some] at hs
  obtain ⟨rfl, rfl⟩ := Prod.mk.inj (Option.some.inj hs.2)
  exact taken_ok rfl

def plainEnv : RecvEnv := ⟨⟨0, fun _ => .done, 0⟩, true, mallocAt16, fun _ => 0⟩

def twoConnections : List ServerEvent :=
  [.accept 1, .accept 2, .recv 2 [0x41] [] plainEnv willing oneNode, .poll, .interrupt, .poll, .close 2,
    .recv 1 (upgradePktHeader ++ [0, 0]) [] plainEnv willing oneNode, .switching 0 .done]

theorem regular_twoConnections : (tcpServer System.gcmMemory 0 oneRemote).Meets Regular []
    (.started (boot 0 blankFlash)) twoConnections := by
  refine .cons trivial rfl (.cons trivial rfl (.cons ?_ rfl (.cons trivial rfl (.cons trivial rfl (.cons trivial rfl
    (.cons ?_ rfl ⟨?_, fun _ _ _ => ⟨trivial, fun _ _ _ => trivial⟩⟩))))))
  · intro _ starts
    exact absurd starts (by decide)
  · exact not_queued (by decide) 2
  · intro _ _
    exact ⟨fun hne => absurd rfl hne, fun ack => sendsOk_willing _ _⟩

theorem server_serves_two :
    (tcpServer System.gcmMemory 0 oneRemote).Meets (RecvedOpen System.gcmMemory 0 oneRemote) []
      (.started (boot 0 blankFlash)) twoConnections ∧
    ∃ s past, (tcpServer System.gcmMemory 0 oneRemote).run (.started (boot 0 blankFlash)) twoConnections =
        some (s, past) ∧
      Logged System.gcmMemory 0 blankFlash past s.dev ∧
      (∀ pcb, written (acksOn pcb (sinceReset past)) <+: (queued (acksOn pcb (sinceReset past))).flatten ∧
        (queued (acksOn pcb (sinceReset past))).Sublist (framesFor pcb (sinceReset past))) ∧
      (∀ client, handedFrom client (netOf (sinceReset past)) <+: acceptedFrom client (netOf (sinceReset past))) ∧
      (∃ lists, Heap.Shared AppToEth.next s.acks (fun pcb => (s.conn pcb).head) lists) ∧
      (∀ pcb, (s.conn pcb).pcb ≠ .attached → (s.conn pcb).head = none) ∧
      ∀ a, s.net.heap a ≠ none → ∃ i bufs, Queue s.net.heap (s.net.dataFromEth i).next bufs ∧
        ∃ b ∈ bufs, b.node = a ∧ (s.conn b.state).pcb = .attached :=
  server_serves System.gcmMemory 0 blankFlash oneRemote twoConnections regular_twoConnections

end EthernetOta.Firmware
