import EthernetOta.Lib.Heap
import EthernetOta.Lib.Machine

/-!
# Data from the Ethernet side to the UART

`network.h`, `network.c` and the branch of `server_recv` for data that is no
upgrade frame. Nodes are allocated on a heap, and each function faults when it
touches a node that is not. A flag is a `Bool`; the debug texts are left out.
-/

namespace EthernetOta.Firmware

def maximumPoolForDataFromEth : Nat := 3

/-- A connection, which a `struct tcp_pcb *` names. One that reuses a freed pcb is another. -/
abbrev Pcb := Nat

/-- The buffer `data` points to is part of the node. -/
structure SubData where
  len : Nat
  data : List Byte
  state : Pcb
  next : Option Addr

structure AppFromEth where
  dirty : Bool
  ongoing : Bool
  ipaddr : Word
  port : Half
  next : Option Addr

abbrev PoolIdx := Fin maximumPoolForDataFromEth

/-- The payloads of a `pbuf` and those behind it in its chain; `tot_len` is their sum. -/
abbrev PbufChain := List (List Byte)

def PbufChain.totLen (p : PbufChain) : Nat := (p.map List.length).sum

structure Net where
  heap : Heap SubData
  dataFromEth : PoolIdx → AppFromEth
  curPool : Option PoolIdx
  /-- The node the UART's PDC sends from, while its transmitter is enabled. -/
  pdc : Option Addr

inductive NetEffect
  /-- `server_recv` is called with this many bytes of other data. -/
  | received (pcb : Pcb) (len : Nat)
  | tcpRecved (pcb : Pcb) (len : Nat)
  /-- A payload is queued in the pool of a client. -/
  | accepted (ipaddr : Word) (port : Half) (node : Addr) (data : List Byte)
  /-- The PDC is given the buffer at the head of a client's pool. -/
  | handed (ipaddr : Word) (port : Half) (node : Addr) (data : List Byte)
  | endTx (node : Addr)
  | freed (node : Addr)
  deriving DecidableEq, Repr

def Net.setPool (n : Net) (i : PoolIdx) (pool : AppFromEth) : Net :=
  { n with dataFromEth := fun j => if j = i then pool else n.dataFromEth j }

namespace Net

variable (n : Net) (i : PoolIdx) (pool : AppFromEth)

@[simp] theorem setPool_heap : (n.setPool i pool).heap = n.heap := rfl
@[simp] theorem setPool_curPool : (n.setPool i pool).curPool = n.curPool := rfl
@[simp] theorem setPool_pdc : (n.setPool i pool).pdc = n.pdc := rfl
@[simp] theorem setPool_self : (n.setPool i pool).dataFromEth i = pool := if_pos rfl
@[simp] theorem setPool_setPool (q : AppFromEth) : (n.setPool i pool).setPool i q = n.setPool i q := by
  simp only [setPool, Net.mk.injEq, true_and, and_true]
  funext j
  split <;> rfl
@[simp] theorem setPool_ne (h : j ≠ i) : (n.setPool i pool).dataFromEth j = n.dataFromEth j := if_neg h

theorem forall_setPool {n : Net} {i : PoolIdx} {pool : AppFromEth}
    {P : PoolIdx → AppFromEth → Prop} (h : ∀ j, P j (n.dataFromEth j)) (hi : P i (n.dataFromEth i) → P i pool) :
    ∀ j, P j ((n.setPool i pool).dataFromEth j) := by
  intro j
  by_cases hj : j = i
  · subst hj
    rw [setPool_self]
    exact hi (h j)
  · rw [setPool_ne _ _ _ hj]
    exact h j

end Net

def networkInit : Net where
  heap := fun _ => none
  dataFromEth := fun _ => ⟨false, false, 0, 0, none⟩
  curPool := none
  pdc := none

-- ---------------------------------------------------------------------------
-- network.c
-- ---------------------------------------------------------------------------

/-- The interrupt at the end of a transfer; it is enabled only while there is one. -/
def uart1Handler (n : Net) : Net × List NetEffect :=
  match n.pdc with
  | none => (n, [])
  | some node =>
    match n.curPool with
    | none => ({ n with pdc := none }, [.endTx node])
    | some i =>
      ({ n.setPool i { n.dataFromEth i with ongoing := false } with pdc := none }, [.endTx node])

/-- `pdc_uart_send_data`, for the head of pool `i`: nothing while the transmitter is enabled. -/
def pdcUartSendData (n : Net) (i : PoolIdx) (node : Addr) : Option (Net × List NetEffect) := do
  let v ← n.heap node
  match n.pdc with
  | some _ => some (n, [])
  | none =>
    let pool := n.dataFromEth i
    some ({ n with pdc := some node }, [.handed pool.ipaddr pool.port node (v.data.take v.len)])

def startPool (n : Net) (i : PoolIdx) (node : Addr) : Option (Net × List NetEffect) :=
  pdcUartSendData (n.setPool i { n.dataFromEth i with ongoing := true }) i node

/-- The second half of `check_uart_data_pool`: the first pool with data becomes the current one. -/
def nextPool (n : Net) : Option (Net × List NetEffect) :=
  match (List.finRange maximumPoolForDataFromEth).find? fun i => (n.dataFromEth i).dirty with
  | none => some (n, [])
  | some i =>
    let n := { n with curPool := some i }
    match (n.dataFromEth i).next with
    | none => some (n, [])
    | some node => startPool n i node

/-- `check_uart_data_pool` when the list of the current pool has run out. -/
def closePool (n : Net) (i : PoolIdx) : Option (Net × List NetEffect) :=
  let pool := { n.dataFromEth i with dirty := false, ipaddr := 0, port := 0, next := none }
  nextPool { n.setPool i pool with curPool := none }

def checkUartDataPool (n : Net) : Option (Net × List NetEffect) :=
  match n.curPool with
  | none => nextPool n
  | some i =>
    if (n.dataFromEth i).dirty then
      if (n.dataFromEth i).ongoing then some (n, [])
      else
        match (n.dataFromEth i).next with
        | none => closePool n i
        | some node => do
          let v ← n.heap node
          let heap ← n.heap.free node
          let n := { n with heap := heap }
          let n := n.setPool i { n.dataFromEth i with next := v.next }
          let (n, effects) ←
            match v.next with
            | none => closePool n i
            | some node => startPool n i node
          some (n, .tcpRecved v.state v.len :: .freed node :: effects)
    else some (n, [])

-- ---------------------------------------------------------------------------
-- server_recv, for other data
-- ---------------------------------------------------------------------------

/-- The pool of a client, or else a clean one with the client written into it. -/
def findPool (n : Net) (ipaddr : Word) (port : Half) : Option (Net × PoolIdx) :=
  let pools := List.finRange maximumPoolForDataFromEth
  match pools.find? fun i =>
      (n.dataFromEth i).dirty && (n.dataFromEth i).ipaddr == ipaddr && (n.dataFromEth i).port == port with
  | some i => some (n, i)
  | none =>
    match pools.find? fun i => !(n.dataFromEth i).dirty with
    | some i => some (n.setPool i { n.dataFromEth i with ipaddr := ipaddr, port := port }, i)
    | none => none

def linkNode (n : Net) (i : PoolIdx) (node : Addr) (v : SubData) : Option Net :=
  match (n.dataFromEth i).next with
  | none =>
    some ({ n with heap := n.heap.set node v }.setPool i { n.dataFromEth i with next := some node })
  | some first => do
    let last ← n.heap.last SubData.next Heap.walkLimit first
    let w ← n.heap last
    some { n with heap := (n.heap.set node v).set last { w with next := some node } }

/-- The branch of `server_recv` for data that does not start like an upgrade frame. -/
def serverRecvOther (n : Net) (pcb : Pcb) (ipaddr : Word) (port : Half) (p : PbufChain)
    (malloc : Heap.Malloc SubData) : Option (Net × List NetEffect) :=
  let received := NetEffect.received pcb p.totLen
  match findPool n ipaddr port with
  | none => some (n, [received, .tcpRecved pcb p.totLen])
  | some (n, i) =>
    match malloc.run n.heap with
    | none => some (n, [received, .tcpRecved pcb p.totLen])
    | some node => do
      let n ← linkNode n i node { len := p.totLen, data := p.flatten, state := pcb, next := none }
      some (n.setPool i { n.dataFromEth i with dirty := true },
        [received, .accepted ipaddr port node p.flatten])

end EthernetOta.Firmware
