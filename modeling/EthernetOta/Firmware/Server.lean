import EthernetOta.Firmware.Network
import EthernetOta.Firmware.Upgrade

/-!
# The TCP server

`server.c`. A connection owns the list of the acks it still has to send, whose
head is the `callback_arg` of its pcb. What lwIP decides is a parameter: the
room in the send buffer and the outcome of each `tcp_write`. LED, debug texts
and the return code, which is `ERR_OK` throughout, are left out.
-/

namespace EthernetOta.Firmware

/-- `UPGRADE_PKT_HEADER`, `"[UPGRADE"` -/
def upgradePktHeader : List Byte := [0x5B, 0x55, 0x50, 0x47, 0x52, 0x41, 0x44, 0x45]

-- ---------------------------------------------------------------------------
-- Sending
-- ---------------------------------------------------------------------------

/-- A frame on its way; `data` are the bytes from the pointer on. -/
structure Outgoing where
  len : Nat
  left : Nat
  acked : Nat
  data : List Byte

structure AppToEth extends Outgoing where
  next : Option Addr

inductive Err
  | ok
  | mem
  | other
  deriving DecidableEq, Repr

/-- `tcp_sndbuf`, and what `tcp_write` returns at an attempt for a length. -/
structure Tcp where
  sndbuf : Nat
  write : (attempt len : Nat) → Err

inductive PcbState
  /-- The callbacks are registered. -/
  | attached
  /-- After `server_close_connection`; lwIP may still report an error. -/
  | closed
  /-- lwIP has freed the pcb. -/
  | gone
  deriving DecidableEq, Repr

structure Conn where
  heap : Heap AppToEth
  callbackArg : Option Addr
  pcb : PcbState

inductive AckEffect
  /-- A frame is appended to the list. -/
  | queued (data : List Byte)
  /-- `tcp_write` took these bytes. -/
  | wrote (data : List Byte)
  /-- `server_sent` is called for this many bytes. -/
  | notified (len : Nat)
  | freed (node : Addr)
  deriving DecidableEq, Repr

/-- Free the list at `arg`, the loop of `server_connection_err` and `server_close_connection`. -/
def freeList (heap : Heap AppToEth) : Option Addr → Option (Heap AppToEth)
  | none => some heap
  | some p => heap.freeAll AppToEth.next Heap.walkLimit p

def serverConnectionErr (c : Conn) (arg : Option Addr) : Option Conn := do
  let heap ← freeList c.heap arg
  some { c with heap := heap }

def serverCloseConnection (c : Conn) (arg : Option Addr) : Option Conn := do
  let heap ← freeList c.heap arg
  some { c with heap := heap, callbackArg := none, pcb := .closed }

/-- `do { .. } while (err == ERR_MEM && len > 1);` -/
def tcpWriteLoop (write : Nat → Nat → Err) (attempt len : Nat) : Err × Nat :=
  match write attempt len with
  | .mem => if 1 < len / 2 then tcpWriteLoop write (attempt + 1) (len / 2) else (.mem, len / 2)
  | err => (err, len)
termination_by len

def sendDataToClient (c : Conn) (tcp : Tcp) (toClient : Addr) : Option (Conn × List AckEffect) := do
  let v ← c.heap toClient
  let len := if tcp.sndbuf < v.left then tcp.sndbuf else v.left
  match tcpWriteLoop tcp.write 0 len with
  | (.ok, len) =>
    let heap ← c.heap.store toClient { v with data := v.data.drop len, left := v.left - len }
    some ({ c with heap := heap }, [.wrote (v.data.take len)])
  | _ =>
    let c ← serverConnectionErr c c.callbackArg
    some (c, [])

def Outgoing.ofBuf (buf : List Byte) : Outgoing where
  len := buf.length
  left := buf.length
  acked := 0
  data := buf

def AppToEth.ofBuf (buf : List Byte) : AppToEth where
  toOutgoing := .ofBuf buf
  next := none

def sendData (c : Conn) (tcp : Tcp) (malloc : Heap.Malloc AppToEth) (buf : List Byte) :
    Option (Conn × List AckEffect) :=
  match malloc.run c.heap with
  | none => some (c, [])
  | some node =>
    let c := { c with heap := c.heap.set node (.ofBuf buf) }
    match c.callbackArg with
    | some first => do
      -- previous data is still in sending
      let last ← c.heap.last AppToEth.next Heap.walkLimit first
      let w ← c.heap last
      let heap ← c.heap.store last { w with next := some node }
      some ({ c with heap := heap }, [.queued buf])
    | none => do
      let (c, effects) ← sendDataToClient { c with callbackArg := some node } tcp node
      some (c, .queued buf :: effects)

def AppToEth.ack (v : AppToEth) (len : Nat) : AppToEth := { v with acked := (v.acked + len) % 2 ^ 32 }

@[simp] theorem AppToEth.ack_len (v : AppToEth) (len : Nat) : (v.ack len).len = v.len := rfl
@[simp] theorem AppToEth.ack_left (v : AppToEth) (len : Nat) : (v.ack len).left = v.left := rfl
@[simp] theorem AppToEth.ack_next (v : AppToEth) (len : Nat) : (v.ack len).next = v.next := rfl

/-- `server_sent`, which lwIP calls with the pcb's `callback_arg`. -/
def serverSent (c : Conn) (tcp : Tcp) (len : Nat) : Option (Conn × List AckEffect) :=
  match c.callbackArg with
  | none => some (c, [])
  | some toClient => do
    let v ← c.heap toClient
    let v := v.ack len
    let heap ← c.heap.store toClient v
    let c := { c with heap := heap }
    if 0 < v.left then sendDataToClient c tcp toClient
    else if v.acked < v.len then some (c, [])
    else
      let heap ← c.heap.free toClient
      let c := { c with heap := heap, callbackArg := v.next }
      match v.next with
      | none => some (c, [.freed toClient])
      | some next =>
        let (c, effects) ← sendDataToClient c tcp next
        some (c, .freed toClient :: effects)

def generateAckFrame (ack : Word) : List Byte :=
  upgradePktHeader ++ (uHtons ackFrame).bytes ++ ack.bytes ++ [packetTail]

-- ---------------------------------------------------------------------------
-- Receiving
-- ---------------------------------------------------------------------------

structure Board where
  dev : Dev
  net : Net

structure RecvEnv where
  upgrade : Env
  /-- Whether there is memory to put a chained frame together. -/
  ciphertext : Bool
  malloc : Heap.Malloc SubData
  /-- The memory around the buffer that is handled. -/
  behind : Mem

inductive RecvEffect
  /-- `handle_upgrade_packet` gets a buffer that begins with these bytes. -/
  | handled (frame : List Byte)
  | net (e : NetEffect)
  | sendData (frame : List Byte)
  deriving DecidableEq, Repr

/-- `strncmp(data, UPGRADE_PKT_HEADER, PKT_HEADER_LEN) == 0` -/
def startsUpgrade (data : Mem) : Bool := data.slice 0 upgradePktHeader.length = upgradePktHeader

def serverRecvUpgrade (lib : GcmLib) (b : Board) (pcb : Pcb) (p : List Byte) (next : PbufChain)
    (env : RecvEnv) : Board × List RecvEffect :=
  let recved := RecvEffect.net (.tcpRecved pcb (PbufChain.totLen (p :: next)))
  if p.length < PbufChain.totLen (p :: next) ∧ env.ciphertext = false then (b, [recved])
  else
    let frame := (p :: next).flatten
    let (dev, out) := handleUpgradePacket lib env.upgrade b.dev (.ofList frame env.behind)
    ({ b with dev := dev }, [.handled frame, recved, .sendData (generateAckFrame out.ack)])

def serverRecv (lib : GcmLib) (b : Board) (pcb : Pcb) (ipaddr : Word) (port : Half) (p : List Byte)
    (next : PbufChain) (env : RecvEnv) : Option (Board × List RecvEffect) :=
  if startsUpgrade (.ofList p env.behind) then some (serverRecvUpgrade lib b pcb p next env)
  else do
    let (net, effects) ← serverRecvOther b.net pcb ipaddr port (p :: next) env.malloc
    some ({ b with net := net }, effects.map .net)

end EthernetOta.Firmware
