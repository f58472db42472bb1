import EthernetOta.App.UpdateGateway
import EthernetOta.Firmware.Server
import EthernetOta.Firmware.Switch
import EthernetOta.Firmware.Uart
import EthernetOta.System.Crypto

/-!
# Frames in the stream

`TCPClient.sendBytes` writes the length of a frame before it, and `server_recv`
takes what a callback brings for a whole frame when it begins with `[UPGRADE`. The
lengths are no part of any frame, so they go where data for the UART goes.
-/

namespace EthernetOta.System

open Firmware App

-- ---------------------------------------------------------------------------
-- TCPClient.java
-- ---------------------------------------------------------------------------

def writeInt (v : Word) : List Byte :=
  [(v >>> 24).setWidth 8, (v >>> 16).setWidth 8, (v >>> 8).setWidth 8, v.setWidth 8]

/-- `sendBytes`; there is an exception for an empty array. -/
def sendBytes (myByteArray : List Byte) : Option (List Byte) :=
  let len := myByteArray.length
  if 0 < len then some (writeInt (BitVec.ofNat 32 len) ++ myByteArray) else none

def stream (cipher : Cipher) (requests : List Request) : List Byte :=
  (requests.filterMap fun r => sendBytes (r.bytes cipher)).flatten

theorem length_bytes_pos (cipher : Cipher) (r : Request) : 0 < (r.bytes cipher).length := by
  cases r with
  | authentication iv => exact Nat.succ_pos _
  | data iv plaintext num => exact Nat.succ_pos _
  | command c => exact Nat.succ_pos _

theorem stream_cons (cipher : Cipher) (r : Request) (requests : List Request) : stream cipher (r :: requests) =
    writeInt (BitVec.ofNat 32 (r.bytes cipher).length) ++ r.bytes cipher ++ stream cipher requests := by
  rw [stream, List.filterMap_cons, sendBytes, if_pos (length_bytes_pos cipher r)]
  rfl

theorem length_stream (cipher : Cipher) (requests : List Request) : (stream cipher requests).length =
    4 * requests.length + (requests.map (Request.bytes cipher)).flatten.length := by
  induction requests with
  | nil => rfl
  | cons r requests ih =>
    have hint : (writeInt (BitVec.ofNat 32 (r.bytes cipher).length)).length = 4 := rfl
    rw [stream_cons, List.map_cons, List.flatten_cons, List.length_append, List.length_append,
      List.length_append, List.length_cons, ih, hint]
    omega

-- ---------------------------------------------------------------------------
-- Callbacks
-- ---------------------------------------------------------------------------

/-- A call of `server_recv`: a payload, and those behind it in the chain. -/
structure Callback where
  p : List Byte
  next : PbufChain
  nonempty : ∀ q ∈ p :: next, q ≠ []

def Callback.bytes (cb : Callback) : List Byte := (cb.p :: cb.next).flatten

theorem Callback.bytes_ne_nil (cb : Callback) : cb.bytes ≠ [] := by
  rw [Callback.bytes, List.flatten_cons]
  exact List.append_ne_nil_of_left_ne_nil (cb.nonempty cb.p List.mem_cons_self) _

def Cuts (callbacks : List Callback) (stream : List Byte) : Prop :=
  (callbacks.map Callback.bytes).flatten = stream

def server (lib : GcmLib) (pcb : Pcb) (ipaddr : Word) (port : Half) :
    Faulting Board (Callback × RecvEnv) RecvEffect where
  step b call := serverRecv lib b pcb ipaddr port call.1.p call.1.next call.2

def handledIn (effects : List RecvEffect) : List (List Byte) :=
  effects.filterMap fun
    | .handled frame => some frame
    | _ => none

/-- Just these frames are handled, and nothing is queued for the UART. -/
structure Delivered (frames : List (List Byte)) (effects : List RecvEffect) : Prop where
  handled : handledIn effects = frames
  unqueued : ∀ ipaddr port node data, .net (.accepted ipaddr port node data) ∉ effects

/-- From the start of the network on, whatever memory there is. -/
def Survives (lib : GcmLib) (cipher : Cipher) (d : Dev) (pcb : Pcb) (ipaddr : Word) (port : Half)
    (requests : List Request) (callbacks : List Callback) : Prop :=
  ∀ calls : List (Callback × RecvEnv), calls.map Prod.fst = callbacks → ∃ b effects,
    (server lib pcb ipaddr port).run ⟨d, networkInit⟩ calls = some (b, effects) ∧
      Delivered (requests.map (Request.bytes cipher)) effects

-- ---------------------------------------------------------------------------
-- With memory to spare
-- ---------------------------------------------------------------------------

def plenty : RecvEnv where
  upgrade := ⟨0, fun _ => .done, 0⟩
  ciphertext := true
  malloc := mallocAt16
  behind := fun _ => 0

section
variable {lib : GcmLib} {b : Board} {pcb : Pcb} {ipaddr : Word} {port : Half}

theorem serverRecvOther_first (pcb : Pcb) (ipaddr : Word) (port : Half) (p : PbufChain) : ∃ net node,
    serverRecvOther networkInit pcb ipaddr port p mallocAt16 =
      some (net, [.received pcb p.totLen, .accepted ipaddr port node p.flatten]) := ⟨_, _, rfl⟩

theorem serverRecvUpgrade_plenty (lib : GcmLib) (b : Board) (pcb : Pcb) (cb : Callback) : ∃ dev ack,
    serverRecvUpgrade lib b pcb cb.p cb.next plenty = ({ b with dev },
      [.handled cb.bytes, .net (.tcpRecved pcb (PbufChain.totLen (cb.p :: cb.next))), .sendData ack]) :=
  ⟨_, _, if_neg fun h => absurd h.2 (by decide)⟩

theorem handled_all (net : b.net = networkInit) {calls : List (Callback × RecvEnv)}
    (hplenty : ∀ call ∈ calls, call.2 = plenty)
    (hrun : (server lib pcb ipaddr port).run b calls = some (b', effects))
    (unqueued : ∀ ipaddr port node data, .net (.accepted ipaddr port node data) ∉ effects) :
    handledIn effects = calls.map fun call => call.1.bytes := by
  induction calls generalizing b effects with
  | nil =>
    obtain ⟨-, rfl⟩ := Prod.mk.inj (Option.some.inj hrun)
    rfl
  | cons call calls ih =>
    obtain ⟨cb, env⟩ := call
    obtain rfl : env = plenty := hplenty _ List.mem_cons_self
    obtain ⟨b₁, effects₁, rest, hstep, hrest, rfl⟩ := Faulting.of_run_cons hrun
    have hfirst : ∀ ipaddr port node data, .net (.accepted ipaddr port node data) ∉ effects₁ :=
      fun _ _ _ _ h => unqueued _ _ _ _ (List.mem_append_left _ h)
    have hlater : ∀ ipaddr port node data, .net (.accepted ipaddr port node data) ∉ rest :=
      fun _ _ _ _ h => unqueued _ _ _ _ (List.mem_append_right _ h)
    simp only [server, serverRecv] at hstep
    split at hstep
    · obtain ⟨dev, ack, hone⟩ := serverRecvUpgrade_plenty lib b pcb cb
      rw [hone] at hstep
      obtain ⟨rfl, rfl⟩ := Prod.mk.inj (Option.some.inj hstep)
      have hnext := ih (b := ⟨dev, b.net⟩) net (fun call hc => hplenty call (List.mem_cons_of_mem _ hc)) hrest hlater
      rw [List.map_cons, ← hnext]
      rfl
    · rw [net] at hstep
      obtain ⟨net', node, hother⟩ := serverRecvOther_first pcb ipaddr port (cb.p :: cb.next)
      have hmalloc : plenty.malloc = mallocAt16 := rfl
      rw [hmalloc, hother] at hstep
      obtain ⟨-, rfl⟩ := Prod.mk.inj (Option.some.inj hstep)
      exact absurd (List.mem_cons_of_mem _ List.mem_cons_self) (hfirst ipaddr port node _)

end

/-- For every list of frames and every cut of their stream: the device handles just
these frames, and queues none of the stream for the UART, only if there are none. -/
theorem frames_delivered (lib : GcmLib) (cipher : Cipher) (d : Dev) (pcb : Pcb) (ipaddr : Word) (port : Half)
    (requests : List Request) (callbacks : List Callback) (hcuts : Cuts callbacks (stream cipher requests)) :
    Survives lib cipher d pcb ipaddr port requests callbacks ↔ requests = [] := by
  constructor
  · intro h
    have hfst : (callbacks.map fun cb => (cb, plenty)).map Prod.fst = callbacks := by simp [Function.comp_def]
    obtain ⟨b, effects, hrun, hdelivered⟩ := h (callbacks.map fun cb => (cb, plenty)) hfst
    have hplenty : ∀ call ∈ callbacks.map fun cb => (cb, plenty), call.2 = plenty := by
      intro call hcall
      obtain ⟨cb, -, rfl⟩ := List.mem_map.mp hcall
      rfl
    have hall := handled_all rfl hplenty hrun hdelivered.unqueued
    rw [hdelivered.handled, List.map_map] at hall
    have hlen := length_stream cipher requests
    rw [← hcuts, hall] at hlen
    have hsame : (callbacks.map Callback.bytes).flatten.length = 4 * requests.length +
      (callbacks.map Callback.bytes).flatten.length := hlen
    exact List.eq_nil_of_length_eq_zero (by omega)
  · rintro rfl calls hcalls
    have hnil : callbacks = [] := by
      cases callbacks with
      | nil => rfl
      | cons cb callbacks =>
        rw [Cuts, List.map_cons, List.flatten_cons] at hcuts
        exact absurd (List.append_eq_nil_iff.mp hcuts).1 cb.bytes_ne_nil
    rw [hnil] at hcalls
    obtain rfl := List.map_eq_nil_iff.mp hcalls
    exact ⟨_, [], rfl, rfl, fun _ _ _ _ => List.not_mem_nil⟩

def versionCallback : Callback where
  p := stream aesGcmNoPadding [.command .getVersion]
  next := []
  nonempty := by
    rintro q (_ | ⟨_, hq⟩)
    · exact List.cons_ne_nil _ _
    · exact absurd hq List.not_mem_nil

theorem frames_delivered_version : Survives gcmMemory aesGcmNoPadding (boot 0 blankFlash) 1 0xC0A80002 5000
    [.command .getVersion] [versionCallback] ↔ [Request.command .getVersion] = [] :=
  frames_delivered gcmMemory aesGcmNoPadding (boot 0 blankFlash) 1 0xC0A80002 5000 [.command .getVersion]
    [versionCallback] (List.flatten_singleton)

/-- A request for the version begins with its length, and is queued for the UART. -/
theorem version_queued : Cuts [versionCallback] (stream aesGcmNoPadding [.command .getVersion]) ∧
    ¬ Survives gcmMemory aesGcmNoPadding (boot 0 blankFlash) 1 0xC0A80002 5000 [.command .getVersion]
      [versionCallback] := by
  refine ⟨List.flatten_singleton, fun h => ?_⟩
  obtain ⟨b, effects, hrun, hdelivered⟩ := h [(versionCallback, plenty)] rfl
  obtain ⟨net, node, hother⟩ := serverRecvOther_first 1 0xC0A80002 5000 (versionCallback.p :: versionCallback.next)
  have hupgrade : startsUpgrade (.ofList versionCallback.p plenty.behind) = false := by decide
  have hmalloc : plenty.malloc = mallocAt16 := rfl
  have hstep : (server gcmMemory 1 0xC0A80002 5000).step ⟨boot 0 blankFlash, networkInit⟩ (versionCallback, plenty) =
      some (⟨boot 0 blankFlash, net⟩, [.net (.received 1 (PbufChain.totLen (versionCallback.p :: versionCallback.next))),
        .net (.accepted 0xC0A80002 5000 node (versionCallback.p :: versionCallback.next).flatten)]) := by
    simp only [server, serverRecv, hupgrade, hmalloc, hother]
    rfl
  obtain ⟨-, rfl⟩ := Prod.mk.inj (Option.some.inj ((Faulting.run_cons hstep rfl).symm.trans hrun))
  exact hdelivered.unqueued _ _ _ _ (List.mem_cons_of_mem _ List.mem_cons_self)

end EthernetOta.System
