import EthernetOta.App.Acks
import EthernetOta.App.Steps
import EthernetOta.Firmware.Switch
import EthernetOta.System.AckFrames
import EthernetOta.System.Wire

/-!
# The app and the device

The activity and `handle_upgrade_packet` at the two ends of a connection that
delivers each frame and each ack whole and in order. A frame the device has not
handled is in `requests`; an ack the app has not taken is in `replies`, beside the
request it answers, which the ack itself does not name. The device answers when
it likes, and `TCPClient.run` takes an ack or reports a timeout when it likes.
-/

namespace EthernetOta.System

open Firmware App

abbrev Iv := { iv : List Byte // iv.length = 16 }

structure Reply where
  request : Request
  out : Out

structure Link where
  gateway : Gateway
  requests : List Request
  replies : List Reply
  dev : Dev

inductive LinkEvent
  | update (randomIv : Iv)
  | check (randomIv : Iv)
  | choose (filePath : Path) (fs : Path → Option File)
  | handle (fs : Path → Option File)
  | flag
  /-- The device handles the next request; `rest` is what lies behind it in memory. -/
  | device (env : Env) (rest : Mem)
  /-- `messageReceived` gets the next ack. -/
  | reply
  /-- `messageReceived` gets `"timeout"`. -/
  | timeout

inductive LinkEffect
  | app (e : GatewayEffect)
  | answered (r : Request) (out : Out)
  | taken (r : Request) (out : Out)

def sentIn (effects : List GatewayEffect) : List Request :=
  effects.filterMap fun
    | .sent r => some r
    | _ => none

def timeoutMessage : List Byte := [0x74, 0x69, 0x6D, 0x65, 0x6F, 0x75, 0x74]

def Reply.message (p : Reply) : List Byte := generateAckFrame p.out.ack

def Link.app (s : Link) (e : GatewayEvent) : Option (Link × List LinkEffect) := do
  let (gateway, effects) ← s.gateway.step e
  some ({ s with gateway, requests := s.requests ++ sentIn effects }, effects.map .app)

def Link.step (lib : GcmLib) (cipher : Cipher) (s : Link) : LinkEvent → Option (Link × List LinkEffect)
  | .update randomIv => s.app (.update randomIv)
  | .check randomIv => s.app (.check randomIv)
  | .choose filePath fs => s.app (.choose filePath fs)
  | .handle fs => s.app (.handle fs)
  | .flag => s.app .flag
  | .timeout => s.app (.received timeoutMessage)
  | .device env rest =>
    match s.requests with
    | [] => some (s, [])
    | r :: requests =>
      let (dev, out) := handleUpgradePacket lib env s.dev (.ofList (r.bytes cipher) rest)
      some ({ s with dev, requests, replies := s.replies ++ [⟨r, out⟩] }, [.answered r out])
  | .reply =>
    match s.replies with
    | [] => some (s, [])
    | p :: replies => do
      let (s, effects) ← { s with replies }.app (.received p.message)
      some (s, .taken p.request p.out :: effects)

def link (lib : GcmLib) (cipher : Cipher) : Faulting Link LinkEvent LinkEffect where
  step := Link.step lib cipher

-- ---------------------------------------------------------------------------
-- What a step does
-- ---------------------------------------------------------------------------

theorem link_app {s s' : Link} (h : s.app e = some (s', effects)) : ∃ gateway ge,
    s.gateway.step e = some (gateway, ge) ∧
      s' = { s with gateway := gateway, requests := s.requests ++ sentIn ge } ∧ effects = ge.map .app := by
  obtain ⟨⟨gateway, ge⟩, hs, h⟩ := Option.bind_eq_some_iff.mp h
  obtain ⟨rfl, rfl⟩ := Prod.mk.inj (Option.some.inj h)
  exact ⟨gateway, ge, hs, rfl, rfl⟩

theorem link_reply {s s' : Link} {p : Reply} (hp : s.replies = p :: replies)
    (h : s.step lib cipher .reply = some (s', effects)) : ∃ a posts,
    s.gateway.activity.messageReceived p.message = some (a, posts) ∧
      s' = { s with
        gateway := { s.gateway with activity := a, queue := s.gateway.queue ++ posts }
        replies := replies } ∧
      effects = .taken p.request p.out :: posts.map fun msg => .app (.posted msg) := by
  simp only [Link.step, hp] at h
  obtain ⟨⟨s₁, effects₁⟩, happ, h⟩ := Option.bind_eq_some_iff.mp h
  obtain ⟨rfl, rfl⟩ := Prod.mk.inj (Option.some.inj h)
  obtain ⟨gateway, ge, hs, rfl, rfl⟩ := link_app happ
  obtain ⟨⟨a, posts⟩, hr, hs⟩ := Option.bind_eq_some_iff.mp hs
  obtain ⟨rfl, rfl⟩ := Prod.mk.inj (Option.some.inj hs)
  have hnone : sentIn (posts.map GatewayEffect.posted) = [] := by
    simp [sentIn, List.filterMap_map]
  exact ⟨a, posts, hr, by simp [hnone], by simp [Function.comp_def]⟩

theorem reply_cases {s s' : Link} (h : s.step lib cipher .reply = some (s', effects)) :
    (s.replies = [] ∧ s' = s ∧ effects = []) ∨ ∃ p replies a posts, s.replies = p :: replies ∧
      s.gateway.activity.messageReceived p.message = some (a, posts) ∧
      s' = { s with
        gateway := { s.gateway with activity := a, queue := s.gateway.queue ++ posts }
        replies := replies } ∧
      effects = .taken p.request p.out :: posts.map fun msg => .app (.posted msg) := by
  cases hreplies : s.replies with
  | nil =>
    simp only [Link.step, hreplies] at h
    obtain ⟨rfl, rfl⟩ := Prod.mk.inj (Option.some.inj h)
    exact .inl ⟨rfl, rfl, rfl⟩
  | cons p replies =>
    obtain ⟨a, posts, hr, hs', heffects⟩ := link_reply hreplies h
    exact .inr ⟨p, replies, a, posts, rfl, hr, hs', heffects⟩

theorem device_cases {s s' : Link} {env : Env} {rest : Mem}
    (h : s.step lib cipher (.device env rest) = some (s', effects)) :
    (s.requests = [] ∧ s' = s ∧ effects = []) ∨ ∃ r requests, s.requests = r :: requests ∧
      let (dev, out) := handleUpgradePacket lib env s.dev (.ofList (r.bytes cipher) rest)
      s' = { s with dev, requests, replies := s.replies ++ [⟨r, out⟩] } ∧ effects = [.answered r out] := by
  simp only [Link.step] at h
  split at h
  · rename_i hrequests
    obtain ⟨rfl, rfl⟩ := Prod.mk.inj (Option.some.inj h)
    exact .inl ⟨hrequests, rfl, rfl⟩
  · rename_i r requests hrequests
    obtain ⟨rfl, rfl⟩ := Prod.mk.inj (Option.some.inj h)
    exact .inr ⟨r, requests, hrequests, rfl, rfl⟩

theorem link_taken {s : Link} {p : Reply} (lib : GcmLib) (cipher : Cipher) (hp : s.replies = p :: replies)
    (h : s.gateway.activity.messageReceived p.message = some (a, posts)) :
    s.step lib cipher .reply = some ({ s with
        gateway := { s.gateway with activity := a, queue := s.gateway.queue ++ posts }
        replies := replies },
      .taken p.request p.out :: posts.map fun msg => .app (.posted msg)) := by
  have hnone : sentIn (posts.map GatewayEffect.posted) = [] := by
    simp [sentIn, List.filterMap_map]
  simp [Link.step, hp, Link.app, Gateway.step, h, hnone, Function.comp_def]

theorem received_timeout (a : Activity) :
    a.messageReceived timeoutMessage = some (a, if a.bDataSend then [.connectionLost] else []) := rfl

section
variable {s : Link} (env : Env) (rest : Mem)

theorem link_device (lib : GcmLib) (cipher : Cipher) (hrequests : s.requests = r :: requests)
    (h : handleUpgradePacket lib env s.dev (.ofList (r.bytes cipher) rest) = (dev, out)) :
    s.step lib cipher (.device env rest) = some ({ s with
      dev := dev
      requests := requests
      replies := s.replies ++ [⟨r, out⟩] }, [.answered r out]) := by
  simp only [Link.step, hrequests, h]

theorem link_authentication (tag : SameTag lib cipher) (iv : Iv) (idx : s.dev.cryptoIdx ≠ -1)
    (gcm : env.gcmErr = 0) (hrequests : s.requests = .authentication iv :: requests) : ∃ p g,
    let out : Out := ⟨success, uHtonl authenticatedPass, []⟩
    s.step lib cipher (.device env rest) = some ({ s with
        dev := upgradeStart { s.dev.scratch p g with cryptoIv := iv }
        requests := requests
        replies := s.replies ++ [⟨.authentication iv, out⟩] }, [.answered (.authentication iv) out]) := by
  obtain ⟨p, g, h⟩ := handle_authenticationFrame lib env rest iv.2 idx gcm
  rw [tag iv] at h
  exact ⟨p, g, link_device env rest lib cipher hrequests h⟩

end

theorem link_handle {s : Link} {fs : Path → Option File} (lib : GcmLib) (cipher : Cipher)
    (hpending : s.gateway.pending = none) (hqueue : s.gateway.queue = msg :: queue)
    (h : s.gateway.activity.handleMessage fs msg = some r) : s.step lib cipher (.handle fs) = some ({ s with
      gateway := ⟨r.activity, queue, r.flag⟩
      requests := s.requests ++ sentIn r.effects }, r.effects.map .app) := by
  simp [Link.step, Link.app, Gateway.step, hpending, hqueue, h]

theorem link_choose {s : Link} {fs : Path → Option File} {file : File} (lib : GcmLib) (cipher : Cipher)
    (hpending : s.gateway.pending = none) (opens : fs filePath = some file) (marked : file.marked = true) :
    s.step lib cipher (.choose filePath fs) = some ({ s with
      gateway.activity := { s.gateway.activity with mPath := filePath, bFileFormat := true } },
        [.app (.checked filePath true)]) := by
  simp [Link.step, Link.app, Gateway.step, hpending, Activity.onActivityResult, Activity.preCheckVersion, opens, marked,
    sentIn]

-- ---------------------------------------------------------------------------
-- The start
-- ---------------------------------------------------------------------------

theorem sampleIv_length : sampleIv.length = 16 := rfl

def sampleEnv : Env := ⟨0, fun _ => .done, 0⟩

def started : Link := ⟨.onCreate, [], [], boot 0 blankFlash⟩

end EthernetOta.System
