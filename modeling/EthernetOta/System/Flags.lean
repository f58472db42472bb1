import EthernetOta.System.Answers
import EthernetOta.System.Link

/-!
# Replies and the flags they are read by

A reply does not say what it answers: `messageReceived` reads it by the flags the
user interface writes once the request has left. In a session there is at most one
request, reply or message that asks for a request at a time. A reply is read as what
it is when its flag was written before it came, and a CRC when it is no status.
-/

namespace EthernetOta.System

open Firmware App

def isSet (a : Activity) : Flag → Bool
  | .dataSend => a.bDataSend
  | .commandSend => a.bCommandSend
  | .commandGetverison => a.bCommandGetverison

/-- The flag is up, or about to be written. -/
def Settled (g : Gateway) (f : Flag) : Prop := isSet g.activity f = true ∨ g.pending = some f

def Ready (g : Gateway) : Request → Prop
  | .authentication _ => g.pending = none
  | .data .. => Settled g .dataSend ∧ ¬ Settled g .commandSend
  | .command .getCRC => Settled g .commandSend ∧ ¬ Settled g .dataSend
  | .command .getVersion => Settled g .commandGetverison ∧ ¬ Settled g .commandSend
  | .command .exeFirmware => isSet g.activity .commandSend = true ∧ ¬ Settled g .dataSend

def asks : Msg → Bool
  | .sendDataFrame | .continueData | .sendGetVersion | .transfer2NewFirmware => true
  | .updateOver | .displayVersion | .connectionLost => false

def Asked (g : Gateway) : Msg → Prop
  | .sendDataFrame | .sendGetVersion => ¬ Settled g .commandSend
  | .continueData => Settled g .dataSend ∧ ¬ Settled g .commandSend
  | .transfer2NewFirmware => isSet g.activity .commandSend = true ∧ ¬ Settled g .dataSend
  | .updateOver | .displayVersion | .connectionLost => True

inductive Exchange (s : Link) : Prop
  | quiet (requests : s.requests = []) (replies : s.replies = []) (queue : s.gateway.queue.filter asks = [])
  | request (r : Request) (requests : s.requests = [r]) (replies : s.replies = [])
    (queue : s.gateway.queue.filter asks = []) (ready : Ready s.gateway r)
  | reply (p : Reply) (requests : s.requests = []) (replies : s.replies = [p])
    (queue : s.gateway.queue.filter asks = []) (ready : Ready s.gateway p.request)
    (answered : Answered p.request p.out)
  | message (msg : Msg) (requests : s.requests = []) (replies : s.replies = [])
    (queue : s.gateway.queue.filter asks = [msg]) (asked : Asked s.gateway msg)

structure Quiet (s : Link) : Prop where
  requests : s.requests = []
  replies : s.replies = []
  queue : s.gateway.queue.filter asks = []

theorem Quiet.exchange (h : Quiet s) : Exchange s := .quiet h.requests h.replies h.queue

-- ---------------------------------------------------------------------------
-- Steps that keep the flags
-- ---------------------------------------------------------------------------

structure Keeps (g g' : Gateway) : Prop where
  settled : ∀ f, Settled g' f ↔ Settled g f
  command : isSet g.activity .commandSend = true → isSet g'.activity .commandSend = true
  pending : g.pending = none → g'.pending = none

section
variable {g g' : Gateway} {r : Request} {msg : Msg}

theorem Ready.keep (h : Ready g r) (k : Keeps g g') : Ready g' r := by
  cases r with
  | authentication => exact k.pending h
  | data => exact ⟨(k.settled _).mpr h.1, mt (k.settled _).mp h.2⟩
  | command c =>
    cases c with
    | getVersion => exact ⟨(k.settled _).mpr h.1, mt (k.settled _).mp h.2⟩
    | getCRC => exact ⟨(k.settled _).mpr h.1, mt (k.settled _).mp h.2⟩
    | exeFirmware => exact ⟨k.command h.1, mt (k.settled _).mp h.2⟩

theorem Asked.keep (h : Asked g msg) (k : Keeps g g') : Asked g' msg := by
  cases msg with
  | sendDataFrame => exact mt (k.settled _).mp h
  | sendGetVersion => exact mt (k.settled _).mp h
  | continueData => exact ⟨(k.settled _).mpr h.1, mt (k.settled _).mp h.2⟩
  | transfer2NewFirmware => exact ⟨k.command h.1, mt (k.settled _).mp h.2⟩
  | updateOver => trivial
  | displayVersion => trivial
  | connectionLost => trivial

theorem Keeps.of_eq (hset : ∀ f, isSet g'.activity f = isSet g.activity f) (hpending : g'.pending = g.pending) :
    Keeps g g' where
  settled f := by rw [Settled, Settled, hset, hpending]
  command h := (hset _).trans h
  pending h := hpending.trans h

theorem isSet_set (a : Activity) (f f' : Flag) : isSet (a.set f) f' = true ↔ isSet a f' = true ∨ f = f' := by
  cases f <;> cases f' <;> simp [isSet, Activity.set]

theorem Keeps.flag (hpending : g.pending = some f) :
    Keeps g { g with activity := g.activity.set f, pending := none } where
  settled f' := by simp [Settled, isSet_set, hpending]
  command h := (isSet_set _ _ _).mpr (.inl h)
  pending _ := rfl

end

theorem Exchange.keep {s s' : Link} (h : Exchange s) (requests : s'.requests = s.requests)
    (replies : s'.replies = s.replies)
    (queue : s'.gateway.queue.filter asks = s.gateway.queue.filter asks) (k : Keeps s.gateway s'.gateway) :
    Exchange s' := by
  cases h with
  | quiet hreq hrep hq => exact .quiet (requests.trans hreq) (replies.trans hrep) (queue.trans hq)
  | request r hreq hrep hq ready =>
    exact .request r (requests.trans hreq) (replies.trans hrep) (queue.trans hq) (ready.keep k)
  | reply p hreq hrep hq ready answered =>
    exact .reply p (requests.trans hreq) (replies.trans hrep) (queue.trans hq) (ready.keep k) answered
  | message msg hreq hrep hq asked =>
    exact .message msg (requests.trans hreq) (replies.trans hrep) (queue.trans hq) (asked.keep k)

-- ---------------------------------------------------------------------------
-- The app
-- ---------------------------------------------------------------------------

/-- Handling a message sends a request that is ready to be answered, or nothing. -/
theorem handled_ready {a : Activity} {fs : Path → Option File} {r : Activity.Handled} {queue : List Msg}
    (asked : Asked ⟨a, queue, none⟩ msg) (h : a.handleMessage fs msg = some r) :
    sentIn r.effects = [] ∨ ∃ req, sentIn r.effects = [req] ∧ Ready ⟨r.activity, queue, r.flag⟩ req := by
  cases msg with
  | sendDataFrame =>
    have hcommand : a.bCommandSend = false := by simpa [Asked, Settled, isSet] using asked
    simp only [Activity.handleMessage] at h
    split at h
    · obtain rfl := Option.some.inj h
      exact .inl rfl
    · rename_i file _
      obtain ⟨f, b, n, fis, effects, heq, -, hsent⟩ := Activity.sendBlock_cases { a with
        fis := some file.reads, baos := [], mFilesize := if file.available % 1024 = 0 then
          file.available / 1024 else file.available / 1024 + 1 }
      simp only [heq] at h
      obtain rfl := Option.some.inj h
      rcases hsent with rfl | ⟨-, iv, plaintext, num, rfl⟩
      · exact .inl rfl
      · exact .inr ⟨.data iv plaintext num, rfl, .inr rfl, by simp [Settled, isSet, hcommand]⟩
  | sendGetVersion =>
    have hcommand : a.bCommandSend = false := by simpa [Asked, Settled, isSet] using asked
    obtain rfl := Option.some.inj h
    exact .inr ⟨.command .getVersion, rfl, .inr rfl, by simp [Settled, isSet, hcommand]⟩
  | continueData =>
    have hset : a.bDataSend = true ∧ a.bCommandSend = false := by simpa [Asked, Settled, isSet] using asked
    simp only [Activity.handleMessage] at h
    split at h
    · exact absurd h.symm (Option.some_ne_none _)
    · split at h
      · split at h
        · obtain rfl := Option.some.inj h
          exact .inl rfl
        · obtain rfl := Option.some.inj h
          exact .inr ⟨.command .getCRC, rfl, .inr rfl, by simp [Settled, isSet]⟩
      · obtain ⟨f, b, n, fis, effects, heq, -, hsent⟩ := Activity.sendBlock_cases a
        simp only [heq] at h
        obtain rfl := Option.some.inj h
        rcases hsent with rfl | ⟨-, iv, plaintext, num, rfl⟩
        · exact .inl rfl
        · exact .inr ⟨.data iv plaintext num, rfl, .inl hset.1, by simp [Settled, isSet, hset.2]⟩
  | transfer2NewFirmware =>
    have hset : a.bCommandSend = true ∧ a.bDataSend = false := by simpa [Asked, Settled, isSet] using asked
    obtain rfl := Option.some.inj h
    exact .inr ⟨.command .exeFirmware, rfl, hset.1, by simp [Settled, isSet, hset.2]⟩
  | updateOver =>
    obtain rfl := Option.some.inj h
    exact .inl rfl
  | displayVersion =>
    obtain rfl := Option.some.inj h
    exact .inl rfl
  | connectionLost =>
    obtain rfl := Option.some.inj h
    exact .inl rfl

theorem handled_idle {a : Activity} {fs : Path → Option File} {r : Activity.Handled} (idle : asks msg = false)
    (h : a.handleMessage fs msg = some r) : r = ⟨a, [], none⟩ := by
  cases msg with
  | updateOver => exact (Option.some.inj h).symm
  | displayVersion => exact (Option.some.inj h).symm
  | connectionLost => exact (Option.some.inj h).symm
  | sendDataFrame => exact absurd idle (by decide)
  | continueData => exact absurd idle (by decide)
  | sendGetVersion => exact absurd idle (by decide)
  | transfer2NewFirmware => exact absurd idle (by decide)

theorem pressed {g g' : Gateway} (he : (∃ iv, e = .update iv) ∨ ∃ iv, e = .check iv)
    (h : g.step e = some (g', effects)) : Keeps g g' ∧ g'.queue = g.queue ∧
      (sentIn effects = [] ∨ g'.pending = none ∧ ∃ iv, sentIn effects = [.authentication iv]) := by
  rcases he with ⟨iv, rfl⟩ | ⟨iv, rfl⟩
  · cases step_cases h with
    | idle => exact ⟨.of_eq (fun _ => rfl) rfl, rfl, .inl rfl⟩
    | update _ pending => exact ⟨.of_eq (fun f => by cases f <;> rfl) rfl, rfl, .inr ⟨pending, iv, rfl⟩⟩
  · cases step_cases h with
    | idle => exact ⟨.of_eq (fun _ => rfl) rfl, rfl, .inl rfl⟩
    | check _ pending => exact ⟨.of_eq (fun f => by cases f <;> rfl) rfl, rfl, .inr ⟨pending, iv, rfl⟩⟩

theorem chosen {g g' : Gateway} {fs : Path → Option File} (h : g.step (.choose filePath fs) = some (g', effects)) :
    Keeps g g' ∧ g'.queue = g.queue ∧ sentIn effects = [] := by
  cases step_cases h with
  | idle => exact ⟨.of_eq (fun _ => rfl) rfl, rfl, rfl⟩
  | choose => exact ⟨.of_eq (fun f => by cases f <;> rfl) rfl, rfl, rfl⟩

section
variable {s s' : Link}

theorem exchange_press (h : Quiet s) (he : (∃ iv, e = .update iv) ∨ ∃ iv, e = .check iv)
    (hs : s.app e = some (s', effects)) : Exchange s' := by
  obtain ⟨g, ge, hg, rfl, -⟩ := link_app hs
  obtain ⟨-, hqueue, hsent⟩ := pressed he hg
  have hq : g.queue.filter asks = [] := by rw [hqueue]; exact h.queue
  rcases hsent with hsent | ⟨hpending, iv, hsent⟩
  · exact .quiet (by rw [h.requests, hsent]; rfl) h.replies hq
  · exact .request (.authentication iv) (by rw [h.requests, hsent]; rfl) h.replies hq hpending

theorem exchange_choose {fs : Path → Option File} (h : Exchange s)
    (hs : s.app (.choose filePath fs) = some (s', effects)) : Exchange s' := by
  obtain ⟨g, ge, hg, rfl, -⟩ := link_app hs
  obtain ⟨hkeeps, hqueue, hsent⟩ := chosen hg
  exact h.keep (by rw [hsent, List.append_nil]) rfl (by rw [hqueue]) hkeeps

theorem exchange_flag (h : Exchange s) (hs : s.app .flag = some (s', effects)) : Exchange s' := by
  obtain ⟨g, ge, hg, rfl, -⟩ := link_app hs
  cases step_cases hg with
  | idle => exact h.keep (List.append_nil _) rfl rfl (.of_eq (fun _ => rfl) rfl)
  | flag f pending => exact h.keep (List.append_nil _) rfl rfl (.flag pending)

theorem exchange_handle {fs : Path → Option File} (h : Exchange s)
    (hs : s.app (.handle fs) = some (s', effects)) : Exchange s' := by
  obtain ⟨g, ge, hg, rfl, -⟩ := link_app hs
  cases step_cases hg with
  | idle => exact h.keep (List.append_nil _) rfl rfl (.of_eq (fun _ => rfl) rfl)
  | handle _ msg queue r hpending hqueue hr =>
    cases hasks : asks msg with
    | false =>
      obtain rfl := handled_idle hasks hr
      refine h.keep (List.append_nil _) rfl ?_ (.of_eq (fun _ => rfl) hpending.symm)
      rw [hqueue, List.filter_cons_of_neg (by simp [hasks])]
    | true =>
      have hfilter : s.gateway.queue.filter asks = msg :: queue.filter asks := by
        rw [hqueue, List.filter_cons_of_pos hasks]
      cases h with
      | quiet _ _ hq => exact absurd (hfilter.symm.trans hq) (List.cons_ne_nil _ _)
      | request _ _ _ hq => exact absurd (hfilter.symm.trans hq) (List.cons_ne_nil _ _)
      | reply _ _ _ hq => exact absurd (hfilter.symm.trans hq) (List.cons_ne_nil _ _)
      | message msg' hreq hrep hq asked =>
        obtain ⟨rfl, hrest⟩ := List.cons.inj (hfilter.symm.trans hq)
        have hasked : Asked ⟨s.gateway.activity, queue, none⟩ msg := asked.keep (.of_eq (fun _ => rfl) hpending.symm)
        rcases handled_ready hasked hr with hsent | ⟨req, hsent, ready⟩
        · exact .quiet (by rw [hreq, hsent]; rfl) hrep hrest
        · exact .request req (by rw [hreq, hsent]; rfl) hrep hrest ready

end

-- ---------------------------------------------------------------------------
-- The replies
-- ---------------------------------------------------------------------------

/-- The flag `messageReceived` reads an accepted request's reply by. -/
def readBy : Request → Option Flag
  | .data .. => some .dataSend
  | .command .getCRC => some .commandSend
  | .command .getVersion => some .commandGetverison
  | .authentication _ | .command .exeFirmware => none

/-- The flag is not still to be written (or was up already), and a CRC is no status. -/
structure Timely (g : Gateway) (p : Reply) : Prop where
  written : ∀ f, readBy p.request = some f → g.pending = some f → isSet g.activity f = true
  value : p.request = .command .getCRC → ¬ IsStatus p.message

/-- A data frame's ack asks for the next block, a CRC is compared with `mFileCRC`
whatever that is, and a version is displayed. -/
def HeededReply (g : Gateway) (p : Reply) : Prop :=
  match p.request with
  | .data .. => ∃ a posts, g.activity.messageReceived p.message = some (a, posts) ∧
      posts.count .continueData = 1
  | .command .getCRC => ∀ crc, ∃ a posts,
      { g.activity with mFileCRC := crc }.messageReceived p.message = some (a, posts) ∧
      (.transfer2NewFirmware ∈ posts ↔ crc = uHtonl p.out.ack)
  | .command .getVersion => ∃ a posts, g.activity.messageReceived p.message = some (a, posts) ∧
      .displayVersion ∈ posts
  | .authentication _ | .command .exeFirmware => True

section
variable {g : Gateway} {f : Flag}

theorem Settled.iff_written (h : Settled g f) :
    isSet g.activity f = true ↔ (g.pending = some f → isSet g.activity f = true) := by
  constructor
  · intro hset _
    exact hset
  · intro hwritten
    rcases h with hset | hpending
    · exact hset
    · exact hwritten hpending

theorem not_isSet (h : ¬ Settled g f) : isSet g.activity f = false :=
  Bool.eq_false_iff.mpr fun hset => h (.inl hset)

theorem timely_iff (hread : readBy p.request = some f) (hcrc : p.request ≠ .command .getCRC) (h : Settled g f) :
    Timely g p ↔ isSet g.activity f = true := by
  rw [h.iff_written]
  constructor
  · intro ht
    exact ht.written f hread
  · intro hwritten
    refine ⟨fun f' hf' => ?_, fun h => absurd h hcrc⟩
    obtain rfl := Option.some.inj (hread.symm.trans hf')
    exact hwritten

theorem uHtonl_uHtonl (w : Word) : uHtonl (uHtonl w) = w := by
  rw [← word_bytes w, uHtonl_append, uHtonl_append]

theorem valued_continueData (a : Activity) (b0 b1 b2 b3 : Byte) :
    (valued a b0 b1 b2 b3).2.count .continueData = 1 ↔ a.bDataSend = true := by
  simp only [valued]
  cases a.bDataSend <;> cases a.bCommandGetverison <;> by_cases h : a.bCommandSend ∧
    a.mFileCRC = ackValue b0 b1 b2 b3 <;> simp [h]

theorem valued_displayVersion (a : Activity) (b0 b1 b2 b3 : Byte) :
    .displayVersion ∈ (valued a b0 b1 b2 b3).2 ↔ a.bCommandGetverison = true := by
  simp only [valued]
  cases a.bDataSend <;> cases a.bCommandGetverison <;> by_cases h : a.bCommandSend ∧
    a.mFileCRC = ackValue b0 b1 b2 b3 <;> simp [h]

theorem valued_transfer (a : Activity) (b0 b1 b2 b3 : Byte) :
    .transfer2NewFirmware ∈ (valued a b0 b1 b2 b3).2 ↔
      a.bCommandSend = true ∧ a.mFileCRC = ackValue b0 b1 b2 b3 := by
  simp only [valued]
  cases a.bDataSend <;> cases a.bCommandGetverison <;> by_cases h : a.bCommandSend ∧
    a.mFileCRC = ackValue b0 b1 b2 b3 <;> simp [h]

theorem received_crc (a : Activity) {w : Word} (h : ¬ IsStatus (generateAckFrame (uHtonl w))) :
    a.messageReceived (generateAckFrame (uHtonl w)) = some (valued a ((w >>> 24).setWidth 8)
      ((w >>> 16).setWidth 8) ((w >>> 8).setWidth 8) (w.setWidth 8)) := by
  rw [generateAckFrame_uHtonl, isStatus_ackMessage] at h
  exact received_value a h (generateAckFrame_uHtonl w)

theorem acked_transfer_status {a : Activity} {b0 b1 b2 b3 : Byte} (h : b0 = 0xFF ∧ b1 = 0xFF) :
    .transfer2NewFirmware ∉ (acked a b0 b1 b2 b3).2 := by
  rw [acked, if_pos h]
  split
  · cases a.bCommandSend <;> cases a.bUpdate <;> simp
  · exact List.not_mem_nil

theorem heeded_crc (w : Word) (ready : Ready g (.command .getCRC)) :
    HeededReply g ⟨.command .getCRC, ⟨success, uHtonl w, []⟩⟩ ↔
      Timely g ⟨.command .getCRC, ⟨success, uHtonl w, []⟩⟩ := by
  have hvalue : ackValue ((w >>> 24).setWidth 8) ((w >>> 16).setWidth 8) ((w >>> 8).setWidth 8)
      (w.setWidth 8) = w := word_bytes w
  constructor
  · intro h
    obtain ⟨a, posts, hr, htransfer⟩ := h w
    have hposts := htransfer.mpr (uHtonl_uHtonl w).symm
    have hstatus : ¬ IsStatus (generateAckFrame (uHtonl w)) := by
      intro hstatus
      rw [generateAckFrame_uHtonl, isStatus_ackMessage] at hstatus
      rw [Reply.message, generateAckFrame_uHtonl, messageReceived_ackMessage] at hr
      obtain ⟨-, rfl⟩ := Prod.mk.inj (Option.some.inj hr)
      exact acked_transfer_status hstatus hposts
    rw [Reply.message, received_crc _ hstatus] at hr
    obtain ⟨-, rfl⟩ := Prod.mk.inj (Option.some.inj hr)
    have hset := ((valued_transfer _ _ _ _ _).mp hposts).1
    refine ⟨fun f hf _ => ?_, fun _ => hstatus⟩
    obtain rfl := Option.some.inj hf
    exact hset
  · intro h crc
    have hset : g.activity.bCommandSend = true := ready.1.iff_written.mpr (h.written _ rfl)
    have htransfer := valued_transfer { g.activity with mFileCRC := crc } ((w >>> 24).setWidth 8)
      ((w >>> 16).setWidth 8) ((w >>> 8).setWidth 8) (w.setWidth 8)
    rw [hvalue] at htransfer
    have hout : crc = uHtonl (uHtonl w) ↔ crc = w := by rw [uHtonl_uHtonl]
    exact ⟨_, _, received_crc _ (h.value rfl), (htransfer.trans (and_iff_right hset)).trans hout.symm⟩

theorem heeded_iff {p : Reply} (ready : Ready g p.request) (answered : Answered p.request p.out)
    (ret : p.out.ret = success) : HeededReply g p ↔ Timely g p := by
  obtain ⟨r, out⟩ := p
  cases answered with
  | refused _ _ _ _ fail => exact absurd (fail.symm.trans ret) (by decide)
  | passed => exact ⟨fun _ => ⟨fun _ h => absurd h.symm (Option.some_ne_none _), by simp⟩, fun _ => trivial⟩
  | exec => exact ⟨fun _ => ⟨fun _ h => absurd h.symm (Option.some_ne_none _), by simp⟩, fun _ => trivial⟩
  | stored iv plaintext num b2 b3 _ _ message =>
    have hr := received_value g.activity (by decide) message
    rw [timely_iff rfl (by simp) ready.1, isSet, ← valued_continueData g.activity 0x04 0x00 b2 b3]
    constructor
    · rintro ⟨a, posts, hr', hcount⟩
      obtain ⟨-, rfl⟩ := Prod.mk.inj (Option.some.inj (hr.symm.trans hr'))
      exact hcount
    · intro hcount
      exact ⟨_, _, hr, hcount⟩
  | version =>
    have hmessage : generateAckFrame (uHtonl appVersion) = ackMessage 0x00 0x01 0x00 0x00 := by decide
    have hr := received_value g.activity (by decide) hmessage
    rw [timely_iff rfl (by simp) ready.1, isSet, ← valued_displayVersion g.activity 0x00 0x01 0x00 0x00]
    constructor
    · rintro ⟨a, posts, hr', hdisplay⟩
      obtain ⟨-, rfl⟩ := Prod.mk.inj (Option.some.inj (hr.symm.trans hr'))
      exact hdisplay
    · intro hdisplay
      exact ⟨_, _, hr, hdisplay⟩
  | crc w => exact heeded_crc w ready

-- ---------------------------------------------------------------------------
-- What comes of a reply
-- ---------------------------------------------------------------------------

def Follows (g : Gateway) (r : Activity × List Msg) : Prop :=
  r.2.filter asks = [] ∨ ∃ msg, r.2.filter asks = [msg] ∧ ∀ queue, Asked ⟨r.1, queue, g.pending⟩ msg

theorem isSet_valued (a : Activity) (b0 b1 b2 b3 : Byte) (hf : f ≠ .commandGetverison) :
    isSet (valued a b0 b1 b2 b3).1 f = isSet a f := by
  simp only [valued]
  cases f with
  | dataSend => cases h : a.bCommandGetverison <;> rfl
  | commandSend => cases h : a.bCommandGetverison <;> rfl
  | commandGetverison => exact absurd rfl hf

theorem settled_valued (b0 b1 b2 b3 : Byte) (queue : List Msg) (hf : f ≠ .commandGetverison) :
    Settled ⟨(valued g.activity b0 b1 b2 b3).1, queue, g.pending⟩ f ↔ Settled g f := by
  rw [Settled, Settled, isSet_valued _ _ _ _ _ hf]

theorem follows_value (b0 b1 b2 b3 : Byte) (hcommand : ¬ Settled g .commandSend) :
    Follows g (valued g.activity b0 b1 b2 b3) := by
  have hnot : g.activity.bCommandSend = false := not_isSet hcommand
  cases hdata : g.activity.bDataSend with
  | false =>
    refine .inl ?_
    simp only [valued, hdata, hnot]
    cases g.activity.bCommandGetverison <;> rfl
  | true =>
    refine .inr ⟨.continueData, ?_, fun queue => ⟨(settled_valued _ _ _ _ _ (by decide)).mpr (.inl hdata),
      mt (settled_valued _ _ _ _ _ (by decide)).mp hcommand⟩⟩
    simp only [valued, hdata, hnot]
    cases g.activity.bCommandGetverison <;> rfl

theorem follows_crc (b0 b1 b2 b3 : Byte) (hset : isSet g.activity .commandSend = true)
    (hdata : ¬ Settled g .dataSend) : Follows g (valued g.activity b0 b1 b2 b3) := by
  have hnot : g.activity.bDataSend = false := not_isSet hdata
  have hcommand : g.activity.bCommandSend = true := hset
  by_cases hcrc : g.activity.mFileCRC = ackValue b0 b1 b2 b3
  · refine .inr ⟨.transfer2NewFirmware, ?_, fun queue => ⟨(isSet_valued _ _ _ _ _ (by decide)).trans hset,
      mt (settled_valued _ _ _ _ _ (by decide)).mp hdata⟩⟩
    simp only [valued, hnot, hcommand, hcrc]
    cases g.activity.bCommandGetverison <;> rfl
  · refine .inl ?_
    simp only [valued, hnot, hcommand, hcrc]
    cases g.activity.bCommandGetverison <;> rfl

theorem follows_reply {p : Reply} (ready : Ready g p.request) (answered : Answered p.request p.out)
    (timely : p.out.ret = success → Timely g p) :
    ∃ r, g.activity.messageReceived p.message = some r ∧ Follows g r := by
  obtain ⟨request, out⟩ := p
  cases answered with
  | refused _ code hcode _ _ message =>
    obtain ⟨e, he⟩ := received_refused g.activity hcode message
    exact ⟨_, he, .inl rfl⟩
  | passed =>
    refine ⟨_, received_pass g.activity, ?_⟩
    have hpending : g.pending = none := ready
    cases hcommand : g.activity.bCommandSend with
    | true =>
      refine .inl ?_
      simp only [passMsg, hcommand]
      rfl
    | false =>
      have hnot : ∀ queue, ¬ Settled ⟨g.activity, queue, g.pending⟩ .commandSend := by
        intro queue
        simp [Settled, isSet, hcommand, hpending]
      refine .inr ?_
      simp only [passMsg, hcommand]
      cases g.activity.bUpdate with
      | true => exact ⟨.sendDataFrame, rfl, hnot⟩
      | false => exact ⟨.sendGetVersion, rfl, hnot⟩
  | stored _ _ _ _ _ _ _ message => exact ⟨_, received_value _ (by decide) message, follows_value _ _ _ _ ready.2⟩
  | version =>
    have hmessage : generateAckFrame (uHtonl appVersion) = ackMessage 0x00 0x01 0x00 0x00 := by decide
    exact ⟨_, received_value _ (by decide) hmessage, follows_value _ _ _ _ ready.2⟩
  | crc w =>
    have ht := timely rfl
    have hset : isSet g.activity .commandSend = true := ready.1.iff_written.mpr (ht.written _ rfl)
    exact ⟨_, received_crc _ (ht.value rfl), follows_crc _ _ _ _ hset ready.2⟩
  | exec =>
    have hstatus : uHtonl commandFramePass = uHtonl authenticatedPass := by decide
    have hcommand : g.activity.bCommandSend = true := ready.1
    refine ⟨_, by rw [Reply.message, hstatus]; exact received_pass g.activity, .inl ?_⟩
    simp only [passMsg, hcommand]
    rfl

end

-- ---------------------------------------------------------------------------
-- Runs
-- ---------------------------------------------------------------------------

/-- A button is pressed once the last session is over. -/
def Sessions (_ : List LinkEffect) (s : Link) : LinkEvent → Prop
  | .update _ | .check _ => Quiet s
  | _ => True

/-- What is said of the reply to an accepted request, when it is taken. -/
def AtReply (cond : Gateway → Reply → Prop) (_ : List LinkEffect) (s : Link) : LinkEvent → Prop
  | .reply => ∀ p replies, s.replies = p :: replies → p.out.ret = success → cond s.gateway p
  | _ => True

section
variable {s s' : Link}

theorem timeout_cases (hs : s.app (.received timeoutMessage) = some (s', effects)) : ∃ posts : List Msg,
    posts.filter asks = [] ∧ s' = { s with gateway := { s.gateway with queue := s.gateway.queue ++ posts } } ∧
      effects = posts.map fun msg => .app (.posted msg) := by
  obtain ⟨g, ge, hg, rfl, rfl⟩ := link_app hs
  simp only [Gateway.step, received_timeout] at hg
  obtain ⟨rfl, rfl⟩ := Prod.mk.inj (Option.some.inj hg)
  cases s.gateway.activity.bDataSend with
  | true => exact ⟨[.connectionLost], rfl, by simp [sentIn], rfl⟩
  | false => exact ⟨[], rfl, by simp [sentIn], rfl⟩

theorem exchange_timeout (h : Exchange s) (hs : s.app (.received timeoutMessage) = some (s', effects)) :
    Exchange s' := by
  obtain ⟨posts, hposts, rfl, -⟩ := timeout_cases hs
  refine h.keep rfl rfl ?_ (.of_eq (fun _ => rfl) rfl)
  rw [List.filter_append, hposts, List.append_nil]

theorem exchange_device {env : Env} {rest : Mem} (h : Exchange s)
    (hs : s.step lib cipher (.device env rest) = some (s', effects)) : Exchange s' := by
  rcases device_cases hs with ⟨-, rfl, -⟩ | ⟨r, requests, hrequests, rfl, -⟩
  · exact h
  · cases h with
    | quiet hreq => exact absurd (hrequests.symm.trans hreq) (List.cons_ne_nil _ _)
    | reply _ hreq => exact absurd (hrequests.symm.trans hreq) (List.cons_ne_nil _ _)
    | message _ hreq => exact absurd (hrequests.symm.trans hreq) (List.cons_ne_nil _ _)
    | request r' hreq hrep hq ready =>
      obtain ⟨rfl, rfl⟩ := List.cons.inj (hrequests.symm.trans hreq)
      exact .reply ⟨r, _⟩ rfl (by rw [hrep]; rfl) hq ready (answered lib cipher env s.dev r rest)

theorem exchange_reply (h : Exchange s) (timely : AtReply Timely past s .reply)
    (hs : s.step lib cipher .reply = some (s', effects)) : Exchange s' := by
  rcases reply_cases hs with ⟨-, rfl, -⟩ | ⟨p, replies, a, posts, hreplies, hr, rfl, -⟩
  · exact h
  · cases h with
    | quiet _ hrep => exact absurd (hreplies.symm.trans hrep) (List.cons_ne_nil _ _)
    | request _ _ hrep => exact absurd (hreplies.symm.trans hrep) (List.cons_ne_nil _ _)
    | message _ _ hrep => exact absurd (hreplies.symm.trans hrep) (List.cons_ne_nil _ _)
    | reply p' hreq hrep hq ready answered =>
      obtain ⟨rfl, rfl⟩ := List.cons.inj (hreplies.symm.trans hrep)
      obtain ⟨r, hr', follows⟩ := follows_reply ready answered (timely p [] hreplies)
      obtain rfl := Option.some.inj (hr'.symm.trans hr)
      have hposts : ((s.gateway.queue ++ posts).filter asks) = posts.filter asks := by
        rw [List.filter_append, hq, List.nil_append]
      rcases follows with hnone | ⟨msg, hone, asked⟩
      · exact .quiet hreq rfl (hposts.trans hnone)
      · exact .message msg hreq rfl (hposts.trans hone) (asked _)

theorem exchange_step (h : Exchange s) (sessions : Sessions past s e) (timely : AtReply Timely past s e)
    (hs : s.step lib cipher e = some (s', effects)) : Exchange s' := by
  cases e with
  | update iv => exact exchange_press sessions (.inl ⟨_, rfl⟩) hs
  | check iv => exact exchange_press sessions (.inr ⟨_, rfl⟩) hs
  | choose filePath fs => exact exchange_choose h hs
  | handle fs => exact exchange_handle h hs
  | flag => exact exchange_flag h hs
  | timeout => exact exchange_timeout h hs
  | device env rest => exact exchange_device h hs
  | reply => exact exchange_reply h timely hs

theorem atReply_iff (h : Exchange s) (past : List LinkEffect) (e : LinkEvent) :
    AtReply HeededReply past s e ↔ AtReply Timely past s e := by
  cases e with
  | reply =>
    refine forall₄_congr fun p replies hreplies ret => ?_
    cases h with
    | quiet _ hrep => exact absurd (hreplies.symm.trans hrep) (List.cons_ne_nil _ _)
    | request _ _ hrep => exact absurd (hreplies.symm.trans hrep) (List.cons_ne_nil _ _)
    | message _ _ hrep => exact absurd (hreplies.symm.trans hrep) (List.cons_ne_nil _ _)
    | reply p' _ hrep _ ready answered =>
      obtain ⟨rfl, -⟩ := List.cons.inj (hreplies.symm.trans hrep)
      exact heeded_iff ready answered ret
  | _ => exact Iff.rfl

end

/-- From any quiet state on, over every interleaving of the app and the device in one
session after another: the reply to every accepted data frame, `GET_CRC` and
`GET_VERSION` has its effect in just those runs in which each such reply is timely. -/
theorem replies_heeded (lib : GcmLib) (cipher : Cipher) (quiet : Quiet s)
    (sessions : (link lib cipher).Meets Sessions [] s events) :
    (link lib cipher).Meets (AtReply HeededReply) [] s events ↔
      (link lib cipher).Meets (AtReply Timely) [] s events := by
  refine Faulting.meets_iff (R := fun _ s => Exchange s) ?_ quiet.exchange sessions
  intro past s e h sess
  exact ⟨atReply_iff h past e, fun timely s' effects hs => exchange_step h sess timely hs⟩

-- ---------------------------------------------------------------------------
-- A version that comes too early
-- ---------------------------------------------------------------------------

theorem quiet_started : Quiet started := ⟨rfl, rfl, rfl⟩

def checking (queue : List Msg) (pending : Option Flag) : Gateway :=
  ⟨{ Activity.onCreate with randomIv := sampleIv }, queue, pending⟩

def versionAsked : List LinkEvent :=
  [.check ⟨sampleIv, rfl⟩, .device sampleEnv fun _ => 0, .reply, .handle fun _ => none]

theorem check_started : Link.step gcmMemory aesGcmNoPadding started (.check ⟨sampleIv, rfl⟩) =
    some (⟨checking [] none, [.authentication sampleIv], [], boot 0 blankFlash⟩,
      [.app (.sent (.authentication sampleIv))]) := rfl

theorem device_checking : ∃ d, Link.step gcmMemory aesGcmNoPadding
      ⟨checking [] none, [.authentication sampleIv], [], boot 0 blankFlash⟩ (.device sampleEnv fun _ => 0) =
        some (⟨checking [] none, [], [⟨.authentication sampleIv, ⟨success, uHtonl authenticatedPass, []⟩⟩], d⟩,
          [.answered (.authentication sampleIv) ⟨success, uHtonl authenticatedPass, []⟩]) ∧
    d.isAuthenticated = true ∧ d.cryptoIdx ≠ -1 := by
  have hidx : (boot 0 blankFlash).cryptoIdx ≠ -1 := by decide
  obtain ⟨p, g, h⟩ := link_authentication
    (s := ⟨checking [] none, [.authentication sampleIv], [], boot 0 blankFlash⟩)
    sampleEnv (fun _ => 0) aesGcm_sameTag ⟨sampleIv, rfl⟩ hidx rfl rfl
  exact ⟨_, h, rfl, hidx⟩

theorem reply_checking (d : Dev) : Link.step gcmMemory aesGcmNoPadding ⟨checking [] none, [],
      [⟨.authentication sampleIv, ⟨success, uHtonl authenticatedPass, []⟩⟩], d⟩ .reply =
    some (⟨checking [.sendGetVersion] none, [], [], d⟩,
      [.taken (.authentication sampleIv) ⟨success, uHtonl authenticatedPass, []⟩, .app (.posted .sendGetVersion)]) := rfl

theorem handle_checking (d : Dev) : Link.step gcmMemory aesGcmNoPadding ⟨checking [.sendGetVersion] none, [], [], d⟩
      (.handle fun _ => none) = some (⟨checking [] (some .commandGetverison), [.command .getVersion], [], d⟩,
        [.app (.sent (.command .getVersion))]) := rfl

theorem run_versionAsked : ∃ d, (link gcmMemory aesGcmNoPadding).run started versionAsked =
      some (⟨checking [] (some .commandGetverison), [.command .getVersion], [], d⟩,
        [.app (.sent (.authentication sampleIv)),
          .answered (.authentication sampleIv) ⟨success, uHtonl authenticatedPass, []⟩,
          .taken (.authentication sampleIv) ⟨success, uHtonl authenticatedPass, []⟩,
          .app (.posted .sendGetVersion), .app (.sent (.command .getVersion))]) ∧
    d.isAuthenticated = true ∧ d.cryptoIdx ≠ -1 := by
  obtain ⟨d, h, auth, idx⟩ := device_checking
  have hrun : (link gcmMemory aesGcmNoPadding).run started [.check ⟨sampleIv, rfl⟩, .device sampleEnv fun _ => 0,
      .reply, .handle fun _ => none] = _ := Faulting.run_cons check_started (Faulting.run_cons h
    (Faulting.run_cons (reply_checking d) (Faulting.run_cons (handle_checking d) rfl)))
  exact ⟨d, hrun, auth, idx⟩

theorem meets_versionAsked {cond : List LinkEffect → Link → LinkEvent → Prop}
    (check : cond [] started (.check ⟨sampleIv, rfl⟩)) (device : ∀ past s env rest, cond past s (.device env rest))
    (reply : ∀ past d, cond past ⟨checking [] none, [], [⟨.authentication sampleIv,
      ⟨success, uHtonl authenticatedPass, []⟩⟩], d⟩ .reply)
    (handle : ∀ past d fs, cond past ⟨checking [.sendGetVersion] none, [], [], d⟩ (.handle fs)) :
    (link gcmMemory aesGcmNoPadding).Meets cond [] started versionAsked := by
  obtain ⟨d, h, -⟩ := device_checking
  exact .cons check check_started (.cons (device _ _ _ _) h (.cons (reply _ _) (reply_checking d)
    ⟨handle _ _ _, fun _ _ _ => trivial⟩))

theorem sessions_versionAsked : (link gcmMemory aesGcmNoPadding).Meets Sessions [] started versionAsked :=
  meets_versionAsked quiet_started (fun _ _ _ _ => trivial) (fun _ _ => trivial) fun _ _ _ => trivial

/-- The version, once the flag it is read by was written. -/
theorem version_heeded : (link gcmMemory aesGcmNoPadding).Meets (AtReply HeededReply) [] started
    (versionAsked ++ [.flag, .device sampleEnv fun _ => 0, .reply]) := by
  obtain ⟨d, hrun, auth, -⟩ := run_versionAsked
  refine (replies_heeded gcmMemory aesGcmNoPadding quiet_started (.append sessions_versionAsked hrun ?_)).mpr
    (.append (meets_versionAsked trivial (fun _ _ _ _ => trivial) (fun _ _ => ?_) fun _ _ _ => trivial) hrun ?_)
  · exact ⟨trivial, fun _ _ _ => ⟨trivial, fun _ _ _ => ⟨trivial, fun _ _ _ => trivial⟩⟩⟩
  · rintro p replies hreplies -
    obtain ⟨rfl, -⟩ := List.cons.inj hreplies
    exact ⟨fun _ h => absurd h.symm (Option.some_ne_none _), by simp⟩
  · let g : Gateway := ⟨(checking [] none).activity.set .commandGetverison, [], none⟩
    have h1 : Link.step gcmMemory aesGcmNoPadding ⟨checking [] (some .commandGetverison), [.command .getVersion],
        [], d⟩ .flag = some (⟨g, [.command .getVersion], [], d⟩, []) := rfl
    have h2 := link_device (s := ⟨g, [.command .getVersion], [], d⟩) sampleEnv (fun _ => 0) gcmMemory
      aesGcmNoPadding rfl (handle_generateCommandFrame gcmMemory sampleEnv (fun _ => 0) .getVersion auth)
    refine .cons trivial h1 (.cons trivial h2 ⟨?_, fun _ _ _ => trivial⟩)
    rintro p replies hreplies -
    obtain ⟨rfl, -⟩ := List.cons.inj hreplies
    exact ⟨fun f _ h => absurd h.symm (Option.some_ne_none _), by simp⟩

/-- The same without that: nothing is displayed. -/
theorem version_unheeded :
    (link gcmMemory aesGcmNoPadding).Meets Sessions [] started
        (versionAsked ++ [.device sampleEnv fun _ => 0, .reply]) ∧
      ¬ (link gcmMemory aesGcmNoPadding).Meets (AtReply HeededReply) [] started
        (versionAsked ++ [.device sampleEnv fun _ => 0, .reply]) := by
  obtain ⟨d, hrun, auth, -⟩ := run_versionAsked
  refine ⟨.append sessions_versionAsked hrun ⟨trivial, fun _ _ _ => ⟨trivial, fun _ _ _ => trivial⟩⟩, fun h => ?_⟩
  have hdev : (link gcmMemory aesGcmNoPadding).step
      ⟨checking [] (some .commandGetverison), [.command .getVersion], [], d⟩ (.device sampleEnv fun _ => 0) =
      some (⟨checking [] (some .commandGetverison), [],
        [⟨.command .getVersion, ⟨success, uHtonl appVersion, []⟩⟩], d⟩, [.answered (.command .getVersion)
          ⟨success, uHtonl appVersion, []⟩]) :=
    link_device (s := ⟨checking [] (some .commandGetverison), [.command .getVersion], [], d⟩) sampleEnv
      (fun _ => 0) gcmMemory aesGcmNoPadding rfl
      (handle_generateCommandFrame gcmMemory sampleEnv (fun _ => 0) .getVersion auth)
  have hlast : (link gcmMemory aesGcmNoPadding).run ⟨checking [] (some .commandGetverison),
      [.command .getVersion], [], d⟩ [.device sampleEnv fun _ => 0] = _ := Faulting.run_cons hdev rfl
  have hprefix := Faulting.run_append hrun hlast
  have happend : versionAsked ++ [.device sampleEnv fun _ => 0, .reply] =
      (versionAsked ++ [.device sampleEnv fun _ => 0]) ++ [.reply] := by simp
  rw [happend] at h
  obtain ⟨a, posts, hr, hdisplay⟩ := h.last hprefix
    ⟨.command .getVersion, ⟨success, uHtonl appVersion, []⟩⟩ [] rfl rfl
  have hnone : (checking [] (some .commandGetverison)).activity.messageReceived
      (generateAckFrame (uHtonl appVersion)) = some ((checking [] none).activity, []) := rfl
  obtain ⟨-, rfl⟩ := Prod.mk.inj (Option.some.inj (hnone.symm.trans hr))
  exact absurd hdisplay List.not_mem_nil

end EthernetOta.System
