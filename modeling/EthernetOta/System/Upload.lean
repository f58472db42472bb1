import EthernetOta.System.Flags
import EthernetOta.System.Holds
import EthernetOta.System.ImageCrc

/-!
# One upload

A new activity in which Update is pressed once. There is one thing under way at a
time, as in `Flags`, but here all of it is told: what was sent, how far the file was
read, which flag is written and what the device holds, from the press to the point
where nothing more will happen.
-/

namespace EthernetOta.System

open Firmware App
open Activity (padded)

-- ---------------------------------------------------------------------------
-- What is sent
-- ---------------------------------------------------------------------------

def sentOf (past : List LinkEffect) : List Request :=
  past.filterMap fun
    | .app (.sent r) => some r
    | _ => none

theorem sentOf_append (past effects : List LinkEffect) : sentOf (past ++ effects) = sentOf past ++ sentOf effects :=
  List.filterMap_append

theorem sentOf_app (ge : List GatewayEffect) : sentOf (ge.map .app) = sentIn ge := by
  rw [sentOf, List.filterMap_map, sentIn]
  refine List.filterMap_congr fun e _ => ?_
  cases e <;> rfl

def dataRequests (iv : List Byte) (blocks : List (List Byte)) : List Request :=
  blocks.mapIdx fun i b => .data iv b (BitVec.ofNat 16 i)

theorem dataRequests_concat (iv : List Byte) (blocks : List (List Byte)) (b : List Byte) :
    dataRequests iv (blocks ++ [b]) = dataRequests iv blocks ++ [.data iv b (BitVec.ofNat 16 blocks.length)] :=
  List.mapIdx_concat

section
variable {file : File}

/-- A read of a file, where all the reads before it were full. -/
structure Position (file : File) where
  full : List (List Byte)
  c : List Byte
  rest : List (List Byte)
  reads : file.reads = full ++ c :: rest
  whole : ∀ b ∈ full, b.length = 1024

def Position.blocks (p : Position file) : List (List Byte) := p.full ++ [padded p.c]

theorem Position.length_le (p : Position file) : p.c.length ≤ 1024 := by
  refine (file.bounded p.c ?_).2
  rw [p.reads]
  exact List.mem_append_right _ List.mem_cons_self

theorem Position.length_block (p : Position file) : ∀ b ∈ p.blocks, b.length = 1024 := by
  intro b hb
  rcases List.mem_append.mp hb with hb | hb
  · exact p.whole b hb
  · rw [List.mem_singleton.mp hb]
    exact Activity.length_padded p.length_le

inductive Part (file : File)
  | auth
  | block (p : Position file)
  | crc (p : Position file) (short : p.c.length < 1024)
  | exec (p : Position file) (short : p.c.length < 1024)

namespace Part

def request (iv : Iv) : Part file → Request
  | auth => .authentication iv
  | block p => .data iv (padded p.c) (BitVec.ofNat 16 p.full.length)
  | crc _ _ => .command .getCRC
  | exec _ _ => .command .exeFirmware

def message : Part file → Msg
  | auth => .sendDataFrame
  | block _ => .continueData
  | crc _ _ => .transfer2NewFirmware
  | exec _ _ => .updateOver

def sent (iv : Iv) : Part file → List Request
  | auth => [.authentication iv]
  | block p => .authentication iv :: dataRequests iv p.blocks
  | crc p _ => .authentication iv :: dataRequests iv p.blocks ++ [.command .getCRC]
  | exec p _ => .authentication iv :: dataRequests iv p.blocks ++ [.command .getCRC, .command .exeFirmware]

def before (lib : GcmLib) (iv : Iv) : Part file → Dev → Prop
  | auth, _ => True
  | block p, d => Holds lib iv p.full d
  | crc p _, d | exec p _, d => Holds lib iv p.blocks d

def after (lib : GcmLib) (iv : Iv) : Part file → Dev → Prop
  | auth, d => Holds lib iv [] d
  | block p, d | crc p _, d | exec p _, d => Holds lib iv p.blocks d

def count : Part file → Nat
  | auth => 0
  | block p | crc p _ | exec p _ => p.full.length + 1

def finished : Part file → Bool
  | auth => false
  | block p => decide (p.c.length < 1024)
  | crc _ _ | exec _ _ => true

def reading : Part file → Activity → Prop
  | block p, a => a.fis = some p.rest ∧ a.mFilesize ≠ 0
  | _, _ => True

inductive Flags : Part file → Bool → Bool → Option Flag → Prop
  | auth : Flags auth false false none
  /-- The first block was sent just now. -/
  | first (p : Position file) : Flags (block p) false false (some .dataSend)
  | block (p : Position file) : Flags (block p) true false none
  /-- The CRC was asked for just now. -/
  | check (p : Position file) (short : p.c.length < 1024) : Flags (crc p short) false false (some .commandSend)
  | crc (p : Position file) (short : p.c.length < 1024) : Flags (crc p short) false true none
  | switch (p : Position file) (short : p.c.length < 1024) : Flags (exec p short) false true (some .commandSend)
  | exec (p : Position file) (short : p.c.length < 1024) : Flags (exec p short) false true none

end Part

section
variable {p : Position file} {short : p.c.length < 1024} {data command : Bool} {pending : Option Flag}

theorem Part.Flags.of_auth (h : Part.Flags (.auth : Part file) data command pending) :
    data = false ∧ command = false ∧ pending = none := by
  cases h
  exact ⟨rfl, rfl, rfl⟩

theorem Part.Flags.of_block (h : Part.Flags (.block p) data command pending) :
    command = false ∧ (data = false ∧ pending = some .dataSend ∨ data = true ∧ pending = none) := by
  cases h with
  | first => exact ⟨rfl, .inl ⟨rfl, rfl⟩⟩
  | block => exact ⟨rfl, .inr ⟨rfl, rfl⟩⟩

theorem Part.Flags.of_crc (h : Part.Flags (.crc p short) data command pending) :
    data = false ∧ (command = false ∧ pending = some .commandSend ∨ command = true ∧ pending = none) := by
  cases h with
  | check => exact ⟨rfl, .inl ⟨rfl, rfl⟩⟩
  | crc => exact ⟨rfl, .inr ⟨rfl, rfl⟩⟩

theorem Part.Flags.of_exec (h : Part.Flags (.exec p short) data command pending) : data = false ∧ command = true := by
  cases h with
  | switch => exact ⟨rfl, rfl⟩
  | exec => exact ⟨rfl, rfl⟩

end

-- ---------------------------------------------------------------------------
-- The app
-- ---------------------------------------------------------------------------

structure Fresh (g : Gateway) : Prop where
  getVersion : g.activity.bCommandGetverison = false
  err : g.activity.bDataAckError = false
  seq : g.activity.frameSequence = 0
  finished : g.activity.bFileReadOver = false
  dataSend : g.activity.bDataSend = false
  commandSend : g.activity.bCommandSend = false
  pending : g.pending = none

structure During (iv : Iv) (part : Part file) (g : Gateway) : Prop where
  iv : g.activity.randomIv = iv
  update : g.activity.bUpdate = true
  getVersion : g.activity.bCommandGetverison = false
  err : g.activity.bDataAckError = false
  seq : g.activity.frameSequence = BitVec.ofNat 16 part.count
  finished : g.activity.bFileReadOver = part.finished
  reading : part.reading g.activity
  flags : part.Flags g.activity.bDataSend g.activity.bCommandSend g.pending

structure Unchanged (file : File) (g g' : Gateway) : Prop where
  fresh : Fresh g → Fresh g'
  during : ∀ (iv : Iv) (part : Part file), During iv part g → During iv part g'
  finished : g'.activity.bFileReadOver = g.activity.bFileReadOver

theorem Unchanged.of_queue (a : Activity) (queue queue' : List Msg) (pending : Option Flag) :
    Unchanged file ⟨a, queue, pending⟩ ⟨a, queue', pending⟩ where
  fresh h := ⟨h.getVersion, h.err, h.seq, h.finished, h.dataSend, h.commandSend, h.pending⟩
  during _ _ h := ⟨h.iv, h.update, h.getVersion, h.err, h.seq, h.finished, h.reading, h.flags⟩
  finished := rfl

theorem Unchanged.refl (g : Gateway) : Unchanged file g g := .of_queue _ _ _ _

theorem unchanged_choose {g g' : Gateway} {fs : Path → Option File}
    (h : g.step (.choose filePath fs) = some (g', effects)) : Unchanged file g g' := by
  cases step_cases h with
  | idle => exact .refl g
  | choose =>
    refine ⟨fun h => ?_, fun _ part h => ?_, rfl⟩
    · exact ⟨h.getVersion, h.err, h.seq, h.finished, h.dataSend, h.commandSend, h.pending⟩
    · refine ⟨h.iv, h.update, h.getVersion, h.err, h.seq, h.finished, ?_, h.flags⟩
      cases part with
      | block => exact h.reading
      | _ => trivial

theorem unchanged_flag {g : Gateway} (hpending : g.pending = some f) :
    Unchanged file g { g with activity := g.activity.set f, pending := none } := by
  refine ⟨fun h => absurd (hpending.symm.trans h.pending) (Option.some_ne_none _), fun _ part h => ?_, by cases f <;> rfl⟩
  have hflags := h.flags
  rw [hpending] at hflags
  generalize hd : g.activity.bDataSend = data at hflags
  generalize hc : g.activity.bCommandSend = command at hflags
  cases hflags with
  | first p =>
    refine ⟨h.iv, h.update, h.getVersion, h.err, h.seq, h.finished, h.reading, ?_⟩
    rw [Activity.set, hc]
    exact .block p
  | check p short =>
    refine ⟨h.iv, h.update, h.getVersion, h.err, h.seq, h.finished, h.reading, ?_⟩
    rw [Activity.set, hd]
    exact .crc p short
  | switch p short =>
    refine ⟨h.iv, h.update, h.getVersion, h.err, h.seq, h.finished, h.reading, ?_⟩
    rw [Activity.set, hd]
    exact .exec p short

-- ---------------------------------------------------------------------------
-- Stages
-- ---------------------------------------------------------------------------

structure OnTheWay (s : Link) (requests : List Request) (replies : List Reply) (messages : List Msg) : Prop where
  requests : s.requests = requests
  replies : s.replies = replies
  queue : s.gateway.queue.filter asks = messages

/-- Why nothing more will happen. Whether the ack of the first block may be taken
before `bDataSend` is written is open. -/
inductive Ended (file : File) (late : Prop) (past : List LinkEffect) : Prop
  | refused (iv : Iv) (r : Request) (out : Out) (answered : .answered r out ∈ past) (ret : out.ret = failure)
    (kind : ∀ c, r ≠ .command c) (sent : .authentication iv ∈ sentOf past)
  | late (h : late) (iv : Iv) (p : Position file) (sent : sentOf past = (Part.block p).sent iv)
  | empty (iv : Iv) (reads : file.reads = []) (sent : sentOf past = [.authentication iv])
  | exhausted (iv : Iv) (whole : ∀ b ∈ file.reads, b.length = 1024)
    (sent : sentOf past = .authentication iv :: dataRequests iv file.reads)
  | checked (iv : Iv) (p : Position file) (short : p.c.length < 1024) (tail : List Request)
    (sent : sentOf past = .authentication iv :: dataRequests iv p.blocks ++ .command .getCRC :: tail)
    (htail : ∀ r ∈ tail, r = .command .exeFirmware)

/-- Where the upload is. What the device holds is told if `plain`, that is, if the frames
decrypt to what went in. -/
inductive Stage (lib : GcmLib) (file : File) (late plain : Prop) (past : List LinkEffect) (s : Link) : Prop
  | idle (way : OnTheWay s [] [] []) (fresh : Fresh s.gateway) (sent : sentOf past = [])
  | asking (iv : Iv) (part : Part file) (way : OnTheWay s [part.request iv] [] [])
    (during : During iv part s.gateway) (dev : plain → part.before lib iv s.dev)
    (sent : sentOf past = part.sent iv)
  | answered (iv : Iv) (part : Part file) (out : Out) (way : OnTheWay s [] [⟨part.request iv, out⟩] [])
    (during : During iv part s.gateway) (answered : Answered (part.request iv) out)
    (mem : .answered (part.request iv) out ∈ past) (dev : out.ret = success → plain → part.after lib iv s.dev)
    (sent : sentOf past = part.sent iv)
  | taken (iv : Iv) (part : Part file) (way : OnTheWay s [] [] [part.message]) (during : During iv part s.gateway)
    (dev : plain → part.after lib iv s.dev) (sent : sentOf past = part.sent iv)
  /-- A CRC that reads as a status 0 came before `bCommandSend` was written. -/
  | reopened (way : OnTheWay s [] [] [.sendDataFrame]) (finished : s.gateway.activity.bFileReadOver = true)
    (ended : Ended file late past)
  | ended (way : OnTheWay s [] [] []) (ended : Ended file late past)

section
variable {lib : GcmLib} {late plain : Prop} {past : List LinkEffect} {s s' : Link}

theorem Ended.append (h : Ended file late past) (hsent : sentOf effects = []) : Ended file late (past ++ effects) := by
  have heq : sentOf (past ++ effects) = sentOf past := by rw [sentOf_append, hsent, List.append_nil]
  cases h with
  | refused iv r out answered ret kind sent =>
    exact .refused iv r out (List.mem_append_left _ answered) ret kind (heq ▸ sent)
  | late h iv p sent => exact .late h iv p (heq.trans sent)
  | empty iv reads sent => exact .empty iv reads (heq.trans sent)
  | exhausted iv whole sent => exact .exhausted iv whole (heq.trans sent)
  | checked iv p short tail sent htail => exact .checked iv p short tail (heq.trans sent) htail

theorem Stage.keep (h : Stage lib file late plain past s) (requests : s'.requests = s.requests)
    (replies : s'.replies = s.replies) (queue : s'.gateway.queue.filter asks = s.gateway.queue.filter asks)
    (dev : s'.dev = s.dev) (unchanged : Unchanged file s.gateway s'.gateway) (hsent : sentOf effects = []) :
    Stage lib file late plain (past ++ effects) s' := by
  have heq : sentOf (past ++ effects) = sentOf past := by rw [sentOf_append, hsent, List.append_nil]
  have way : ∀ {rs ps ms}, OnTheWay s rs ps ms → OnTheWay s' rs ps ms := fun w =>
    ⟨requests.trans w.requests, replies.trans w.replies, queue.trans w.queue⟩
  cases h with
  | idle w fresh sent => exact .idle (way w) (unchanged.fresh fresh) (heq.trans sent)
  | asking iv part w during hdev sent =>
    exact .asking iv part (way w) (unchanged.during iv part during) (dev ▸ hdev) (heq.trans sent)
  | answered iv part out w during answered mem hdev sent =>
    exact .answered iv part out (way w) (unchanged.during iv part during) answered (List.mem_append_left _ mem)
      (dev ▸ hdev) (heq.trans sent)
  | taken iv part w during hdev sent =>
    exact .taken iv part (way w) (unchanged.during iv part during) (dev ▸ hdev) (heq.trans sent)
  | reopened w finished ended => exact .reopened (way w) (unchanged.finished.trans finished) (ended.append hsent)
  | ended w ended => exact .ended (way w) (ended.append hsent)

theorem mem_part_sent (iv : Iv) (part : Part file) : .authentication iv ∈ part.sent iv := by
  cases part <;> exact List.mem_cons_self

theorem sent_block (iv : Iv) (p : Position file) : (Part.block p).sent iv =
    .authentication iv :: dataRequests iv p.full ++ [(Part.block p).request iv] := by
  rw [Part.sent, Position.blocks, dataRequests_concat]
  rfl

theorem Ended.pressed (h : Ended file late past) : ∃ iv : Iv, .authentication iv ∈ sentOf past := by
  cases h with
  | refused iv _ _ _ _ _ sent => exact ⟨iv, sent⟩
  | late _ iv p sent => exact ⟨iv, sent ▸ mem_part_sent iv (.block p)⟩
  | empty iv _ sent => exact ⟨iv, sent ▸ List.mem_cons_self⟩
  | exhausted iv _ sent => exact ⟨iv, sent ▸ List.mem_cons_self⟩
  | checked iv _ _ _ sent => exact ⟨iv, sent ▸ List.mem_cons_self⟩

theorem Stage.pressed (h : Stage lib file late plain past s) :
    (OnTheWay s [] [] [] ∧ Fresh s.gateway ∧ sentOf past = []) ∨ ∃ iv : Iv, .authentication iv ∈ sentOf past := by
  cases h with
  | idle way fresh sent => exact .inl ⟨way, fresh, sent⟩
  | asking iv part _ _ _ sent => exact .inr ⟨iv, sent ▸ mem_part_sent iv part⟩
  | answered iv part _ _ _ _ _ _ sent => exact .inr ⟨iv, sent ▸ mem_part_sent iv part⟩
  | taken iv part _ _ _ sent => exact .inr ⟨iv, sent ▸ mem_part_sent iv part⟩
  | reopened _ _ ended => exact .inr ended.pressed
  | ended _ ended => exact .inr ended.pressed

-- ---------------------------------------------------------------------------
-- The device and the acks
-- ---------------------------------------------------------------------------

theorem part_device {cipher : Cipher} (undoes : Undoes lib cipher) (env : Env) (rest : Mem) {iv : Iv}
    {part : Part file} {d : Dev} (dev : part.before lib iv d)
    (ret : (handleUpgradePacket lib env d (.ofList ((part.request iv).bytes cipher) rest)).2.ret = success) :
    part.after lib iv (handleUpgradePacket lib env d (.ofList ((part.request iv).bytes cipher) rest)).1 := by
  cases part with
  | auth => exact holds_authentication iv.2 ret
  | block p => exact Holds.data dev undoes (Activity.length_padded p.length_le) ret
  | crc p short => exact Holds.command dev env .getCRC rest
  | exec p short => exact Holds.command dev env .exeFirmware rest

theorem stage_device {cipher : Cipher} (undoes : plain → Undoes lib cipher) {env : Env} {rest : Mem}
    (h : Stage lib file late plain past s) (hs : s.step lib cipher (.device env rest) = some (s', effects)) :
    Stage lib file late plain (past ++ effects) s' := by
  rcases device_cases hs with ⟨-, rfl, rfl⟩ | ⟨r, requests, hrequests, rfl, rfl⟩
  · exact h.keep rfl rfl rfl rfl (.refl _) rfl
  · cases h with
    | asking iv part way during dev sent =>
      obtain ⟨rfl, rfl⟩ := List.cons.inj (hrequests.symm.trans way.requests)
      refine .answered iv part _ ⟨rfl, by rw [way.replies]; rfl, way.queue⟩ during (answered lib cipher env s.dev _ rest)
        (List.mem_append_right _ List.mem_cons_self) (fun ret h => part_device (undoes h) env rest (dev h) ret) ?_
      rw [sentOf_append, sent]
      exact List.append_nil _
    | idle way => exact absurd (hrequests.symm.trans way.requests) (List.cons_ne_nil _ _)
    | answered _ _ _ way => exact absurd (hrequests.symm.trans way.requests) (List.cons_ne_nil _ _)
    | taken _ _ way => exact absurd (hrequests.symm.trans way.requests) (List.cons_ne_nil _ _)
    | reopened way => exact absurd (hrequests.symm.trans way.requests) (List.cons_ne_nil _ _)
    | ended way => exact absurd (hrequests.symm.trans way.requests) (List.cons_ne_nil _ _)

theorem received_quiet {a : Activity} (data : a.bDataSend = false) (getVersion : a.bCommandGetverison = false)
    (ack : Word) : ∃ posts, a.messageReceived (generateAckFrame ack) = some (a, posts) ∧
      (posts = [] ∨ posts = [passMsg a] ∨ posts = [.transfer2NewFirmware]) := by
  rw [generateAckFrame_eq, messageReceived_ackMessage]
  simp only [acked, data, getVersion, Bool.false_eq_true, and_false, ↓reduceIte, List.nil_append, List.append_nil]
  split
  · split
    · exact ⟨_, rfl, .inr (.inl rfl)⟩
    · exact ⟨_, rfl, .inl rfl⟩
  · split
    · exact ⟨_, rfl, .inr (.inr rfl)⟩
    · exact ⟨_, rfl, .inl rfl⟩

/-- The ack of the block is taken after `bDataSend` was written. -/
def AckTimely (_ : List LinkEffect) (s : Link) : LinkEvent → Prop
  | .reply => ∀ iv b num out replies, s.replies = ⟨.data iv b num, out⟩ :: replies →
      s.gateway.activity.bDataSend = true
  | _ => True

theorem sentOf_posted (posts : List Msg) : sentOf (posts.map fun msg => .app (.posted msg)) = [] := by
  simp [sentOf, List.filterMap_map]

theorem sentOf_taken (r : Request) (out : Out) (posts : List Msg) :
    sentOf (.taken r out :: posts.map fun msg => .app (.posted msg)) = [] :=
  sentOf_posted posts

/-- An ack that has nothing asked for ends the upload. -/
theorem stage_stopped (ended : Ended file late past) {g : Gateway} {replies : List Reply} {effects : List LinkEffect}
    (requests : s.requests = []) (hreplies : replies = []) (queue : g.queue.filter asks = [])
    (hsent : sentOf effects = []) :
    Stage lib file late plain (past ++ effects) { s with gateway := g, replies := replies } :=
  .ended ⟨requests, hreplies, queue⟩ (ended.append hsent)

section
variable {iv : Iv} {p : Position file} {short : p.c.length < 1024} {out : Out} {a : Activity} {posts : List Msg}

theorem reply_auth (during : During iv (.auth : Part file) s.gateway) (answered : Answered (.authentication iv) out)
    (hr : s.gateway.activity.messageReceived (generateAckFrame out.ack) = some (a, posts)) :
    out.ret = failure ∧ posts = [] ∨
      out.ret = success ∧ a = s.gateway.activity ∧ posts = [.sendDataFrame] := by
  cases answered with
  | refused _ code hcode _ ret message =>
    obtain ⟨e, he⟩ := received_refused s.gateway.activity hcode message
    exact .inl ⟨ret, (congrArg Prod.snd (Option.some.inj (he.symm.trans hr))).symm⟩
  | passed =>
    obtain ⟨rfl, rfl⟩ := Prod.mk.inj (Option.some.inj ((received_pass s.gateway.activity).symm.trans hr))
    exact .inr ⟨rfl, rfl, by simp [passMsg, during.flags.of_auth.2.1, during.update]⟩

theorem reply_block (during : During iv (.block p) s.gateway)
    (answered : Answered (Part.request iv (.block p)) out)
    (hr : s.gateway.activity.messageReceived (generateAckFrame out.ack) = some (a, posts)) :
    out.ret = failure ∧ posts = [] ∨ out.ret = success ∧
      (s.gateway.activity.bDataSend = false ∧ posts = [] ∨
        s.gateway.activity.bDataSend = true ∧ a = s.gateway.activity ∧ posts = [.continueData]) := by
  cases answered with
  | refused _ code hcode _ ret message =>
    obtain ⟨e, he⟩ := received_refused s.gateway.activity hcode message
    exact .inl ⟨ret, (congrArg Prod.snd (Option.some.inj (he.symm.trans hr))).symm⟩
  | stored _ _ _ b2 b3 _ ret message =>
    have hvalue := received_value s.gateway.activity (by decide) message
    obtain ⟨hcommand, hdata⟩ := during.flags.of_block
    have hvalued : valued s.gateway.activity 0x04 0x00 b2 b3 = (s.gateway.activity,
        if s.gateway.activity.bDataSend then [.continueData] else []) := by
      simp [valued, during.getVersion, hcommand]
    rw [hvalued] at hvalue
    obtain ⟨rfl, rfl⟩ := Prod.mk.inj (Option.some.inj (hvalue.symm.trans hr))
    refine .inr ⟨ret, ?_⟩
    rcases hdata with ⟨hdata, -⟩ | ⟨hdata, -⟩
    · exact .inl ⟨hdata, by simp [hdata]⟩
    · exact .inr ⟨hdata, rfl, by simp [hdata]⟩

theorem reply_crc (during : During iv (.crc p short) s.gateway) (answered : Answered (.command .getCRC) out)
    (hr : s.gateway.activity.messageReceived (generateAckFrame out.ack) = some (a, posts)) :
    posts.filter asks = [] ∨ out.ret = success ∧ a = s.gateway.activity ∧
      (posts = [.transfer2NewFirmware] ∨ posts = [.sendDataFrame]) := by
  cases answered with
  | refused _ code hcode _ _ message =>
    obtain ⟨e, he⟩ := received_refused s.gateway.activity hcode message
    obtain ⟨rfl, rfl⟩ := Prod.mk.inj (Option.some.inj (he.symm.trans hr))
    exact .inl rfl
  | crc w =>
    obtain ⟨posts', hquiet, hposts⟩ := received_quiet during.flags.of_crc.1 during.getVersion (uHtonl w)
    obtain ⟨rfl, rfl⟩ := Prod.mk.inj (Option.some.inj (hquiet.symm.trans hr))
    rcases hposts with rfl | rfl | rfl
    · exact .inl rfl
    · cases hcommand : s.gateway.activity.bCommandSend with
      | true => exact .inl (by simp [passMsg, hcommand, asks])
      | false => exact .inr ⟨rfl, rfl, .inr (by simp [passMsg, hcommand, during.update])⟩
    · exact .inr ⟨rfl, rfl, .inl rfl⟩

theorem reply_exec (during : During iv (.exec p short) s.gateway) (answered : Answered (.command .exeFirmware) out)
    (hr : s.gateway.activity.messageReceived (generateAckFrame out.ack) = some (a, posts)) :
    posts.filter asks = [] := by
  cases answered with
  | refused _ code hcode _ _ message =>
    obtain ⟨e, he⟩ := received_refused s.gateway.activity hcode message
    obtain ⟨rfl, rfl⟩ := Prod.mk.inj (Option.some.inj (he.symm.trans hr))
    rfl
  | exec =>
    have hpass : s.gateway.activity.messageReceived (generateAckFrame (uHtonl commandFramePass)) =
      some (s.gateway.activity, [passMsg s.gateway.activity]) := received_pass s.gateway.activity
    obtain ⟨rfl, rfl⟩ := Prod.mk.inj (Option.some.inj (hpass.symm.trans hr))
    simp [passMsg, during.flags.of_exec.2, asks]

end

theorem stage_reply {cipher : Cipher} (h : Stage lib file late plain past s) (timely : ¬ late → AckTimely past s .reply)
    (hs : s.step lib cipher .reply = some (s', effects)) : Stage lib file late plain (past ++ effects) s' := by
  rcases reply_cases hs with ⟨-, rfl, rfl⟩ | ⟨q, replies, a, posts, hreplies, hr, rfl, rfl⟩
  · exact h.keep rfl rfl rfl rfl (.refl _) rfl
  · cases h with
    | idle way => exact absurd (hreplies.symm.trans way.replies) (List.cons_ne_nil _ _)
    | asking _ _ way => exact absurd (hreplies.symm.trans way.replies) (List.cons_ne_nil _ _)
    | taken _ _ way => exact absurd (hreplies.symm.trans way.replies) (List.cons_ne_nil _ _)
    | reopened way => exact absurd (hreplies.symm.trans way.replies) (List.cons_ne_nil _ _)
    | ended way => exact absurd (hreplies.symm.trans way.replies) (List.cons_ne_nil _ _)
    | answered iv part out way during answered mem dev sent =>
      obtain ⟨rfl, rfl⟩ := List.cons.inj (hreplies.symm.trans way.replies)
      have hqueue : ∀ posts : List Msg, (s.gateway.queue ++ posts).filter asks = posts.filter asks := by
        intro posts
        rw [List.filter_append, way.queue, List.nil_append]
      have hsent := sentOf_taken (part.request iv) out posts
      have heq : sentOf (past ++ (.taken (part.request iv) out :: posts.map fun msg => .app (.posted msg))) =
          part.sent iv := by
        rw [sentOf_append, hsent, List.append_nil, sent]
      have kept := (Unchanged.of_queue s.gateway.activity s.gateway.queue (s.gateway.queue ++ posts)
        s.gateway.pending).during iv part during
      cases part with
      | auth =>
        rcases reply_auth during answered hr with ⟨ret, rfl⟩ | ⟨ret, rfl, rfl⟩
        · exact stage_stopped (.refused iv _ out mem ret (fun c h => by cases h) (sent ▸ mem_part_sent iv .auth))
            way.requests rfl (hqueue []) hsent
        · exact .taken iv .auth ⟨way.requests, rfl, hqueue _⟩ kept (dev ret) heq
      | block p =>
        rcases reply_block during answered hr with ⟨ret, rfl⟩ | ⟨ret, ⟨hdata, rfl⟩ | ⟨-, rfl, rfl⟩⟩
        · exact stage_stopped (.refused iv _ out mem ret (fun c h => by cases h) (sent ▸ mem_part_sent iv (.block p)))
            way.requests rfl (hqueue []) hsent
        · have hlate : late := by
            by_contra hnot
            exact Bool.false_ne_true (hdata.symm.trans (timely hnot _ _ _ _ _ way.replies))
          exact stage_stopped (.late hlate iv p sent) way.requests rfl (hqueue []) hsent
        · exact .taken iv (.block p) ⟨way.requests, rfl, hqueue _⟩ kept (dev ret) heq
      | crc p short =>
        have checked : Ended file late past := .checked iv p short [] sent (fun _ h => absurd h List.not_mem_nil)
        rcases reply_crc during answered hr with hnone | ⟨ret, rfl, rfl | rfl⟩
        · exact stage_stopped checked way.requests rfl ((hqueue posts).trans hnone) hsent
        · exact .taken iv (.crc p short) ⟨way.requests, rfl, hqueue _⟩ kept (dev ret) heq
        · exact .reopened ⟨way.requests, rfl, hqueue _⟩ during.finished (checked.append hsent)
      | exec p short =>
        have checked : Ended file late past := .checked iv p short [.command .exeFirmware] (by rw [sent]; simp [Part.sent])
          (fun r h => List.mem_singleton.mp h)
        exact stage_stopped checked way.requests rfl ((hqueue posts).trans (reply_exec during answered hr)) hsent

-- ---------------------------------------------------------------------------
-- The messages
-- ---------------------------------------------------------------------------

section
variable {iv : Iv} {p : Position file} {a : Activity} {queue : List Msg} {fs : Path → Option File}

theorem handle_auth (during : During iv (.auth : Part file) ⟨a, queue, none⟩) (opens : fs a.mPath = some file)
    (hr : a.handleMessage fs .sendDataFrame = some r) : file.reads = [] ∧ sentIn r.effects = [] ∨
      ∃ q : Position file, q.full = [] ∧ sentIn r.effects = [(Part.block q).request iv] ∧
        During iv (.block q) ⟨r.activity, queue, r.flag⟩ := by
  cases hreads : file.reads with
  | nil =>
    rw [Activity.handle_sendDataFrame opens, Activity.sendBlock_nil (congrArg some hreads)] at hr
    obtain rfl := Option.some.inj hr
    exact .inl ⟨rfl, rfl⟩
  | cons c rest =>
    have hover : a.bFileReadOver = false := during.finished
    have herr : a.bDataAckError = false := during.err
    have hseq : a.frameSequence = 0 := during.seq
    have hiv : a.randomIv = iv := during.iv
    have hsize : Activity.filesize file ≠ 0 :=
      Activity.filesize_ne_zero fun h => List.cons_ne_nil _ _ (hreads.symm.trans h)
    obtain ⟨hdata, hcommand, -⟩ := during.flags.of_auth
    let q : Position file := ⟨[], c, rest, hreads, fun _ h => absurd h List.not_mem_nil⟩
    have hsent : [Request.data a.randomIv (padded c) a.frameSequence] = [(Part.block q).request iv] := by
      rw [hseq, hiv]
      rfl
    rw [Activity.handle_first opens hreads (by simp [hover, herr])] at hr
    obtain rfl := Option.some.inj hr
    refine .inr ⟨q, rfl, hsent, ?_⟩
    refine ⟨hiv, during.update, during.getVersion, herr, ?_, rfl, ⟨rfl, hsize⟩, ?_⟩
    · rw [hseq]
      rfl
    · rw [hdata, hcommand]
      exact .first q

theorem handle_block (during : During iv (.block p) ⟨a, queue, none⟩)
    (hr : a.handleMessage fs .continueData = some r) :
    (p.rest = [] ∧ p.c.length = 1024 ∧ sentIn r.effects = []) ∨
    (∃ short, sentIn r.effects = [.command .getCRC] ∧ During iv (.crc p short) ⟨r.activity, queue, r.flag⟩) ∨
    ∃ q : Position file, q.full = p.blocks ∧ sentIn r.effects = [(Part.block q).request iv] ∧
      During iv (.block q) ⟨r.activity, queue, r.flag⟩ := by
  obtain ⟨hfis, hsize⟩ := during.reading
  have herr : a.bDataAckError = false := during.err
  have hiv : a.randomIv = iv := during.iv
  have hseq : a.frameSequence = BitVec.ofNat 16 (p.full.length + 1) := during.seq
  have hfinished : a.bFileReadOver = decide (p.c.length < 1024) := during.finished
  have hflags := during.flags.of_block
  have hcommand : a.bCommandSend = false := hflags.1
  by_cases short : p.c.length < 1024
  · have hover : a.bFileReadOver = true := hfinished.trans (decide_eq_true short)
    rw [Activity.handle_over hsize hover herr] at hr
    obtain rfl := Option.some.inj hr
    refine .inr (.inl ⟨short, rfl, ?_⟩)
    refine ⟨hiv, during.update, during.getVersion, herr, hseq, hover, trivial, ?_⟩
    rw [hcommand]
    exact .check p short
  · have hover : a.bFileReadOver = false := hfinished.trans (decide_eq_false short)
    have hfull : p.c.length = 1024 := Nat.le_antisymm p.length_le (Nat.not_lt.mp short)
    have hdata : a.bDataSend = true := by
      rcases hflags.2 with ⟨-, hpending⟩ | ⟨hdata, -⟩
      · exact absurd hpending.symm (Option.some_ne_none _)
      · exact hdata
    rw [Activity.handle_continueData hsize hover] at hr
    cases hrest : p.rest with
    | nil =>
      rw [Activity.sendBlock_nil (hfis.trans (congrArg some hrest))] at hr
      obtain rfl := Option.some.inj hr
      exact .inl ⟨rfl, hfull, rfl⟩
    | cons d rest =>
      have hblock : padded p.c = p.c := by simp [padded, hfull]
      have hreads : file.reads = p.blocks ++ d :: rest := by
        rw [Position.blocks, hblock, List.append_assoc, p.reads, hrest]
        rfl
      let q : Position file := ⟨p.blocks, d, rest, hreads, p.length_block⟩
      have hcount : p.blocks.length = p.full.length + 1 := by simp [Position.blocks]
      have hsent : [Request.data a.randomIv (padded d) a.frameSequence] = [(Part.block q).request iv] := by
        rw [hseq, hiv, ← hcount]
        rfl
      have hnext : a.frameSequence + 1 = BitVec.ofNat 16 (Part.block q).count := by
        rw [hseq, ← hcount]
        exact (BitVec.ofNat_add _ 1).symm
      rw [Activity.sendBlock_sends (hfis.trans (congrArg some hrest)) (by simp [hover, herr])] at hr
      obtain rfl := Option.some.inj hr
      refine .inr (.inr ⟨q, rfl, hsent, ?_⟩)
      refine ⟨hiv, during.update, during.getVersion, herr, hnext, rfl, ⟨rfl, hsize⟩, ?_⟩
      rw [hdata, hcommand]
      exact .block q

theorem handle_reopened (finished : a.bFileReadOver = true) (opens : fs a.mPath = some file)
    (hr : a.handleMessage fs .sendDataFrame = some r) : sentIn r.effects = [] := by
  rw [Activity.handle_sendDataFrame opens] at hr
  obtain rfl := Option.some.inj hr
  cases hreads : file.reads with
  | nil =>
    rw [Activity.sendBlock_nil rfl]
    rfl
  | cons c rest =>
    rw [Activity.sendBlock_stopped rfl (by simp [finished])]
    rfl

theorem handle_crc {short : p.c.length < 1024} (during : During iv (.crc p short) ⟨a, queue, none⟩)
    (hr : a.handleMessage fs .transfer2NewFirmware = some r) :
    sentIn r.effects = [.command .exeFirmware] ∧ During iv (.exec p short) ⟨r.activity, queue, r.flag⟩ := by
  obtain rfl := Option.some.inj hr
  obtain ⟨hdata, ⟨-, hpending⟩ | ⟨hcommand, -⟩⟩ := during.flags.of_crc
  · exact absurd hpending.symm (Option.some_ne_none _)
  refine ⟨rfl, during.iv, during.update, during.getVersion, during.err, during.seq, during.finished, trivial, ?_⟩
  rw [hdata, hcommand]
  exact .switch p short

end

theorem stage_handle {fs : Path → Option File} (h : Stage lib file late plain past s) (opens : ∀ path, fs path = some file)
    (hs : s.app (.handle fs) = some (s', effects)) : Stage lib file late plain (past ++ effects) s' := by
  obtain ⟨g, ge, hg, rfl, rfl⟩ := link_app hs
  cases step_cases hg with
  | idle => exact h.keep (List.append_nil _) rfl rfl rfl (.refl _) rfl
  | handle _ msg queue r hpending hqueue hr =>
    cases hasks : asks msg with
    | false =>
      obtain rfl := handled_idle hasks hr
      have kept : Unchanged file s.gateway ⟨s.gateway.activity, queue, none⟩ := by
        rw [← hpending]
        exact .of_queue s.gateway.activity s.gateway.queue queue s.gateway.pending
      refine h.keep (List.append_nil _) rfl ?_ rfl kept rfl
      rw [hqueue, List.filter_cons_of_neg (by simp [hasks])]
    | true =>
      have hfilter : s.gateway.queue.filter asks = msg :: queue.filter asks := by
        rw [hqueue, List.filter_cons_of_pos hasks]
      have hsent : ∀ {rs}, sentIn r.effects = rs → sentOf (past ++ r.effects.map .app) = sentOf past ++ rs := by
        rintro _ rfl
        rw [sentOf_append, sentOf_app]
      cases h with
      | idle way => exact absurd (hfilter.symm.trans way.queue) (List.cons_ne_nil _ _)
      | asking _ _ way => exact absurd (hfilter.symm.trans way.queue) (List.cons_ne_nil _ _)
      | answered _ _ _ way => exact absurd (hfilter.symm.trans way.queue) (List.cons_ne_nil _ _)
      | ended way => exact absurd (hfilter.symm.trans way.queue) (List.cons_ne_nil _ _)
      | reopened way finished ended =>
        obtain ⟨rfl, hrest⟩ := List.cons.inj (hfilter.symm.trans way.queue)
        have hnone : sentIn r.effects = [] := handle_reopened finished (opens _) hr
        exact .ended ⟨by rw [way.requests, hnone]; rfl, way.replies, hrest⟩
          (ended.append ((sentOf_app _).trans hnone))
      | taken iv part way during dev sent =>
        obtain ⟨rfl, hrest⟩ := List.cons.inj (hfilter.symm.trans way.queue)
        have here : During iv part ⟨s.gateway.activity, queue, none⟩ := by
          rw [← hpending]
          exact (Unchanged.of_queue s.gateway.activity s.gateway.queue queue s.gateway.pending).during iv part during
        have requests : ∀ {rs}, sentIn r.effects = rs → s.requests ++ sentIn r.effects = rs := by
          rintro _ rfl
          rw [way.requests, List.nil_append]
        cases part with
        | auth =>
          rcases handle_auth here (opens _) hr with ⟨hreads, hnone⟩ | ⟨q, hq, hone, during⟩
          · exact .ended ⟨requests hnone, way.replies, hrest⟩
              ((Ended.empty iv hreads sent).append ((sentOf_app _).trans hnone))
          · refine .asking iv (.block q) ⟨requests hone, way.replies, hrest⟩ during ?_ ?_
            · rw [Part.before, hq]
              exact dev
            · rw [hsent hone, sent, sent_block iv q, hq]
              rfl
        | block p =>
          rcases handle_block here hr with ⟨hp, hfull, hnone⟩ | ⟨short, hone, during⟩ | ⟨q, hq, hone, during⟩
          · have hblocks : p.blocks = file.reads := by
              rw [p.reads, hp, Position.blocks, padded, hfull, Nat.sub_self, List.replicate_zero, List.append_nil]
            have exhausted : Ended file late past :=
              .exhausted iv (hblocks ▸ p.length_block) (hblocks ▸ sent)
            exact .ended ⟨requests hnone, way.replies, hrest⟩ (exhausted.append ((sentOf_app _).trans hnone))
          · refine .asking iv (.crc p short) ⟨requests hone, way.replies, hrest⟩ during dev ?_
            rw [hsent hone, sent]
            rfl
          · refine .asking iv (.block q) ⟨requests hone, way.replies, hrest⟩ during ?_ ?_
            · rw [Part.before, hq]
              exact dev
            · rw [hsent hone, sent, sent_block iv q, hq]
              rfl
        | crc p short =>
          obtain ⟨hone, during⟩ := handle_crc here hr
          refine .asking iv (.exec p short) ⟨requests hone, way.replies, hrest⟩ during dev ?_
          rw [hsent hone, sent, Part.sent, Part.sent, List.append_assoc]
          rfl
        | exec => exact absurd hasks Bool.false_ne_true

-- ---------------------------------------------------------------------------
-- Steps
-- ---------------------------------------------------------------------------

/-- Update is pressed once, Check is not, and it is this file that is read. -/
def OneUpdate (file : File) (past : List LinkEffect) (_ : Link) : LinkEvent → Prop
  | .update _ => ∀ iv, .authentication iv ∉ sentOf past
  | .check _ => False
  | .handle fs => ∀ path, fs path = some file
  | _ => True

def Unpressed (file : File) : LinkEvent → Prop
  | .update _ | .check _ => False
  | .handle fs => ∀ path, fs path = some file
  | _ => True

theorem oneUpdate_unpressed {cipher : Cipher} (h : ∀ e ∈ events, Unpressed file e) :
    (link lib cipher).Meets (OneUpdate file) past s events := by
  induction events generalizing past s with
  | nil => trivial
  | cons e events ih =>
    refine ⟨?_, fun _ _ _ => ih fun e' he' => h e' (List.mem_cons_of_mem _ he')⟩
    have he := h e List.mem_cons_self
    cases e with
    | update => exact he.elim
    | check => exact he
    | handle fs => exact he
    | _ => trivial

theorem oneUpdate_chosen {cipher : Cipher} {filePath : Path} {fs : Path → Option File} {iv : Iv}
    (h : ∀ e ∈ events, Unpressed file e) :
    (link lib cipher).Meets (OneUpdate file) [] s (.choose filePath fs :: .update iv :: events) := by
  refine ⟨trivial, fun s' effects hs => ⟨fun iv hmem => ?_, fun _ _ _ => oneUpdate_unpressed h⟩⟩
  obtain ⟨g, ge, hg, -, rfl⟩ := link_app hs
  have hnone : sentOf ([] ++ ge.map .app) = [] := (sentOf_app ge).trans (chosen hg).2.2
  rw [hnone] at hmem
  exact List.not_mem_nil hmem

theorem stage_update {iv : Iv} (h : Stage lib file late plain past s) (once : ∀ iv, .authentication iv ∉ sentOf past)
    (hs : s.app (.update iv) = some (s', effects)) : Stage lib file late plain (past ++ effects) s' := by
  obtain ⟨way, fresh, sent⟩ := h.pressed.resolve_right fun ⟨iv, hmem⟩ => once iv hmem
  obtain ⟨g, ge, hg, rfl, rfl⟩ := link_app hs
  cases step_cases hg with
  | idle => exact h.keep (List.append_nil _) rfl rfl rfl (.refl _) rfl
  | update =>
    refine .asking iv .auth ⟨by rw [way.requests]; rfl, way.replies, way.queue⟩ ?_ (fun _ => trivial) ?_
    · refine ⟨rfl, rfl, fresh.getVersion, fresh.err, fresh.seq, fresh.finished, trivial, ?_⟩
      show Part.Flags .auth s.gateway.activity.bDataSend s.gateway.activity.bCommandSend s.gateway.pending
      rw [fresh.dataSend, fresh.commandSend, fresh.pending]
      exact .auth
    · rw [sentOf_append, sentOf_app, sent]
      rfl

theorem stage_timeout (h : Stage lib file late plain past s) (hs : s.app (.received timeoutMessage) = some (s', effects)) :
    Stage lib file late plain (past ++ effects) s' := by
  obtain ⟨posts, hposts, rfl, rfl⟩ := timeout_cases hs
  refine h.keep rfl rfl ?_ rfl (.of_queue _ _ _ _) (sentOf_posted posts)
  rw [List.filter_append, hposts, List.append_nil]

/-- A step keeps the stage, or leads to the next one. -/
theorem stage_step {cipher : Cipher} (undoes : plain → Undoes lib cipher) (h : Stage lib file late plain past s)
    (one : OneUpdate file past s e) (timely : ¬ late → AckTimely past s e)
    (hs : s.step lib cipher e = some (s', effects)) : Stage lib file late plain (past ++ effects) s' := by
  cases e with
  | update iv => exact stage_update h one hs
  | check iv => exact one.elim
  | choose filePath fs =>
    obtain ⟨g, ge, hg, rfl, rfl⟩ := link_app hs
    obtain ⟨-, hqueue, hsent⟩ := chosen hg
    exact h.keep (by rw [hsent, List.append_nil]) rfl (by rw [hqueue]) rfl (unchanged_choose hg)
      ((sentOf_app ge).trans hsent)
  | handle fs => exact stage_handle h one hs
  | flag =>
    obtain ⟨g, ge, hg, rfl, rfl⟩ := link_app hs
    cases step_cases hg with
    | idle => exact h.keep (List.append_nil _) rfl rfl rfl (.refl _) rfl
    | flag f pending => exact h.keep (List.append_nil _) rfl rfl rfl (unchanged_flag pending) rfl
  | timeout => exact stage_timeout h hs
  | device env rest => exact stage_device undoes h hs
  | reply => exact stage_reply h timely hs

theorem stage_start (d : Dev) : Stage lib file late plain [] ⟨.onCreate, [], [], d⟩ :=
  .idle ⟨rfl, rfl, rfl⟩ ⟨rfl, rfl, rfl, rfl, rfl, rfl, rfl⟩ rfl

end

end

-- ---------------------------------------------------------------------------
-- Files of one block
-- ---------------------------------------------------------------------------

theorem link_data {s : Link} {iv block : List Byte} (lib : GcmLib) (cipher : Cipher) (h : Uploading iv k s.dev)
    (hblock : block.length = 1024) (hk : k ≤ 1023)
    (hrequests : s.requests = .data iv block (BitVec.ofNat 16 k) :: requests) : ∃ d out b2 b3,
    s.step lib cipher (.device sampleEnv fun _ => 0) = some ({ s with
        dev := d
        requests := requests
        replies := s.replies ++ [⟨.data iv block (BitVec.ofNat 16 k), out⟩] },
      [.answered (.data iv block (BitVec.ofNat 16 k)) out]) ∧
    Uploading iv (k + 1) d ∧ out.ret = success ∧ generateAckFrame out.ack = ackMessage 0x04 0x00 b2 b3 := by
  obtain ⟨d, out, hturn, ret, hd⟩ := uploading_next lib cipher h hblock hk
  have hhandle : handleUpgradePacket lib sampleEnv s.dev
      (.ofList (Request.bytes cipher (.data iv block (BitVec.ofNat 16 k))) fun _ => 0) = (d, out) :=
    Prod.ext (congrArg Turn.post hturn) (congrArg Turn.out hturn)
  have hanswered := answered lib cipher sampleEnv s.dev (.data iv block (BitVec.ofNat 16 k)) fun _ => 0
  rw [hhandle] at hanswered
  cases hanswered with
  | refused _ _ _ _ hret => exact absurd (hret.symm.trans ret) (by decide)
  | stored _ _ _ b2 b3 _ _ message =>
    exact ⟨d, out, b2, b3, link_device sampleEnv _ lib cipher hrequests hhandle, hd, ret, message⟩

/-- The file is chosen and Update pressed, and everything works until the ack of the first block is taken. -/
def firstBlock (fs : Path → Option File) : List LinkEvent :=
  [.choose "" fs, .update ⟨sampleIv, sampleIv_length⟩, .device sampleEnv fun _ => 0, .reply, .handle fs, .flag,
    .device sampleEnv fun _ => 0, .reply]

def blockTaken (file : File) (c : List Byte) : Activity := { Activity.onCreate with
  bFileFormat := true
  bUpdate := true
  randomIv := sampleIv
  mFilesize := Activity.filesize file
  fis := some []
  bFileReadOver := decide (c.length < 1024)
  frameSequence := 1
  baos := padded c
  bDataSend := true }

def updatePressed : Activity := { Activity.onCreate with bFileFormat := true, bUpdate := true, randomIv := sampleIv }

theorem run_pressed {file : File} (marked : file.marked = true) : ∃ d,
    (link gcmMemory aesGcmNoPadding).run started ((firstBlock fun _ => some file).take 3) =
      some (⟨⟨updatePressed, [], none⟩, [], [⟨.authentication sampleIv, ⟨success, uHtonl authenticatedPass, []⟩⟩], d⟩,
        [.app (.checked "" true), .app (.sent (.authentication sampleIv)),
          .answered (.authentication sampleIv) ⟨success, uHtonl authenticatedPass, []⟩]) ∧
    Uploading sampleIv 0 d := by
  let fs : Path → Option File := fun _ => some file
  have hidx : (boot 0 blankFlash).cryptoIdx ≠ -1 := by decide
  let a : Activity := { Activity.onCreate with bFileFormat := true }
  have h1 : Link.step gcmMemory aesGcmNoPadding started (.choose "" fs) =
      some (⟨⟨a, [], none⟩, [], [], boot 0 blankFlash⟩, [.app (.checked "" true)]) :=
    link_choose gcmMemory aesGcmNoPadding rfl rfl marked
  have h2 : Link.step gcmMemory aesGcmNoPadding ⟨⟨a, [], none⟩, [], [], boot 0 blankFlash⟩
      (.update ⟨sampleIv, rfl⟩) = some (⟨⟨updatePressed, [], none⟩, [.authentication sampleIv], [], boot 0 blankFlash⟩,
        [.app (.sent (.authentication sampleIv))]) := rfl
  obtain ⟨p, g, h3⟩ := link_authentication
    (s := ⟨⟨updatePressed, [], none⟩, [.authentication sampleIv], [], boot 0 blankFlash⟩) sampleEnv (fun _ => 0)
    aesGcm_sameTag ⟨sampleIv, rfl⟩ hidx rfl rfl
  have hstart : Uploading sampleIv 0 (upgradeStart { (boot 0 blankFlash).scratch p g with cryptoIv := sampleIv }) :=
    ⟨rfl, rfl, hidx, rfl, rfl, fun h => absurd rfl h⟩
  have hrun : (link gcmMemory aesGcmNoPadding).run started [.choose "" fs, .update ⟨sampleIv, rfl⟩,
      .device sampleEnv fun _ => 0] = _ := Faulting.run_cons h1 (Faulting.run_cons h2 (Faulting.run_cons h3 rfl))
  exact ⟨_, hrun, hstart⟩

theorem run_firstBlock {file : File} (marked : file.marked = true) (hreads : file.reads = [c]) : ∃ d effects,
    (link gcmMemory aesGcmNoPadding).run started (firstBlock fun _ => some file) =
      some (⟨⟨blockTaken file c, [.continueData], none⟩, [], [], d⟩, effects) ∧
    d.isAuthenticated = true ∧ d.cryptoIdx ≠ -1 ∧
    sentOf effects = [.authentication sampleIv, .data sampleIv (padded c) 0] ∧
    ∀ r out, .answered r out ∈ effects → out.ret = success := by
  let fs : Path → Option File := fun _ => some file
  obtain ⟨d, hrun, hstart⟩ := run_pressed marked
  have h4 := link_taken (s := ⟨⟨updatePressed, [], none⟩, [], [⟨.authentication sampleIv,
    ⟨success, uHtonl authenticatedPass, []⟩⟩], d⟩) gcmMemory aesGcmNoPadding rfl (received_pass updatePressed)
  have hfirst : updatePressed.handleMessage fs .sendDataFrame = _ := Activity.handle_first rfl hreads rfl
  have h5 := link_handle (s := ⟨⟨updatePressed, [.sendDataFrame], none⟩, [], [], d⟩) gcmMemory aesGcmNoPadding rfl rfl hfirst
  let a : Activity := { updatePressed with
    mFilesize := Activity.filesize file
    fis := some []
    bFileReadOver := decide (c.length < 1024)
    frameSequence := updatePressed.frameSequence + 1
    baos := padded c }
  have h6 : Link.step gcmMemory aesGcmNoPadding ⟨⟨a, [], some .dataSend⟩, [.data sampleIv (padded c) 0], [], d⟩
      .flag = some (⟨⟨blockTaken file c, [], none⟩, [.data sampleIv (padded c) 0], [], d⟩, []) := rfl
  have hlen : (padded c).length = 1024 :=
    Activity.length_padded (file.bounded c (hreads ▸ List.mem_cons_self)).2
  obtain ⟨d', out, b2, b3, h7, hd', ret, message⟩ := link_data (s := ⟨⟨blockTaken file c, [], none⟩,
    [.data sampleIv (padded c) 0], [], d⟩) gcmMemory aesGcmNoPadding hstart hlen (by decide) rfl
  have hreceived : (blockTaken file c).messageReceived (generateAckFrame out.ack) =
      some (blockTaken file c, [.continueData]) := by
    rw [received_value (blockTaken file c) (by decide) message]
    rfl
  have h8 := link_taken (s := ⟨⟨blockTaken file c, [], none⟩, [], [⟨.data sampleIv (padded c) 0, out⟩], d'⟩)
    gcmMemory aesGcmNoPadding rfl hreceived
  refine ⟨d', _, Faulting.run_append hrun (Faulting.run_cons h4 (Faulting.run_cons h5 (Faulting.run_cons h6
    (Faulting.run_cons h7 (Faulting.run_cons h8 rfl))))), hd'.auth, hd'.idx, rfl, ?_⟩
  intro r out' hmem
  simp at hmem
  rcases hmem with ⟨-, rfl⟩ | ⟨-, rfl⟩
  · rfl
  · exact ret

def markedBlock : List Byte := List.replicate 28 0 ++ [0x41, 0x54]

def markedFile : File where
  reads := [markedBlock]
  bounded := by
    intro c hc
    obtain rfl := List.mem_singleton.mp hc
    exact ⟨by decide, by decide⟩

def markedFs : Path → Option File := fun _ => some markedFile

theorem markedFile_marked : markedFile.marked = true := by decide

end EthernetOta.System
