import EthernetOta.Lib.Rounds
import EthernetOta.System.Complete

/-!
# Uploads get to their end

The upload of a file that ends with a short read, to a device whose flash and AES
work. While every flag is written before the ack that is read by it is taken, no frame
is refused, and all that can hold the upload up is that one of the four that act in
it has no turn: the device, the reading thread, and the user interface with the next
message or the next flag. How much is left to do is a number that each turn lowers,
and a timeout, which posts one more message, can add one to.
-/

namespace EthernetOta.System

open Firmware App
open Activity (padded)

-- ---------------------------------------------------------------------------
-- The device
-- ---------------------------------------------------------------------------

/-- Flash and AES do what they are told. -/
structure Works (env : Env) : Prop where
  gcm : env.gcmErr = 0
  flash : ∀ c, env.flash c = .done

/-- `upgrade_init` has registered AES and set up the CRC table. -/
structure SetUp (d : Dev) : Prop where
  table : d.crc32Table = initCrc32Table
  idx : d.cryptoIdx ≠ -1

structure Loaded (lib : GcmLib) (iv : List Byte) (blocks : List (List Byte)) (d : Dev) : Prop extends SetUp d where
  auth : d.isAuthenticated = true
  session : ∃ frames, Image lib ⟨iv, frames⟩ d ∧ Measured ⟨iv, frames⟩ d ∧
    (∀ b ∈ frames, (frameLen b).toNat = 1024) ∧ frames.map (framePlain lib iv) = blocks

section
variable {lib : GcmLib} {cipher : Cipher} {env : Env} {d : Dev} {iv : List Byte} {blocks : List (List Byte)}

theorem Loaded.holds (h : Loaded lib iv blocks d) : Holds lib iv blocks d := by
  obtain ⟨frames, image, -, -, hblocks⟩ := h.session
  exact ⟨h.auth, frames, image, hblocks⟩

theorem loaded_authentication (tag : SameTag lib cipher) (works : Works env) (set : SetUp d) (hiv : iv.length = 16)
    (rest : Mem) :
    ∃ d', handleUpgradePacket lib env d (.ofList (Request.bytes cipher (.authentication iv)) rest) =
      (d', ⟨success, uHtonl authenticatedPass, []⟩) ∧ Loaded lib iv [] d' := by
  obtain ⟨p, g, h⟩ := handle_authenticationFrame lib env rest hiv set.idx works.gcm
  rw [tag iv] at h
  refine ⟨_, h, ⟨set.table, set.idx⟩, rfl, [], ?_, ⟨rfl, Nat.zero_le _⟩, fun _ hb => absurd hb List.not_mem_nil, rfl⟩
  exact ⟨rfl, rfl, rfl, fun _ hb => absurd hb List.not_mem_nil, fun _ hi => absurd hi (Nat.not_lt_zero _),
    fun hi => absurd (Nat.zero_mod _) hi⟩

theorem Loaded.data {block : List Byte} (h : Loaded lib iv blocks d) (undoes : Undoes lib cipher) (works : Works env)
    (hblock : block.length = 1024) (room : blocks.length ≤ maxSeqNum) (rest : Mem) : ∃ d' out,
    handleUpgradePacket lib env d
      (.ofList (Request.bytes cipher (.data iv block (BitVec.ofNat 16 blocks.length))) rest) = (d', out) ∧
      out.ret = success ∧ Loaded lib iv (blocks ++ [block]) d' := by
  obtain ⟨frames, image, measured, full, hblocks⟩ := h.session
  have hcount : frames.length = blocks.length := by rw [← hblocks, List.length_map]
  have hmax : maxSeqNum = 1023 := rfl
  have hnum : (BitVec.ofNat 16 blocks.length).toNat = blocks.length := by rw [BitVec.toNat_ofNat]; omega
  have hnext : d.prePktSeq + 1 = ((BitVec.ofNat 16 blocks.length).toNat : Int) := by
    rw [hnum, ← hcount]
    exact image.seq
  have writes := dataFrame_writes env (BitVec.ofNat 16 blocks.length)
    (length_take_encrypt cipher hblock App.cryptoKey iv) rest h.auth h.table (by rw [hnum]; exact room) hnext h.idx
    works.gcm
  have hseq := image.next writes.toNext
  obtain ⟨w, p, g, effects, appended, hhandle⟩ := handle_stored lib writes works.flash (image.room writes.toNext)
  rw [hseq] at appended
  refine ⟨_, _, hhandle, rfl, ⟨h.table, h.idx⟩, h.auth, frames ++ [_],
    image.store writes hseq rfl rfl appended, measured.store image writes rfl, ?_, ?_⟩
  · intro b hb
    rcases List.mem_append.mp hb with hb | hb
    · exact full b hb
    · rw [List.mem_singleton.mp hb, dataFrame_len]
      rfl
  · rw [List.map_append, hblocks, List.map_singleton]
    exact congrArg (fun b => blocks ++ [b]) (generateDataFrame_plain _ undoes hblock iv rest)

theorem Loaded.crc (h : Loaded lib iv blocks d) (room : blocks.length ≤ maxSeqNum) :
    flashCrc d = Crc.crc32 blocks.flatten := by
  obtain ⟨frames, image, measured, full, rfl⟩ := h.session
  have hroom : frames.length < 1024 := by
    rw [List.length_map] at room
    exact Nat.lt_succ_of_le room
  exact (flashCrc_full h.table image measured full).trans (if_pos hroom)

theorem Loaded.exec (h : Loaded lib iv blocks d) (now : Word) :
    Loaded lib iv blocks (switchingTimerStart codeSwitchingInterval .codeSwitching now d) := by
  obtain ⟨frames, image, measured, full, hblocks⟩ := h.session
  exact ⟨⟨h.table, h.idx⟩, h.auth, frames, image.congr rfl rfl rfl, ⟨measured.fileLen, measured.count⟩, full, hblocks⟩

end

-- ---------------------------------------------------------------------------
-- The parts of an upload
-- ---------------------------------------------------------------------------

section
variable {file : File}

def Part.loaded (lib : GcmLib) (iv : Iv) : Part file → Dev → Prop
  | auth, d => SetUp d
  | block q, d => Loaded lib iv q.full d
  | crc q _, d | exec q _, d => Loaded lib iv q.blocks d

def Part.stored (lib : GcmLib) (iv : Iv) : Part file → Dev → Prop
  | auth, d => Loaded lib iv [] d
  | block q, d | crc q _, d | exec q _, d => Loaded lib iv q.blocks d

def Part.summed : Part file → Activity → Prop
  | block q, a => a.baos = q.blocks.flatten
  | crc q _, a => a.mFileCRC = Crc.crc32 q.blocks.flatten
  | _, _ => True

def Part.accepted : Part file → Out → Prop
  | auth, out => out = ⟨success, uHtonl authenticatedPass, []⟩
  | block _, out => out.ret = success
  | crc q _, out => out = ⟨success, uHtonl (Crc.crc32 q.blocks.flatten), []⟩
  | exec _ _, out => out = ⟨success, uHtonl commandFramePass, [.switchingTimerStart]⟩

def Part.left (n : Nat) : Part file → Nat
  | auth => n + 2
  | block q => n + 1 - q.full.length
  | crc _ _ => 1
  | exec _ _ => 0

theorem Position.le_short (p q : Position file) (short : p.c.length < 1024) : q.full.length ≤ p.full.length := by
  by_contra hlt
  have hget : file.reads[p.full.length]? = some p.c := by rw [p.reads]; simp
  have hq : file.reads[p.full.length]? = q.full[p.full.length]? := by
    rw [q.reads, List.getElem?_append_left (by omega)]
  have hmem : p.c ∈ q.full := List.mem_of_getElem? (hq ▸ hget)
  exact absurd (q.whole p.c hmem) (Nat.ne_of_lt short)

theorem Position.length_blocks (p : Position file) : p.blocks.length = p.full.length + 1 := by
  simp [Position.blocks]

theorem Position.rest_ne_nil (p q : Position file) (short : p.c.length < 1024) (whole : q.c.length = 1024) : q.rest ≠ [] := by
  intro hrest
  have hall : ∀ b ∈ file.reads, b.length = 1024 := by
    intro b hb
    rw [q.reads, hrest] at hb
    rcases List.mem_append.mp hb with hb | hb
    · exact q.whole b hb
    · exact List.mem_singleton.mp hb ▸ whole
  have hmem : p.c ∈ file.reads := by
    rw [p.reads]
    exact List.mem_append_right _ List.mem_cons_self
  exact absurd (hall p.c hmem) (Nat.ne_of_lt short)

-- ---------------------------------------------------------------------------
-- Where an upload is that nothing has gone wrong with
-- ---------------------------------------------------------------------------

/-- All blocks are stored, the switch was acknowledged, and the app has reported it. -/
structure Updated (lib : GcmLib) (blocks : List (List Byte)) (past : List LinkEffect) (s : Link) : Prop where
  way : OnTheWay s [] [] []
  reported : .app (.posted .updateOver) ∈ past
  stored : ∃ iv, Loaded lib iv blocks s.dev
  switching : ∃ now d, s.dev = switchingTimerStart codeSwitchingInterval .codeSwitching now d

inductive Track (lib : GcmLib) (p : Position file) (past : List LinkEffect) (s : Link) : Nat → Prop
  | asking (iv : Iv) (part : Part file) (way : OnTheWay s [part.request iv] [] [])
    (during : During iv part s.gateway) (summed : part.summed s.gateway.activity)
    (dev : part.loaded lib iv s.dev) : Track lib p past s (3 * part.left p.blocks.length + 3)
  | answered (iv : Iv) (part : Part file) (out : Out) (way : OnTheWay s [] [⟨part.request iv, out⟩] [])
    (during : During iv part s.gateway) (summed : part.summed s.gateway.activity) (answered : Answered (part.request iv) out)
    (accepted : part.accepted out) (switching : ∀ q short, part = .exec q short →
      ∃ now d, s.dev = switchingTimerStart codeSwitchingInterval .codeSwitching now d)
    (dev : part.stored lib iv s.dev) : Track lib p past s (3 * part.left p.blocks.length + 2)
  | taken (iv : Iv) (part : Part file) (more : part.left p.blocks.length ≠ 0) (way : OnTheWay s [] [] [part.message])
    (during : During iv part s.gateway) (summed : part.summed s.gateway.activity)
    (dev : part.stored lib iv s.dev) : Track lib p past s (3 * part.left p.blocks.length + 1)
  | reached (updated : Updated lib p.blocks past s) : Track lib p past s 0

-- ---------------------------------------------------------------------------
-- Turns
-- ---------------------------------------------------------------------------

inductive Actor
  | device
  | reply
  | handle
  | flag

def actor : LinkEvent → Option Actor
  | .device .. => some .device
  | .reply => some .reply
  | .handle _ => some .handle
  | .flag => some .flag
  | _ => none

def Busy (s : Link) : Actor → Prop
  | .device => s.requests ≠ []
  | .reply => s.replies ≠ []
  | .handle => s.gateway.pending = none ∧ s.gateway.queue ≠ []
  | .flag => s.gateway.pending ≠ none

/-- No button is pressed, everything works, and a flag is written before the ack that is
read by it is taken. -/
def Steady (file : File) (_ : List LinkEffect) (s : Link) : LinkEvent → Prop
  | .update _ | .check _ => False
  | .handle fs => ∀ path, fs path = some file
  | .device env _ => Works env
  | .reply => ∀ r replies, s.replies = r :: replies → ∀ f, readBy r.request = some f → isSet s.gateway.activity f = true
  | _ => True

/-- What there is to do, counting a flag and every message that waits. -/
def weight (s : Link) (n : Nat) : Nat :=
  4 * n + (if s.gateway.pending = none then 0 else 1) + s.gateway.queue.length

def adds : LinkEvent → Nat
  | .timeout => 1
  | _ => 0

section
variable {lib : GcmLib} {cipher : Cipher} {p : Position file} {past : List LinkEffect} {s s' : Link} {n : Nat}

structure Same (file : File) (s s' : Link) : Prop where
  requests : s'.requests = s.requests
  replies : s'.replies = s.replies
  queue : s'.gateway.queue.filter asks = s.gateway.queue.filter asks
  dev : s'.dev = s.dev
  unchanged : Unchanged file s.gateway s'.gateway
  baos : s'.gateway.activity.baos = s.gateway.activity.baos
  mFileCRC : s'.gateway.activity.mFileCRC = s.gateway.activity.mFileCRC

theorem Same.way (h : Same file s s') (way : OnTheWay s rs ps ms) : OnTheWay s' rs ps ms :=
  ⟨h.requests.trans way.requests, h.replies.trans way.replies, h.queue.trans way.queue⟩

theorem Updated.keep (h : Updated lib blocks past s) (same : Same file s s') (effects : List LinkEffect) :
    Updated lib blocks (past ++ effects) s' where
  way := same.way h.way
  reported := List.mem_append_left _ h.reported
  stored := same.dev ▸ h.stored
  switching := same.dev ▸ h.switching

theorem Track.keep (h : Track lib p past s n) (same : Same file s s') (effects : List LinkEffect) :
    Track lib p (past ++ effects) s' n := by
  have hsummed : ∀ part : Part file, part.summed s.gateway.activity → part.summed s'.gateway.activity := by
    intro part hsummed
    cases part with
    | auth => trivial
    | block q => exact same.baos.trans hsummed
    | crc q short => exact same.mFileCRC.trans hsummed
    | exec => trivial
  cases h with
  | asking iv part way during summed dev =>
    exact .asking iv part (same.way way) (same.unchanged.during iv part during) (hsummed part summed) (same.dev ▸ dev)
  | answered iv part out way during summed answered accepted switching dev =>
    exact .answered iv part out (same.way way) (same.unchanged.during iv part during) (hsummed part summed) answered
      accepted (same.dev ▸ switching) (same.dev ▸ dev)
  | taken iv part more way during summed dev =>
    exact .taken iv part more (same.way way) (same.unchanged.during iv part during) (hsummed part summed) (same.dev ▸ dev)
  | reached updated => exact .reached (updated.keep same effects)

theorem part_accepted (undoes : Undoes lib cipher) (tag : SameTag lib cipher) (short : p.c.length < 1024)
    (room : p.blocks.length ≤ maxSeqNum) {env : Env} (works : Works env) (rest : Mem) {iv : Iv} {part : Part file}
    {d : Dev} (dev : part.loaded lib iv d) : ∃ d' out,
      handleUpgradePacket lib env d (.ofList ((part.request iv).bytes cipher) rest) = (d', out) ∧
      part.accepted out ∧ part.stored lib iv d' ∧
      (∀ q short, part = .exec q short →
        ∃ now d, d' = switchingTimerStart codeSwitchingInterval .codeSwitching now d) := by
  have hroom : ∀ q : Position file, q.blocks.length ≤ maxSeqNum := by
    intro q
    have hle := p.le_short q short
    rw [Position.length_blocks] at room ⊢
    omega
  cases part with
  | auth =>
    obtain ⟨d', h, loaded⟩ := loaded_authentication tag works dev iv.2 rest
    exact ⟨d', _, h, rfl, loaded, nofun⟩
  | block q =>
    have hfull := hroom q
    rw [Position.length_blocks] at hfull
    obtain ⟨d', out, h, ret, loaded⟩ := Loaded.data dev undoes works (Activity.length_padded q.length_le)
      (by omega) rest
    exact ⟨d', out, h, ret, loaded, nofun⟩
  | crc q short =>
    have hcrc := Loaded.crc dev (hroom q)
    exact ⟨d, _, handle_generateCommandFrame lib env rest .getCRC dev.auth, by rw [Part.accepted, hcrc], dev, nofun⟩
  | exec q short =>
    exact ⟨_, _, handle_generateCommandFrame lib env rest .exeFirmware dev.auth, rfl, Loaded.exec dev env.now,
      fun _ _ _ => ⟨env.now, d, rfl⟩⟩

theorem track_device (undoes : Undoes lib cipher) (tag : SameTag lib cipher) (short : p.c.length < 1024)
    (room : p.blocks.length ≤ maxSeqNum) {env : Env} (works : Works env) (rest : Mem) (h : Track lib p past s n)
    (busy : s.requests ≠ []) : ∃ s' effects n', s.step lib cipher (.device env rest) = some (s', effects) ∧
      Track lib p (past ++ effects) s' n' ∧ weight s' n' < weight s n := by
  cases h with
  | asking iv part way during summed dev =>
    obtain ⟨d', out, hhandle, accepted, stored, switching⟩ := part_accepted undoes tag short room works rest dev
    have hanswered := answered lib cipher env s.dev (part.request iv) rest
    rw [hhandle] at hanswered
    refine ⟨_, _, 3 * part.left p.blocks.length + 2, link_device env rest lib cipher way.requests hhandle, ?_, ?_⟩
    · exact .answered iv part out ⟨rfl, by rw [way.replies]; rfl, way.queue⟩ during summed hanswered accepted
        switching stored
    · simp only [weight]
      omega
  | answered _ _ _ way => exact absurd way.requests busy
  | taken _ _ _ way => exact absurd way.requests busy
  | reached updated => exact absurd updated.way.requests busy

theorem received_accepted {a : Activity} {blocks : List (List Byte)} (data : a.bDataSend = false)
    (command : a.bCommandSend = true) (getVersion : a.bCommandGetverison = false)
    (summed : a.mFileCRC = Crc.crc32 blocks.flatten) (value : Crc.crc32 blocks.flatten < 0xFFFF0000#32) :
    a.messageReceived (generateAckFrame (uHtonl (Crc.crc32 blocks.flatten))) = some (a, [.transfer2NewFirmware]) := by
  have hstatus : ¬ IsStatus (generateAckFrame (uHtonl (Crc.crc32 blocks.flatten))) := by
    rw [isStatus_uHtonl]
    exact BitVec.not_le.mpr value
  rw [received_crc a hstatus]
  generalize Crc.crc32 blocks.flatten = w at summed
  have hvalue : ackValue ((w >>> 24).setWidth 8) ((w >>> 16).setWidth 8) ((w >>> 8).setWidth 8) (w.setWidth 8) = w :=
    word_bytes w
  simp [valued, data, command, getVersion, hvalue, summed]

theorem accepted_posts (short : p.c.length < 1024) (value : Crc.crc32 p.blocks.flatten < 0xFFFF0000#32)
    {iv : Iv} {part : Part file} {out : Out} (during : During iv part s.gateway) (summed : part.summed s.gateway.activity)
    (answered : Answered (part.request iv) out) (accepted : part.accepted out)
    (written : ∀ f, readBy (part.request iv) = some f → isSet s.gateway.activity f = true) :
    s.gateway.activity.messageReceived (generateAckFrame out.ack) = some (s.gateway.activity, [part.message]) := by
  cases part with
  | auth =>
    obtain rfl := accepted
    rw [received_pass, passMsg, during.flags.of_auth.2.1, during.update]
    rfl
  | block q =>
    have hdata : s.gateway.activity.bDataSend = true := written .dataSend rfl
    have hret : out.ret = success := accepted
    cases answered with
    | refused _ _ _ _ fail => exact absurd (fail.symm.trans hret) (by decide)
    | stored _ _ _ b2 b3 _ _ message =>
      rw [received_value s.gateway.activity (by decide) message]
      simp [valued, during.getVersion, during.flags.of_block.1, hdata, Part.message]
  | crc q hq =>
    obtain rfl := accepted
    obtain rfl := q.unique p hq short
    exact received_accepted during.flags.of_crc.1 (written .commandSend rfl) during.getVersion summed value
  | exec q hq =>
    obtain rfl := accepted
    have hpass : s.gateway.activity.messageReceived (generateAckFrame (uHtonl commandFramePass)) =
      some (s.gateway.activity, [passMsg s.gateway.activity]) := received_pass s.gateway.activity
    rw [hpass, passMsg, during.flags.of_exec.2]
    rfl

theorem track_reply (short : p.c.length < 1024) (value : Crc.crc32 p.blocks.flatten < 0xFFFF0000#32)
    (h : Track lib p past s n) (steady : Steady file past s .reply) (busy : s.replies ≠ []) : ∃ s' effects n',
      s.step lib cipher .reply = some (s', effects) ∧ Track lib p (past ++ effects) s' n' ∧ weight s' n' < weight s n := by
  cases h with
  | asking _ _ way => exact absurd way.replies busy
  | taken _ _ _ way => exact absurd way.replies busy
  | reached updated => exact absurd updated.way.replies busy
  | answered iv part out way during summed answered accepted switching dev =>
    have hposts := accepted_posts short value during summed answered accepted (steady _ _ way.replies)
    have kept := (Unchanged.of_queue s.gateway.activity s.gateway.queue (s.gateway.queue ++ [part.message])
      s.gateway.pending).during iv part during
    have hqueue : (s.gateway.queue ++ [part.message]).filter asks = [part.message].filter asks := by
      rw [List.filter_append, way.queue, List.nil_append]
    have hlower : ∀ n' < 3 * part.left p.blocks.length + 2, ∀ d replies,
        weight ⟨⟨s.gateway.activity, s.gateway.queue ++ [part.message], s.gateway.pending⟩, s.requests, replies, d⟩ n' <
          weight s (3 * part.left p.blocks.length + 2) := by
      intro n' hn d replies
      simp only [weight, List.length_append, List.length_singleton]
      omega
    have hmore : part.message ≠ .updateOver → ∃ s' effects n', s.step lib cipher .reply = some (s', effects) ∧
        Track lib p (past ++ effects) s' n' ∧ weight s' n' < weight s (3 * part.left p.blocks.length + 2) := by
      intro hmessage
      refine ⟨_, _, 3 * part.left p.blocks.length + 1, link_taken lib cipher way.replies hposts, ?_,
        hlower _ (Nat.lt_succ_self _) _ _⟩
      refine .taken iv part ?_ ⟨way.requests, rfl, hqueue.trans ?_⟩ kept summed dev
      · cases part with
        | auth => exact Nat.succ_ne_zero _
        | block q =>
          have hle := p.le_short q short
          rw [Part.left, Position.length_blocks]
          omega
        | crc => exact Nat.one_ne_zero
        | exec => exact absurd rfl hmessage
      · cases part with
        | exec => exact absurd rfl hmessage
        | _ => rfl
    cases part with
    | auth => exact hmore fun heq => by cases heq
    | block q => exact hmore fun heq => by cases heq
    | crc q hq => exact hmore fun heq => by cases heq
    | exec q hq =>
      obtain rfl := q.unique p hq short
      refine ⟨_, _, 0, link_taken lib cipher way.replies hposts, .reached ?_, hlower _ (Nat.succ_pos _) _ _⟩
      exact ⟨⟨way.requests, rfl, hqueue⟩, by simp [Part.message], ⟨iv, dev⟩, switching q hq rfl⟩

structure Next (iv : Iv) (part : Part file) (queue : List Msg) (r : Activity.Handled) : Prop where
  sent : sentIn r.effects = [part.request iv]
  during : During iv part ⟨r.activity, queue, r.flag⟩
  summed : part.summed r.activity

section
variable {a : Activity} {queue : List Msg} {fs : Path → Option File} {iv : Iv} {q : Position file}

theorem next_auth (p : Position file) (during : During iv (.auth : Part file) ⟨a, queue, none⟩)
    (opens : ∀ path, fs path = some file) :
    ∃ (r : Activity.Handled) (q : Position file), a.handleMessage fs .sendDataFrame = some r ∧ q.full = [] ∧
      Next iv (.block q) queue r := by
  have hr := Activity.handle_sendDataFrame (opens a.mPath)
  rcases handle_auth during (opens _) hr with ⟨hnil, -⟩ | ⟨q, hfull, sent, during'⟩
  · rw [p.reads] at hnil
    exact absurd hnil (List.append_ne_nil_of_right_ne_nil _ (List.cons_ne_nil _ _))
  · refine ⟨_, q, hr, hfull, sent, during', ?_⟩
    have hreads : file.reads = q.c :: q.rest := by rw [q.reads, hfull, List.nil_append]
    have hgoes : (a.bDataAckError || a.bFileReadOver) = false := by
      have herr : a.bDataAckError = false := during.err
      have hover : a.bFileReadOver = false := during.finished
      rw [herr, hover]
      rfl
    have hfirst := hr.symm.trans (Activity.handle_first (opens a.mPath) hreads hgoes)
    rw [Option.some.inj hfirst, Part.summed, Position.blocks, hfull, List.nil_append, List.flatten_singleton]

theorem next_block (p : Position file) (short : p.c.length < 1024) (during : During iv (.block q) ⟨a, queue, none⟩)
    (summed : (Part.block q).summed a) : ∃ (r : Activity.Handled) (part : Part file),
      a.handleMessage fs .continueData = some r ∧ Next iv part queue r ∧
      ((∃ hq, part = .crc q hq) ∨ ∃ q', part = .block q' ∧ q'.full = q.blocks) := by
  obtain ⟨hfis, hsize⟩ := during.reading
  have herr : a.bDataAckError = false := during.err
  have hfinished : a.bFileReadOver = decide (q.c.length < 1024) := during.finished
  by_cases hq : q.c.length < 1024
  · have hr : a.handleMessage fs .continueData = _ :=
      Activity.handle_over hsize (hfinished.trans (decide_eq_true hq)) herr
    rcases handle_block during hr with ⟨-, hfull, -⟩ | ⟨hq', sent, during'⟩ | ⟨q', -, sent, -⟩
    · exact absurd hfull (Nat.ne_of_lt hq)
    · exact ⟨_, .crc q hq', hr, ⟨sent, during', congrArg Crc.crc32 summed⟩, .inl ⟨hq', rfl⟩⟩
    · cases sent
  · have hover : a.bFileReadOver = false := hfinished.trans (decide_eq_false hq)
    have hr : a.handleMessage fs .continueData = _ := Activity.handle_continueData hsize hover
    rcases handle_block during hr with ⟨hrest, hfull, -⟩ | ⟨hq', -⟩ | ⟨q', hfull, sent, during'⟩
    · exact absurd hrest (p.rest_ne_nil q short hfull)
    · exact absurd hq' hq
    · refine ⟨_, .block q', hr, ⟨sent, during', ?_⟩, .inr ⟨q', rfl, hfull⟩⟩
      have hlength : q.c.length = 1024 := Nat.le_antisymm q.length_le (Nat.not_lt.mp hq)
      have hpadded : padded q.c = q.c := by simp [padded, hlength]
      have hrest : q.rest = q'.c :: q'.rest := by
        have hreads := q.reads.symm.trans q'.reads
        rw [hfull, Position.blocks, hpadded, List.append_assoc] at hreads
        exact (List.cons.inj (List.append_cancel_left hreads)).2
      rw [Activity.sendBlock_sends (hfis.trans (congrArg some hrest)) (by simp [hover, herr])]
      show a.baos ++ padded q'.c = q'.blocks.flatten
      rw [Position.blocks, hfull, List.flatten_append, List.flatten_singleton]
      exact congrArg (· ++ padded q'.c) summed

end

theorem handle_idle (a : Activity) (fs : Path → Option File) (idle : asks msg = false) :
    a.handleMessage fs msg = some ⟨a, [], none⟩ := by
  cases msg with
  | updateOver => rfl
  | displayVersion => rfl
  | connectionLost => rfl
  | sendDataFrame => exact absurd idle (by decide)
  | continueData => exact absurd idle (by decide)
  | sendGetVersion => exact absurd idle (by decide)
  | transfer2NewFirmware => exact absurd idle (by decide)

theorem same_handle (lib : GcmLib) (cipher : Cipher) (file : File) (fs : Path → Option File)
    (pending : s.gateway.pending = none) (hqueue : s.gateway.queue = msg :: queue) (idle : asks msg = false) :
    ∃ s', s.step lib cipher (.handle fs) = some (s', []) ∧ Same file s s' ∧
      s'.gateway.pending = s.gateway.pending ∧ s.gateway.queue.length = s'.gateway.queue.length + 1 := by
  have kept : Unchanged file s.gateway ⟨s.gateway.activity, queue, none⟩ := by
    rw [← pending]
    exact .of_queue s.gateway.activity s.gateway.queue queue s.gateway.pending
  refine ⟨_, link_handle lib cipher pending hqueue (handle_idle s.gateway.activity fs idle), ?_, pending.symm, ?_⟩
  · refine ⟨List.append_nil _, rfl, ?_, rfl, kept, rfl, rfl⟩
    rw [hqueue, List.filter_cons_of_neg (by simp [idle])]
  · rw [hqueue, List.length_cons]

theorem same_flag (lib : GcmLib) (cipher : Cipher) (file : File) (pending : s.gateway.pending = some f) : ∃ s',
    s.step lib cipher .flag = some (s', []) ∧ Same file s s' ∧
      s'.gateway.pending = none ∧ s'.gateway.queue = s.gateway.queue := by
  refine ⟨{ s with gateway := { s.gateway with activity := s.gateway.activity.set f, pending := none } }, ?_, ?_, rfl, rfl⟩
  · simp [Link.step, Link.app, Gateway.step, pending, sentIn]
  · exact ⟨rfl, rfl, rfl, rfl, unchanged_flag pending, by cases f <;> rfl, by cases f <;> rfl⟩

theorem same_choose (lib : GcmLib) (cipher : Cipher) (file : File) (s : Link) (filePath : Path) (fs : Path → Option File) :
    ∃ s' effects, s.step lib cipher (.choose filePath fs) = some (s', effects) ∧ Same file s s' ∧
      s'.gateway.pending = s.gateway.pending ∧ s'.gateway.queue = s.gateway.queue := by
  obtain ⟨g, ge, hg⟩ : ∃ g ge, s.gateway.step (.choose filePath fs) = some (g, ge) := by
    simp only [Gateway.step]
    split <;> exact ⟨_, _, rfl⟩
  obtain ⟨-, hqueue, hsent⟩ := chosen hg
  have hs : s.step lib cipher (.choose filePath fs) = some ({ s with gateway := g }, ge.map .app) := by
    simp [Link.step, Link.app, hg, hsent]
  refine ⟨_, _, hs, ⟨rfl, rfl, by rw [hqueue], rfl, unchanged_choose hg, ?_, ?_⟩, ?_, hqueue⟩
  all_goals cases step_cases hg <;> rfl

theorem same_timeout (lib : GcmLib) (cipher : Cipher) (file : File) (s : Link) :
    ∃ s' effects, s.step lib cipher .timeout = some (s', effects) ∧ Same file s s' ∧
      s'.gateway.pending = s.gateway.pending ∧ s'.gateway.queue.length ≤ s.gateway.queue.length + 1 ∧
      (s.gateway.queue ≠ [] → s'.gateway.queue ≠ []) := by
  let posts : List Msg := if s.gateway.activity.bDataSend then [.connectionLost] else []
  have hposts : posts.filter asks = [] ∧ posts.length ≤ 1 := by
    simp only [posts]
    split <;> decide
  have hs : s.step lib cipher .timeout =
      some ({ s with gateway := { s.gateway with queue := s.gateway.queue ++ posts } }, posts.map fun msg => .app (.posted msg)) := by
    have hnone : sentIn (posts.map GatewayEffect.posted) = [] := by simp [sentIn, List.filterMap_map]
    simp only [posts] at hnone ⊢
    simp [Link.step, Link.app, Gateway.step, received_timeout, hnone, Function.comp_def]
  refine ⟨_, _, hs, ⟨rfl, rfl, ?_, rfl, .of_queue _ _ _ _, rfl, rfl⟩, rfl, ?_, fun h => List.append_ne_nil_of_left_ne_nil h _⟩
  · rw [List.filter_append, hposts.1, List.append_nil]
  · rw [List.length_append]
    exact Nat.add_le_add_left hposts.2 _

theorem track_handle (cipher : Cipher) (short : p.c.length < 1024) (h : Track lib p past s n)
    {fs : Path → Option File} (opens : ∀ path, fs path = some file) (pending : s.gateway.pending = none)
    (busy : s.gateway.queue ≠ []) : ∃ s' effects n', s.step lib cipher (.handle fs) = some (s', effects) ∧
      Track lib p (past ++ effects) s' n' ∧ weight s' n' < weight s n := by
  obtain ⟨msg, queue, hqueue⟩ := List.exists_cons_of_ne_nil busy
  cases hasks : asks msg with
  | false =>
    obtain ⟨s', hs, same, hweight⟩ := same_handle lib cipher file fs pending hqueue hasks
    exact ⟨s', [], n, hs, h.keep same [], by rw [weight, weight, hweight.1, hweight.2]; omega⟩
  | true =>
    have hfilter : s.gateway.queue.filter asks = msg :: queue.filter asks := by
      rw [hqueue, List.filter_cons_of_pos hasks]
    cases h with
    | asking _ _ way => exact absurd (hfilter.symm.trans way.queue) (List.cons_ne_nil _ _)
    | answered _ _ _ way => exact absurd (hfilter.symm.trans way.queue) (List.cons_ne_nil _ _)
    | reached updated => exact absurd (hfilter.symm.trans updated.way.queue) (List.cons_ne_nil _ _)
    | taken iv part more way during summed dev =>
      obtain ⟨rfl, hrest⟩ := List.cons.inj (hfilter.symm.trans way.queue)
      have here : During iv part ⟨s.gateway.activity, queue, none⟩ := by
        rw [← pending]
        exact (Unchanged.of_queue s.gateway.activity s.gateway.queue queue s.gateway.pending).during iv part during
      -- The part that comes next, which the device is ready for.
      have goes : ∀ {r : Activity.Handled} {next : Part file},
          s.gateway.activity.handleMessage fs part.message = some r → Next iv next queue r →
          next.loaded lib iv s.dev → next.left p.blocks.length + 1 = part.left p.blocks.length →
          ∃ s' effects n', s.step lib cipher (.handle fs) = some (s', effects) ∧ Track lib p (past ++ effects) s' n' ∧
            weight s' n' < weight s (3 * part.left p.blocks.length + 1) := by
        intro r next hr hnext loaded hleft
        refine ⟨_, _, 3 * next.left p.blocks.length + 3, link_handle lib cipher pending hqueue hr, ?_, ?_⟩
        · exact .asking iv next ⟨by rw [way.requests, hnext.sent]; rfl, way.replies, hrest⟩ hnext.during hnext.summed loaded
        · simp only [weight, pending, hqueue, List.length_cons]
          split <;> omega
      cases part with
      | auth =>
        obtain ⟨r, q, hr, hfull, hnext⟩ := next_auth p here opens
        refine goes hr hnext ?_ ?_
        · rw [Part.loaded, hfull]
          exact dev
        · rw [Part.left, Part.left, hfull, List.length_nil, Nat.sub_zero]
      | block q =>
        have hle := p.le_short q short
        have hcount := p.length_blocks
        obtain ⟨r, next, hr, hnext, ⟨hq, rfl⟩ | ⟨q', rfl, hfull⟩⟩ := next_block p short here summed
        · obtain rfl := q.unique p hq short
          refine goes hr hnext dev ?_
          rw [Part.left, Part.left, hcount]
          omega
        · refine goes hr hnext ?_ ?_
          · rw [Part.loaded, hfull]
            exact dev
          · have hcount' := q.length_blocks
            rw [← hfull] at hcount'
            have hle' := p.le_short q' short
            rw [Part.left, Part.left]
            omega
      | crc q hq =>
        have hr : s.gateway.activity.handleMessage fs .transfer2NewFirmware = some _ := rfl
        obtain ⟨sent, during'⟩ := handle_crc here hr
        have hnext : Next iv (.exec q hq) queue _ := ⟨sent, during', trivial⟩
        exact goes hr hnext dev rfl
      | exec => exact absurd rfl more

-- ---------------------------------------------------------------------------
-- Rounds
-- ---------------------------------------------------------------------------

def Tracked (lib : GcmLib) (p : Position file) (past : List LinkEffect) (s : Link) (w : Nat) : Prop :=
  ∃ n, Track lib p past s n ∧ w = weight s n

theorem Busy.of_handle (h : ¬ Busy s .handle) (pending : s.gateway.pending = none) : s.gateway.queue = [] :=
  by_contra fun hne => h ⟨pending, hne⟩

theorem Busy.same (busy : Busy s k) (same : Same file s s') (pending : s'.gateway.pending = s.gateway.pending)
    (queue : s.gateway.queue ≠ [] → s'.gateway.queue ≠ []) : Busy s' k := by
  cases k with
  | device => exact fun h => busy (same.requests.symm.trans h)
  | reply => exact fun h => busy (same.replies.symm.trans h)
  | handle => exact ⟨pending.trans busy.1, queue busy.2⟩
  | flag => exact fun h => busy (pending.symm.trans h)

theorem waits (lib : GcmLib) (cipher : Cipher) (hactor : actor e = some k) (idle : ¬ Busy s k) :
    s.step lib cipher e = some (s, []) := by
  cases e with
  | device env rest =>
    obtain rfl := Option.some.inj hactor
    simp only [Link.step, not_not.mp idle]
  | reply =>
    obtain rfl := Option.some.inj hactor
    simp only [Link.step, not_not.mp idle]
  | handle fs =>
    obtain rfl := Option.some.inj hactor
    have hstep : s.gateway.step (.handle fs) = some (s.gateway, []) := by
      simp only [Gateway.step]
      split
      · rename_i msg queue pending hqueue
        exact absurd (hqueue.symm.trans (Busy.of_handle idle pending)) (List.cons_ne_nil _ _)
      · rfl
    simp [Link.step, Link.app, hstep, sentIn]
  | flag =>
    obtain rfl := Option.some.inj hactor
    have hpending : s.gateway.pending = none := not_not.mp idle
    simp [Link.step, Link.app, Gateway.step, hpending, sentIn]
  | update | check | choose | timeout => cases hactor

theorem same_idle (lib : GcmLib) (cipher : Cipher) (way : OnTheWay s [] [] []) (steady : Steady file past s e) :
    ∃ s' effects, s.step lib cipher e = some (s', effects) ∧ Same file s s' := by
  have refl : Same file s s := ⟨rfl, rfl, rfl, rfl, .refl _, rfl, rfl⟩
  cases e with
  | update => exact steady.elim
  | check => exact steady.elim
  | choose filePath fs =>
    obtain ⟨s', effects, hs, same, -⟩ := same_choose lib cipher file s filePath fs
    exact ⟨s', effects, hs, same⟩
  | timeout =>
    obtain ⟨s', effects, hs, same, -⟩ := same_timeout lib cipher file s
    exact ⟨s', effects, hs, same⟩
  | device env rest => exact ⟨s, [], waits lib cipher rfl (not_not.mpr way.requests), refl⟩
  | reply => exact ⟨s, [], waits lib cipher rfl (not_not.mpr way.replies), refl⟩
  | flag =>
    cases hpending : s.gateway.pending with
    | none => exact ⟨s, [], waits lib cipher rfl (not_not.mpr hpending), refl⟩
    | some f =>
      obtain ⟨s', hs, same, -⟩ := same_flag lib cipher file hpending
      exact ⟨s', [], hs, same⟩
  | handle fs =>
    by_cases hbusy : Busy s .handle
    · obtain ⟨msg, queue, hqueue⟩ := List.exists_cons_of_ne_nil hbusy.2
      have hidle : asks msg = false := by
        have hnone := way.queue
        rw [hqueue] at hnone
        exact Bool.eq_false_iff.mpr (List.filter_eq_nil_iff.mp hnone msg List.mem_cons_self)
      obtain ⟨s', hs, same, -⟩ := same_handle lib cipher file fs hbusy.1 hqueue hidle
      exact ⟨s', [], hs, same⟩
    · exact ⟨s, [], waits lib cipher rfl hbusy, refl⟩

/-- The upload gets on with every turn that has something to do, and it always has one. -/
theorem upload_progresses (undoes : Undoes lib cipher) (tag : SameTag lib cipher) (short : p.c.length < 1024)
    (room : p.blocks.length ≤ maxSeqNum) (value : Crc.crc32 p.blocks.flatten < 0xFFFF0000#32) :
    Faulting.Ends (link lib cipher) (Steady file) actor Busy adds (Tracked lib p) (Updated lib p.blocks) where
  acts := by
    rintro past s _ e k ⟨n, h, rfl⟩ steady hactor busy
    have tracked : (∃ s' effects n', s.step lib cipher e = some (s', effects) ∧ Track lib p (past ++ effects) s' n' ∧
        weight s' n' < weight s n) → ∃ s' effects w, (link lib cipher).step s e = some (s', effects) ∧
          Tracked lib p (past ++ effects) s' w ∧ w < weight s n :=
      fun ⟨s', effects, n', hs, h', hlt⟩ => ⟨s', effects, _, hs, ⟨n', h', rfl⟩, hlt⟩
    cases e with
    | device env rest =>
      obtain rfl := Option.some.inj hactor
      exact tracked (track_device undoes tag short room steady rest h busy)
    | reply =>
      obtain rfl := Option.some.inj hactor
      exact tracked (track_reply short value h steady busy)
    | handle fs =>
      obtain rfl := Option.some.inj hactor
      exact tracked (track_handle cipher short h steady busy.1 busy.2)
    | flag =>
      obtain rfl := Option.some.inj hactor
      obtain ⟨f, hpending⟩ := Option.ne_none_iff_exists'.mp busy
      obtain ⟨s', hs, same, pending, queue⟩ := same_flag lib cipher file hpending
      refine tracked ⟨s', [], n, hs, h.keep same [], ?_⟩
      rw [weight, weight, pending, queue, if_pos rfl, if_neg busy]
      omega
    | update | check | choose | timeout => cases hactor
  waits _ _ hactor idle := waits lib cipher hactor idle
  passes := by
    rintro past s _ e ⟨n, h, rfl⟩ steady hactor
    cases e with
    | update => exact steady.elim
    | check => exact steady.elim
    | choose filePath fs =>
      obtain ⟨s', effects, hs, same, pending, queue⟩ := same_choose lib cipher file s filePath fs
      exact ⟨s', effects, _, hs, ⟨n, h.keep same effects, rfl⟩, by rw [weight, weight, pending, queue]; omega,
        fun k busy => busy.same same pending fun hne => queue ▸ hne⟩
    | timeout =>
      obtain ⟨s', effects, hs, same, pending, length, queue⟩ := same_timeout lib cipher file s
      refine ⟨s', effects, _, hs, ⟨n, h.keep same effects, rfl⟩, ?_, fun k busy => busy.same same pending queue⟩
      rw [weight, weight, pending, adds]
      omega
    | device | reply | handle | flag => cases hactor
  goes := by
    rintro past s _ ⟨n, h, rfl⟩
    cases h with
    | asking iv part way => exact .inr ⟨.device, by rw [Busy, way.requests]; exact List.cons_ne_nil _ _⟩
    | answered iv part out way => exact .inr ⟨.reply, by rw [Busy, way.replies]; exact List.cons_ne_nil _ _⟩
    | taken iv part more way =>
      cases hpending : s.gateway.pending with
      | none =>
        refine .inr ⟨.handle, hpending, fun hnil => ?_⟩
        have hqueue := way.queue
        rw [hnil] at hqueue
        exact List.cons_ne_nil _ _ hqueue.symm
      | some f => exact .inr ⟨.flag, by rw [Busy, hpending]; exact Option.some_ne_none f⟩
    | reached updated => exact .inl updated
  spent := by
    rintro past s ⟨n, h, hweight⟩
    obtain ⟨rfl, -⟩ : n = 0 ∧ s.gateway.queue.length = 0 := by
      unfold weight at hweight
      omega
    cases h with
    | reached updated => exact updated
  stays := by
    rintro past s _ e s' effects - steady updated hs
    obtain ⟨s₁, effects₁, hs₁, same⟩ := same_idle lib cipher updated.way steady
    obtain ⟨rfl, rfl⟩ := Prod.mk.inj (Option.some.inj (hs.symm.trans hs₁))
    exact updated.keep same effects

end

end

-- ---------------------------------------------------------------------------
-- The press of Update
-- ---------------------------------------------------------------------------

def pressedUpdate (filePath : Path) (iv : Iv) (d : Dev) : Link :=
  let a : Activity := { Activity.onCreate with mPath := filePath, bFileFormat := true, bUpdate := true, randomIv := iv }
  ⟨⟨a, [], none⟩, [.authentication iv], [], d⟩

section
variable {lib : GcmLib} {cipher : Cipher} {file : File} {filePath : Path} {fs : Path → Option File} {d : Dev}

theorem run_pressedUpdate (lib : GcmLib) (cipher : Cipher) (iv : Iv) (d : Dev) (opens : fs filePath = some file)
    (marked : file.marked = true) : (link lib cipher).run ⟨.onCreate, [], [], d⟩ [.choose filePath fs, .update iv] =
      some (pressedUpdate filePath iv d,
        [.app (.checked filePath true), .app (.sent (.authentication iv))]) := by
  have h1 : (link lib cipher).step ⟨.onCreate, [], [], d⟩ (.choose filePath fs) = some (⟨⟨{ Activity.onCreate with
      mPath := filePath, bFileFormat := true }, [], none⟩, [], [], d⟩, [.app (.checked filePath true)]) :=
    link_choose lib cipher rfl opens marked
  have h2 : (link lib cipher).step ⟨⟨{ Activity.onCreate with mPath := filePath, bFileFormat := true }, [], none⟩,
      [], [], d⟩ (.update iv) = some (pressedUpdate filePath iv d, [.app (.sent (.authentication iv))]) := rfl
  exact Faulting.run_cons h1 (Faulting.run_cons h2 rfl)

theorem tracked_pressed (lib : GcmLib) (p : Position file) (filePath : Path) (iv : Iv) (set : SetUp d) :
    Tracked lib p [] (pressedUpdate filePath iv d) (12 * p.blocks.length + 36) := by
  refine ⟨3 * (Part.auth : Part file).left p.blocks.length + 3, .asking iv .auth ⟨rfl, rfl, rfl⟩ ?_ trivial set, ?_⟩
  · exact ⟨rfl, rfl, rfl, rfl, rfl, rfl, trivial, .auth⟩
  · have hqueue : (pressedUpdate filePath iv d).gateway.queue.length = 0 := rfl
    have hpending : (pressedUpdate filePath iv d).gateway.pending = none := rfl
    rw [weight, Part.left, hqueue, if_pos hpending]
    omega

/-- For every file that ends with a short read and has room in bank 1, however it is
read and over every interleaving in which all four get their turns: no frame is refused,
the app reports the update, bank 1 begins with the file, filled up with 0xFF, and the
device is about to switch to it, after as many rounds as there are twelve for each block,
36, and one for each timeout. -/
theorem upload_ends (undoes : Undoes lib cipher) (tag : SameTag lib cipher) (ends : EndsShort file)
    (size : file.reads.flatten.length ≤ 1023 * 1024) (value : Crc.crc32 (padFile file.reads.flatten) < 0xFFFF0000#32)
    (set : SetUp d) (opens : fs filePath = some file) (marked : file.marked = true) (iv : Iv)
    (rounds : List (List LinkEvent)) (fair : ∀ r ∈ rounds, Faulting.Round actor r)
    (steady : (link lib cipher).Meets (Steady file) [] (pressedUpdate filePath iv d) rounds.flatten)
    (enough : 12 * ((file.reads.flatten.length + 1023) / 1024) + 36 + Faulting.added adds rounds.flatten ≤
      rounds.length) :
    ∃ s effects, (link lib cipher).run ⟨.onCreate, [], [], d⟩ (.choose filePath fs :: .update iv :: rounds.flatten) =
        some (s, effects) ∧
      .app (.posted .updateOver) ∈ effects ∧
      Mem.slice s.dev.flash.bank1 0 (padFile file.reads.flatten).length = padFile file.reads.flatten ∧
      ∃ now d, s.dev = switchingTimerStart codeSwitchingInterval .codeSwitching now d := by
  obtain ⟨p, short, fits⟩ := ends
  obtain ⟨hcount, hflat⟩ := (blocks_whole p short).mpr ⟨p, short, fits⟩
  have hmax : maxSeqNum = 1023 := rfl
  have room : p.blocks.length ≤ maxSeqNum := by omega
  have progress := upload_progresses undoes tag short room (hflat ▸ value)
  obtain ⟨s, effects, hrun, updated⟩ := progress.finishes (tracked_pressed lib p filePath iv set) steady fair
    (hcount ▸ enough)
  obtain ⟨iv', loaded⟩ := updated.stored
  have hbank := loaded.holds.bank1 p.length_block
  rw [← length_flatten_whole p.length_block, hflat] at hbank
  exact ⟨s, _, Faulting.run_append (run_pressedUpdate lib cipher iv d opens marked) hrun,
    List.mem_append_right _ updated.reported, hbank, updated.switching⟩

end

-- ---------------------------------------------------------------------------
-- Rounds in one order
-- ---------------------------------------------------------------------------

section
variable {lib : GcmLib} {cipher : Cipher} {p : Position file} {past : List LinkEffect} {s : Link}

theorem written_pending (h : Track lib p past s n) (pending : s.gateway.pending = none) : Steady file past s .reply := by
  rintro r replies hreplies f hreads
  cases h with
  | asking _ _ way => exact absurd (hreplies.symm.trans way.replies) (List.cons_ne_nil _ _)
  | taken _ _ _ way => exact absurd (hreplies.symm.trans way.replies) (List.cons_ne_nil _ _)
  | reached updated => exact absurd (hreplies.symm.trans updated.way.replies) (List.cons_ne_nil _ _)
  | answered iv part out way during =>
    obtain ⟨rfl, -⟩ := List.cons.inj (hreplies.symm.trans way.replies)
    have hflags := during.flags
    cases part with
    | auth => cases hreads
    | exec => cases hreads
    | block q =>
      obtain rfl := Option.some.inj hreads
      rcases hflags.of_block.2 with ⟨-, hpending⟩ | ⟨hdata, -⟩
      · exact absurd (pending.symm.trans hpending) nofun
      · exact hdata
    | crc q hq =>
      obtain rfl := Option.some.inj hreads
      rcases hflags.of_crc.2 with ⟨-, hpending⟩ | ⟨hcommand, -⟩
      · exact absurd (pending.symm.trans hpending) nofun
      · exact hcommand

def inTurn (fs : Path → Option File) (env : Env) (rest : Mem) : List LinkEvent :=
  [.flag, .device env rest, .reply, .handle fs]

theorem inTurn_fair (fs : Path → Option File) (env : Env) (rest : Mem) :
    Faulting.Round actor (inTurn fs env rest) := by
  intro k
  cases k with
  | device => exact ⟨.device env rest, by simp [inTurn], rfl⟩
  | reply => exact ⟨.reply, by simp [inTurn], rfl⟩
  | handle => exact ⟨.handle fs, by simp [inTurn], rfl⟩
  | flag => exact ⟨.flag, by simp [inTurn], rfl⟩

theorem added_inTurn (fs : Path → Option File) (env : Env) (rest : Mem) (k : Nat) :
    Faulting.added adds (List.replicate k (inTurn fs env rest)).flatten = 0 := by
  induction k with
  | zero => rfl
  | succ k ih =>
    rw [List.replicate_succ, List.flatten_cons, Faulting.added_append, ih]
    rfl

theorem pending_flag {s' : Link} (hs : s.step lib cipher .flag = some (s', effects)) : s'.gateway.pending = none := by
  cases hpending : s.gateway.pending with
  | none =>
    have hwaits := waits (e := .flag) lib cipher rfl (not_not.mpr hpending)
    obtain ⟨rfl, -⟩ := Prod.mk.inj (Option.some.inj (hs.symm.trans hwaits))
    exact hpending
  | some f =>
    simp only [Link.step, Link.app, Gateway.step, hpending] at hs
    obtain ⟨rfl, -⟩ := Prod.mk.inj (Option.some.inj hs)
    rfl

theorem steady_inTurn (progress : Faulting.Ends (link lib cipher) (Steady file) actor Busy adds (Tracked lib p)
      (Updated lib p.blocks)) {fs : Path → Option File} (opens : ∀ path, fs path = some file) {env : Env}
    (works : Works env) (rest : Mem) (h : Tracked lib p past s w) :
    (link lib cipher).Meets (Steady file) past s (inTurn fs env rest) := by
  have next : ∀ {past s w e s' effects}, Tracked lib p past s w → Steady file past s e →
      (link lib cipher).step s e = some (s', effects) → ∃ w', Tracked lib p (past ++ effects) s' w' := by
    intro past s w e s' effects h steady hs
    obtain ⟨s₁, effects₁, w', hs₁, h', -⟩ := progress.step h steady
    obtain ⟨rfl, rfl⟩ := Prod.mk.inj (Option.some.inj (hs.symm.trans hs₁))
    exact ⟨w', h'⟩
  refine ⟨trivial, fun s₁ effects₁ hs₁ => ⟨works, fun s₂ effects₂ hs₂ => ⟨?_, fun _ _ _ => ⟨opens, fun _ _ _ => trivial⟩⟩⟩⟩
  obtain ⟨w₁, h₁⟩ := next (e := .flag) h trivial hs₁
  obtain ⟨w₂, n, h₂, -⟩ := next (e := .device env rest) h₁ works hs₂
  have hflag : s.step lib cipher .flag = some (s₁, effects₁) := hs₁
  have hpending : s₁.gateway.pending = none := pending_flag hflag
  have hdevice : s₁.step lib cipher (.device env rest) = some (s₂, effects₂) := hs₂
  rcases device_cases hdevice with ⟨-, rfl, -⟩ | ⟨r, requests, -, rfl, -⟩
  · exact written_pending h₂ hpending
  · exact written_pending h₂ hpending

theorem steady_rounds (progress : Faulting.Ends (link lib cipher) (Steady file) actor Busy adds (Tracked lib p)
      (Updated lib p.blocks)) {fs : Path → Option File} (opens : ∀ path, fs path = some file) {env : Env}
    (works : Works env) (rest : Mem) (h : Tracked lib p past s w) (k : Nat) :
    (link lib cipher).Meets (Steady file) past s (List.replicate k (inTurn fs env rest)).flatten := by
  induction k generalizing past s w with
  | zero => trivial
  | succ k ih =>
    have hround := steady_inTurn progress opens works rest h
    obtain ⟨s', effects, w', hrun, h', -⟩ := progress.run h hround
    rw [List.replicate_succ, List.flatten_cons]
    exact hround.append hrun (ih h')

end

/-- A file whose CRC the filling does not change. -/
def settledFile : File where
  reads := [markedBlock ++ [0xdc, 0x28, 0xb0, 0x33]]
  bounded := by
    intro c hc
    obtain rfl := List.mem_singleton.mp hc
    exact ⟨by decide, by decide⟩

theorem crc32_settledFile : Crc.crc32 (padFile settledFile.reads.flatten) = 0x492F023F#32 := by
  have hfile : Crc.update 0xEDB88320#32 0xFFFFFFFF#32 settledFile.reads.flatten = 0xB6D0FDC0#32 := by decide +kernel
  have hfixed : Crc.byteStep 0xEDB88320#32 0xB6D0FDC0#32 0xff = 0xB6D0FDC0#32 := by decide +kernel
  have hfill : ∀ n, Crc.update 0xEDB88320#32 0xB6D0FDC0#32 (List.replicate n 0xff) = 0xB6D0FDC0#32 := by
    intro n
    induction n with
    | zero => rfl
    | succ n ih =>
      rw [List.replicate_succ, Crc.update, List.foldl_cons, hfixed]
      exact ih
  rw [Crc.crc32, padFile, Crc.update_append, hfile, hfill]
  rfl

theorem upload_ends_settled : ∃ s effects,
    (link gcmMemory aesGcmNoPadding).run started (.choose "" (fun _ => some settledFile) :: .update ⟨sampleIv, rfl⟩ ::
      (List.replicate 48 (inTurn (fun _ => some settledFile) sampleEnv fun _ => 0)).flatten) = some (s, effects) ∧
    .app (.posted .updateOver) ∈ effects ∧
    Mem.slice s.dev.flash.bank1 0 (padFile settledFile.reads.flatten).length = padFile settledFile.reads.flatten ∧
    ∃ now d, s.dev = switchingTimerStart codeSwitchingInterval .codeSwitching now d := by
  let p : Position settledFile := ⟨[], markedBlock ++ [0xdc, 0x28, 0xb0, 0x33], [], rfl, nofun⟩
  have short : p.c.length < 1024 := by decide
  have ends : EndsShort settledFile := ⟨p, short, by decide, nofun⟩
  have value : Crc.crc32 (padFile settledFile.reads.flatten) < 0xFFFF0000#32 := by
    rw [crc32_settledFile]
    decide
  have set : SetUp (boot 0 blankFlash) := ⟨rfl, by decide⟩
  have hflat : p.blocks.flatten = padFile settledFile.reads.flatten := ((blocks_whole p short).mpr ends).2
  have progress := upload_progresses aesGcm_undoes aesGcm_sameTag short (by decide) (hflat ▸ value)
  refine upload_ends aesGcm_undoes aesGcm_sameTag ends (by decide) value set rfl (by decide) ⟨sampleIv, rfl⟩
    (List.replicate 48 (inTurn (fun _ => some settledFile) sampleEnv fun _ => 0)) ?_ ?_ ?_
  · intro r hr
    exact List.eq_of_mem_replicate hr ▸ inTurn_fair _ _ _
  · exact steady_rounds progress (fun _ => rfl) ⟨rfl, fun _ => rfl⟩ _ (tracked_pressed gcmMemory p "" ⟨sampleIv, rfl⟩ set) 48
  · rw [added_inTurn, List.length_replicate]
    decide

end EthernetOta.System
