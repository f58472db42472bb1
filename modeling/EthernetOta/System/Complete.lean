import EthernetOta.System.Fidelity

/-!
# Whole files

Reading a file ends with a read that does not fill the buffer. The upload stops
there, and it waits for ever for one if there is none; before that it waits for
ever if the ack of the first block comes before `bDataSend` is written.
-/

namespace EthernetOta.System

open Firmware App
open Activity (padded)

/-- All blocks of the file were sent, numbered from 0 on and filled up with 0xFF, and
then one `GET_CRC`. -/
structure Uploaded (f : List Byte) (sent : List Request) : Prop where
  order : ∃ (iv : Iv) (blocks : List (List Byte)) (tail : List Request),
    sent = .authentication iv :: dataRequests iv blocks ++ .command .getCRC :: tail ∧
    (∀ r ∈ tail, r = .command .exeFirmware) ∧
    blocks.length = (f.length + 1023) / 1024 ∧ blocks.flatten = padFile f

/-- There is a read that does not fill the buffer, and what comes after the first such
read is 0xFF and belongs to the same block. -/
def EndsShort (file : File) : Prop :=
  ∃ p : Position file, p.c.length < 1024 ∧ p.c.length + p.rest.flatten.length ≤ 1024 ∧
    ∀ b ∈ p.rest.flatten, b = 0xff

-- ---------------------------------------------------------------------------
-- What was sent
-- ---------------------------------------------------------------------------

def plaintexts (sent : List Request) : List (List Byte) :=
  sent.filterMap fun
    | .data _ plaintext _ => some plaintext
    | _ => none

theorem plaintexts_dataRequests (iv : List Byte) (blocks : List (List Byte)) :
    plaintexts (dataRequests iv blocks) = blocks := by
  induction blocks using List.reverseRecOn with
  | nil => rfl
  | append_singleton blocks b ih =>
    rw [dataRequests_concat, plaintexts, List.filterMap_append]
    exact congrArg (· ++ [b]) ih

theorem plaintexts_tail {tail : List Request} (h : ∀ r ∈ tail, r = .command .exeFirmware) : plaintexts tail = [] :=
  List.filterMap_eq_nil_iff.mpr fun r hr => by rw [h r hr]

theorem plaintexts_sent {iv : Iv} {blocks : List (List Byte)} {tail : List Request}
    (h : ∀ r ∈ tail, r = .command .exeFirmware) :
    plaintexts (.authentication iv :: dataRequests iv blocks ++ .command .getCRC :: tail) = blocks := by
  have hblocks := plaintexts_dataRequests iv blocks
  have htail := plaintexts_tail h
  rw [plaintexts] at hblocks htail ⊢
  rw [List.cons_append, List.filterMap_cons, List.filterMap_append, hblocks, List.filterMap_cons, htail, List.append_nil]

theorem getCRC_not_data (iv : Iv) (blocks : List (List Byte)) :
    .command .getCRC ∉ Request.authentication iv :: dataRequests iv blocks := by
  intro hmem
  rcases List.mem_cons.mp hmem with hmem | hmem
  · cases hmem
  · obtain ⟨i, hi, heq⟩ := List.mem_mapIdx.mp hmem
    cases heq

theorem Uploaded.getCRC {f : List Byte} (h : Uploaded f sent) : .command .getCRC ∈ sent := by
  obtain ⟨iv, blocks, tail, rfl, -⟩ := h.order
  exact List.mem_append_right _ List.mem_cons_self

-- ---------------------------------------------------------------------------
-- The first short read
-- ---------------------------------------------------------------------------

section
variable {file : File}

theorem Position.unique (p q : Position file) (hp : p.c.length < 1024) (hq : q.c.length < 1024) : p = q := by
  have htake : ∀ r : Position file, r.c.length < 1024 →
      file.reads.takeWhile (·.length == 1024) = r.full ∧ file.reads.dropWhile (·.length == 1024) = r.c :: r.rest := by
    intro r hr
    have hwhole : ∀ b ∈ r.full, (b.length == 1024) = true := fun b hb => beq_iff_eq.mpr (r.whole b hb)
    have hc : (r.c.length == 1024) = false := beq_eq_false_iff_ne.mpr (Nat.ne_of_lt hr)
    rw [r.reads, List.takeWhile_append_of_pos hwhole, List.dropWhile_append_of_pos hwhole]
    simp [hc]
  have hfull := (htake p hp).1.symm.trans (htake q hq).1
  obtain ⟨hc, hrest⟩ := List.cons.inj ((htake p hp).2.symm.trans (htake q hq).2)
  obtain ⟨full, c, rest, _, _⟩ := p
  obtain ⟨full', c', rest', _, _⟩ := q
  cases hfull
  cases hc
  cases hrest
  rfl

/-- The blocks up to the short read are the whole file just when nothing but 0xFF is left. -/
theorem blocks_whole (p : Position file) (short : p.c.length < 1024) :
    (p.blocks.length = (file.reads.flatten.length + 1023) / 1024 ∧ p.blocks.flatten = padFile file.reads.flatten) ↔
      EndsShort file := by
  have hpos : 0 < p.c.length := (file.bounded p.c (p.reads ▸ List.mem_append_right _ List.mem_cons_self)).1
  have hall : file.reads.flatten = p.full.flatten ++ (p.c ++ p.rest.flatten) := by
    rw [p.reads, List.flatten_append, List.flatten_cons]
  have hlen : file.reads.flatten.length = 1024 * p.full.length + (p.c.length + p.rest.flatten.length) := by
    rw [hall, List.length_append, length_flatten_whole p.whole, List.length_append]
  have hcount : p.blocks.length = p.full.length + 1 := by simp [Position.blocks]
  have hblocks : p.blocks.flatten = p.full.flatten ++ (p.c ++ List.replicate (1024 - p.c.length) 0xff) := by
    rw [Position.blocks, List.flatten_append, List.flatten_singleton, padded]
  have hpad : padFile file.reads.flatten = p.full.flatten ++ (p.c ++ (p.rest.flatten ++
      List.replicate ((1024 - file.reads.flatten.length % 1024) % 1024) 0xff)) := by
    rw [padFile]
    generalize List.replicate ((1024 - file.reads.flatten.length % 1024) % 1024) (0xff : Byte) = pad
    rw [hall, List.append_assoc, List.append_assoc]
  constructor
  · rintro ⟨hn, hflat⟩
    rw [hblocks, hpad] at hflat
    have hrest := List.append_cancel_left (List.append_cancel_left hflat)
    refine ⟨p, short, by omega, fun b hb => ?_⟩
    exact List.eq_of_mem_replicate (hrest ▸ List.mem_append_left _ hb)
  · rintro ⟨q, hq, hfit, hff⟩
    obtain rfl := p.unique q short hq
    refine ⟨by omega, ?_⟩
    have hrest : p.rest.flatten = List.replicate p.rest.flatten.length 0xff := List.eq_replicate_of_mem hff
    have hsum : p.rest.flatten.length + (1024 - file.reads.flatten.length % 1024) % 1024 = 1024 - p.c.length := by omega
    rw [hblocks, hpad, hrest, List.replicate_append_replicate, hsum]

end

-- ---------------------------------------------------------------------------
-- When nothing is on its way
-- ---------------------------------------------------------------------------

section
variable {lib : GcmLib} {cipher : Cipher} {file : File} {past : List LinkEffect} {s s' : Link}

theorem still_app {ge : GatewayEvent} (way : OnTheWay s [] [] [])
    (still : ∀ g effects, s.gateway.step ge = some (g, effects) → sentIn effects = [] ∧ g.queue.filter asks = [])
    (hs : s.app ge = some (s', effects)) : OnTheWay s' [] [] [] ∧ sentOf effects = [] := by
  obtain ⟨g, ge, hg, rfl, rfl⟩ := link_app hs
  obtain ⟨hsent, hqueue⟩ := still g ge hg
  exact ⟨⟨by rw [way.requests, hsent]; rfl, way.replies, hqueue⟩, (sentOf_app ge).trans hsent⟩

/-- Once Update was pressed and nothing is on its way, nothing ever will be. -/
theorem still_step (way : OnTheWay s [] [] []) (pressed : .authentication iv ∈ sentOf past)
    (one : OneUpdate file past s e) (hs : s.step lib cipher e = some (s', effects)) :
    OnTheWay s' [] [] [] ∧ sentOf effects = [] := by
  cases e with
  | update iv' => exact absurd pressed (one iv)
  | check iv' => exact one.elim
  | choose filePath fs =>
    refine still_app way (fun g effects hg => ?_) hs
    obtain ⟨-, hqueue, hsent⟩ := chosen hg
    exact ⟨hsent, hqueue ▸ way.queue⟩
  | handle fs =>
    refine still_app way (fun g effects hg => ?_) hs
    cases step_cases hg with
    | idle => exact ⟨rfl, way.queue⟩
    | handle _ msg queue r _ hqueue hr =>
      have hnone := way.queue
      rw [hqueue] at hnone
      have hidle : asks msg = false := Bool.eq_false_iff.mpr (List.filter_eq_nil_iff.mp hnone msg List.mem_cons_self)
      obtain rfl := handled_idle hidle hr
      rw [List.filter_cons_of_neg (by simp [hidle])] at hnone
      exact ⟨rfl, hnone⟩
  | flag =>
    refine still_app way (fun g effects hg => ?_) hs
    cases step_cases hg with
    | idle => exact ⟨rfl, way.queue⟩
    | flag => exact ⟨rfl, way.queue⟩
  | timeout =>
    obtain ⟨posts, hposts, rfl, rfl⟩ := timeout_cases hs
    refine ⟨⟨way.requests, way.replies, ?_⟩, sentOf_posted posts⟩
    rw [List.filter_append, way.queue, hposts]
    rfl
  | device env rest =>
    rcases device_cases hs with ⟨-, rfl, rfl⟩ | ⟨r, requests, hrequests, -⟩
    · exact ⟨way, rfl⟩
    · exact absurd (hrequests.symm.trans way.requests) (List.cons_ne_nil _ _)
  | reply =>
    rcases reply_cases hs with ⟨-, rfl, rfl⟩ | ⟨p, replies, a, posts, hreplies, -⟩
    · exact ⟨way, rfl⟩
    · exact absurd (hreplies.symm.trans way.replies) (List.cons_ne_nil _ _)

theorem still_run (way : OnTheWay s [] [] []) (pressed : .authentication iv ∈ sentOf past)
    (one : (link lib cipher).Meets (OneUpdate file) past s events)
    (hr : (link lib cipher).run s events = some (s', effects)) : sentOf (past ++ effects) = sentOf past := by
  have h := Faulting.run_of_meets (R := fun past' s => OnTheWay s [] [] [] ∧ sentOf past' = sentOf past) ?_
    ⟨way, rfl⟩ one hr
  · exact h.2
  · rintro past' s e s' effects ⟨way, hpast⟩ hone hs
    obtain ⟨way', hsent⟩ := still_step way (hpast ▸ pressed) hone hs
    exact ⟨way', by rw [sentOf_append, hsent, hpast, List.append_nil]⟩

/-- The ack of a block that is taken before `bDataSend` is written has nothing asked for. -/
theorem stage_late (h : Stage lib file False False past s) (late : ¬ AckTimely past s e)
    (hs : s.step lib cipher e = some (s', effects)) : OnTheWay s' [] [] [] ∧ sentOf effects = [] ∧
      ∃ (iv : Iv) (p : Position file), sentOf past = (Part.block p).sent iv := by
  cases e with
  | reply =>
    obtain ⟨iv, b, num, out, replies, hreplies, hdata⟩ : ∃ iv b num out replies,
        s.replies = ⟨.data iv b num, out⟩ :: replies ∧ s.gateway.activity.bDataSend ≠ true := by
      simpa only [AckTimely, not_forall, exists_prop] using late
    obtain ⟨a, posts, hr, rfl, rfl⟩ := link_reply hreplies hs
    cases h with
    | idle way => exact absurd (hreplies.symm.trans way.replies) (List.cons_ne_nil _ _)
    | asking _ _ way => exact absurd (hreplies.symm.trans way.replies) (List.cons_ne_nil _ _)
    | taken _ _ way => exact absurd (hreplies.symm.trans way.replies) (List.cons_ne_nil _ _)
    | reopened way => exact absurd (hreplies.symm.trans way.replies) (List.cons_ne_nil _ _)
    | ended way => exact absurd (hreplies.symm.trans way.replies) (List.cons_ne_nil _ _)
    | answered iv part out way during answered mem dev sent =>
      obtain ⟨hq, hrest⟩ := List.cons.inj (hreplies.symm.trans way.replies)
      cases part with
      | block p =>
        cases hq
        have hnone : posts = [] := by
          rcases reply_block during answered hr with ⟨-, hposts⟩ | ⟨-, ⟨-, hposts⟩ | ⟨htrue, -⟩⟩
          · exact hposts
          · exact hposts
          · exact absurd htrue hdata
        subst hnone
        refine ⟨⟨way.requests, hrest, ?_⟩, rfl, iv, p, sent⟩
        rw [List.append_nil]
        exact way.queue
      | auth => cases hq
      | crc p short => cases hq
      | exec p short => cases hq
  | _ => exact absurd trivial late

theorem late_run (h : Stage lib file False False past s)
    (one : (link lib cipher).Meets (OneUpdate file) past s events)
    (late : ¬ (link lib cipher).Meets AckTimely past s events)
    (hr : (link lib cipher).run s events = some (s', effects)) : .command .getCRC ∉ sentOf (past ++ effects) := by
  induction events generalizing past s effects with
  | nil => exact absurd trivial late
  | cons e events ih =>
    obtain ⟨s₁, effects₁, effects₂, hs, hrun, rfl⟩ := Faulting.of_run_cons hr
    rw [← List.append_assoc]
    by_cases timely : AckTimely past s e
    · refine ih (stage_step False.elim h one.1 (fun _ => timely) hs) (one.2 s₁ effects₁ hs) (fun hm => ?_) hrun
      exact late (.cons timely hs hm)
    · obtain ⟨way, hnone, iv, p, hsent⟩ := stage_late h timely hs
      have heq : sentOf (past ++ effects₁) = (Part.block p).sent iv := by
        rw [sentOf_append, hnone, hsent, List.append_nil]
      have pressed : .authentication iv.1 ∈ sentOf (past ++ effects₁) := heq ▸ mem_part_sent iv (.block p)
      rw [still_run way pressed (one.2 s₁ effects₁ hs) hrun, heq]
      exact getCRC_not_data iv p.blocks

end

-- ---------------------------------------------------------------------------
-- Whole uploads
-- ---------------------------------------------------------------------------

/-- For every file, however it is read, every device, and over every interleaving of the
app and the device, up to the point where nothing is under way: an upload of which every
frame was accepted is complete just when the ack of no block is taken before `bDataSend`
is written and the file ends with a short read. -/
theorem upload_complete (lib : GcmLib) (cipher : Cipher) (file : File) (d : Dev) (nonempty : file.reads ≠ [])
    (one : (link lib cipher).Meets (OneUpdate file) [] ⟨.onCreate, [], [], d⟩ events)
    (hr : (link lib cipher).run ⟨.onCreate, [], [], d⟩ events = some (s, effects)) (quiet : Quiet s)
    (pressed : ∃ iv, .authentication iv ∈ sentOf effects)
    (accepted : ∀ r out, .answered r out ∈ effects → (∀ c, r ≠ .command c) → out.ret = success) :
    Uploaded file.reads.flatten (sentOf effects) ↔
      (link lib cipher).Meets AckTimely [] ⟨.onCreate, [], [], d⟩ events ∧ EndsShort file := by
  by_cases timely : (link lib cipher).Meets AckTimely [] ⟨.onCreate, [], [], d⟩ events
  · rw [and_iff_right timely]
    have hstage : Stage lib file False False ([] ++ effects) s := by
      refine Faulting.run_of_meets ?_ (stage_start d) (one.and timely) hr
      exact fun past s e s' effects h hcond hs => stage_step False.elim h hcond.1 (fun _ => hcond.2) hs
    have ended : Ended file False effects := by
      cases hstage with
      | ended _ ended => exact ended
      | idle _ _ sent =>
        obtain ⟨iv, hmem⟩ := pressed
        exact absurd (sent ▸ hmem) List.not_mem_nil
      | asking _ _ way => exact absurd (quiet.requests.symm.trans way.requests).symm (List.cons_ne_nil _ _)
      | answered _ _ _ way => exact absurd (quiet.replies.symm.trans way.replies).symm (List.cons_ne_nil _ _)
      | taken _ _ way => exact absurd (quiet.queue.symm.trans way.queue).symm (List.cons_ne_nil _ _)
      | reopened way => exact absurd (quiet.queue.symm.trans way.queue).symm (List.cons_ne_nil _ _)
    cases ended with
    | refused iv r out answered ret kind => exact absurd (ret.symm.trans (accepted r out answered kind)) (by decide)
    | late h => exact h.elim
    | empty _ reads => exact absurd reads nonempty
    | exhausted iv whole sent =>
      refine iff_of_false (fun h => ?_) ?_
      · exact getCRC_not_data iv file.reads (sent ▸ h.getCRC)
      · rintro ⟨p, short, -⟩
        have hmem : p.c ∈ file.reads := by
          rw [p.reads]
          exact List.mem_append_right _ List.mem_cons_self
        exact absurd (whole p.c hmem) (Nat.ne_of_lt short)
    | checked iv p short tail sent htail =>
      rw [← blocks_whole p short]
      constructor
      · rintro ⟨iv', blocks, tail', hsent, htail', hblocks⟩
        have hsame := congrArg plaintexts (hsent.symm.trans sent)
        rw [plaintexts_sent htail', plaintexts_sent htail] at hsame
        exact hsame ▸ hblocks
      · exact fun hblocks => ⟨iv, p.blocks, tail, sent, htail, hblocks⟩
  · refine iff_of_false (fun h => ?_) (fun h => timely h.1)
    exact late_run (stage_start d) one timely hr h.getCRC

theorem run_finished {a : Activity} {d : Dev} (data : a.bDataSend = false) (command : a.bCommandSend = true)
    (getVersion : a.bCommandGetverison = false) (auth : d.isAuthenticated = true) : ∃ events s effects,
    (link gcmMemory aesGcmNoPadding).run ⟨⟨a, [], none⟩, [.command .getCRC], [], d⟩ events = some (s, effects) ∧
      Quiet s ∧ (∀ e ∈ events, Unpressed markedFile e) ∧ (∀ r ∈ sentOf effects, r = .command .exeFirmware) ∧
      ∀ r out, .answered r out ∈ effects → ∃ c, r = .command c := by
  have h1 := link_device (s := ⟨⟨a, [], none⟩, [.command .getCRC], [], d⟩) sampleEnv (fun _ => 0) gcmMemory
    aesGcmNoPadding rfl (handle_generateCommandFrame gcmMemory sampleEnv (fun _ => 0) .getCRC auth)
  obtain ⟨posts, hr, hposts⟩ := received_quiet data getVersion (uHtonl (flashCrc d))
  have h2 := link_taken (s := ⟨⟨a, [], none⟩, [], [⟨.command .getCRC, ⟨success, uHtonl (flashCrc d), []⟩⟩], d⟩)
    gcmMemory aesGcmNoPadding rfl hr
  let events : List LinkEvent := [.device sampleEnv fun _ => 0, .reply]
  have hcalm : ∀ e ∈ events, Unpressed markedFile e := by simp [events, Unpressed]
  rcases hposts with rfl | rfl | rfl
  · refine ⟨events, _, _, Faulting.run_cons h1 (Faulting.run_cons h2 rfl), ⟨rfl, rfl, rfl⟩, hcalm, ?_, by simp⟩
    exact fun r hmem => absurd hmem List.not_mem_nil
  · have hover : passMsg a = .updateOver := by simp [passMsg, command]
    rw [hover] at h2
    refine ⟨events, _, _, Faulting.run_cons h1 (Faulting.run_cons h2 rfl), ⟨rfl, rfl, rfl⟩, hcalm, ?_, by simp⟩
    exact fun r hmem => absurd hmem List.not_mem_nil
  · have h3 : Link.step gcmMemory aesGcmNoPadding ⟨⟨a, [.transfer2NewFirmware], none⟩, [], [], d⟩ (.handle markedFs) =
      some (⟨⟨a, [], some .commandSend⟩, [.command .exeFirmware], [], d⟩, [.app (.sent (.command .exeFirmware))]) := rfl
    let b : Activity := a.set .commandSend
    have h4 : Link.step gcmMemory aesGcmNoPadding ⟨⟨a, [], some .commandSend⟩, [.command .exeFirmware], [], d⟩ .flag =
      some (⟨⟨b, [], none⟩, [.command .exeFirmware], [], d⟩, []) := rfl
    have h5 := link_device (s := ⟨⟨b, [], none⟩, [.command .exeFirmware], [], d⟩) sampleEnv (fun _ => 0) gcmMemory
      aesGcmNoPadding rfl (handle_generateCommandFrame gcmMemory sampleEnv (fun _ => 0) .exeFirmware auth)
    have hpass : b.messageReceived (generateAckFrame (uHtonl commandFramePass)) = some (b, [.updateOver]) :=
      received_pass b
    have h6 := link_taken (s := ⟨⟨b, [], none⟩, [], [⟨.command .exeFirmware,
      ⟨success, uHtonl commandFramePass, [.switchingTimerStart]⟩⟩],
      switchingTimerStart codeSwitchingInterval .codeSwitching sampleEnv.now d⟩) gcmMemory aesGcmNoPadding rfl hpass
    refine ⟨events ++ [.handle markedFs, .flag, .device sampleEnv fun _ => 0, .reply], _, _,
      Faulting.run_cons h1 (Faulting.run_cons h2 (Faulting.run_cons h3 (Faulting.run_cons h4
        (Faulting.run_cons h5 (Faulting.run_cons h6 rfl))))), ⟨rfl, rfl, rfl⟩, ?_, ?_, ?_⟩
    · simp [events, Unpressed, markedFs]
    · exact fun r hmem => List.mem_singleton.mp hmem
    · intro r out hmem
      simp at hmem
      rcases hmem with ⟨rfl, -⟩ | ⟨rfl, -⟩ <;> exact ⟨_, rfl⟩

/-- A file of one short block. -/
theorem upload_complete_marked : ∃ events s effects,
    (link gcmMemory aesGcmNoPadding).run started events = some (s, effects) ∧
      Uploaded markedFile.reads.flatten (sentOf effects) ∧
      (link gcmMemory aesGcmNoPadding).Meets AckTimely [] started events ∧ EndsShort markedFile := by
  obtain ⟨a, d, asked, hrun, ⟨data, command, getVersion, -⟩, ⟨auth, -⟩, sent, accepted⟩ := run_crcAsked
  obtain ⟨events, s, effects, hrest, quiet, hcalm, tail, answers⟩ := run_finished data command getVersion auth
  have hr := Faulting.run_append hrun hrest
  have one : (link gcmMemory aesGcmNoPadding).Meets (OneUpdate markedFile) [] started (crcAsked ++ events) := by
    refine oneUpdate_chosen fun e he => ?_
    rcases List.mem_append.mp he with he | he
    · have hasked : ∀ e ∈ crcAsked.drop 2, Unpressed markedFile e := by
        simp [crcAsked, firstBlock, Unpressed, markedFs]
      exact hasked e he
    · exact hcalm e he
  have hsent : sentOf (asked ++ effects) = .authentication sampleIv :: dataRequests sampleIv [padded markedBlock] ++
      .command .getCRC :: sentOf effects := by
    rw [sentOf_append, sent]
    rfl
  have hpad : 1024 - markedBlock.length = (1024 - markedBlock.length % 1024) % 1024 := by decide
  have hflat : [padded markedBlock].flatten = padFile markedFile.reads.flatten := by
    rw [markedFile, List.flatten_singleton, List.flatten_singleton, padded, padFile, hpad]
  have complete : Uploaded markedFile.reads.flatten (sentOf (asked ++ effects)) :=
    ⟨⟨sampleIv, rfl⟩, [padded markedBlock], sentOf effects, hsent, tail, rfl, hflat⟩
  refine ⟨_, s, _, hr, complete, (upload_complete gcmMemory aesGcmNoPadding markedFile (boot 0 blankFlash)
    (List.cons_ne_nil _ _) one hr quiet ⟨sampleIv, ?_⟩ ?_).mp complete⟩
  · rw [hsent]
    exact List.mem_cons_self
  · intro r out hmem kind
    rcases List.mem_append.mp hmem with hmem | hmem
    · exact accepted r out hmem
    · obtain ⟨c, rfl⟩ := answers r out hmem
      exact absurd rfl (kind c)

-- ---------------------------------------------------------------------------
-- A file of one full block
-- ---------------------------------------------------------------------------

theorem run_fullBlock {file : File} (marked : file.marked = true) (hreads : file.reads = [c]) (full : c.length = 1024) :
    ∃ d effects, (link gcmMemory aesGcmNoPadding).run started
        (firstBlock (fun _ => some file) ++ [.handle fun _ => some file]) =
        some (⟨⟨blockTaken file c, [], none⟩, [], [], d⟩, effects) ∧
      d.cryptoIdx ≠ -1 ∧
      sentOf effects = .authentication sampleIv :: dataRequests sampleIv [padded c] ∧
      ∀ r out, .answered r out ∈ effects → out.ret = success := by
  let fs : Path → Option File := fun _ => some file
  obtain ⟨d, effects, hrun, -, idx, sent, accepted⟩ := run_firstBlock marked hreads
  let a := blockTaken file c
  have hne : file.reads ≠ [] := hreads ▸ List.cons_ne_nil _ _
  have hsize : a.mFilesize ≠ 0 := Activity.filesize_ne_zero hne
  have hover : a.bFileReadOver = false := decide_eq_false (full ▸ Nat.lt_irrefl _)
  have hhandled : a.handleMessage fs .continueData = _ := Activity.handle_continueData hsize hover
  rw [Activity.sendBlock_nil rfl] at hhandled
  have h := link_handle (s := ⟨⟨a, [.continueData], none⟩, [], [], d⟩) gcmMemory aesGcmNoPadding rfl rfl hhandled
  refine ⟨d, _, Faulting.run_append hrun (Faulting.run_cons h rfl), idx, ?_, ?_⟩
  · rw [sentOf_append, sent]
    rfl
  · simpa using accepted

def fullFile : File where
  reads := [markedBlock ++ List.replicate 994 0]
  bounded := by
    intro c hc
    obtain rfl := List.mem_singleton.mp hc
    rw [List.length_append, List.length_replicate]
    exact ⟨by decide, by decide⟩

theorem fullFile_marked : fullFile.marked = true := by
  have hget : ∀ (l : List Byte) (i : Nat), i < 30 → ((markedBlock ++ List.replicate 994 0) ++ l)[i]? = markedBlock[i]? := by
    intro l i hi
    rw [List.append_assoc, List.getElem?_append_left hi]
  simp only [File.marked, fullFile, hget _ 28 (by decide), hget _ 29 (by decide)]
  decide

theorem fullBlock_length : (markedBlock ++ List.replicate 994 0).length = 1024 := by
  rw [List.length_append, List.length_replicate]
  rfl

/-- All its bytes are sent and accepted, and the CRC is never asked for. -/
theorem full_block_stalls : ∃ events s effects,
    (link gcmMemory aesGcmNoPadding).Meets (OneUpdate fullFile) [] started events ∧
      (link gcmMemory aesGcmNoPadding).run started events = some (s, effects) ∧ Quiet s ∧
      (∃ iv, .authentication iv ∈ sentOf effects) ∧
      (∀ r out, .answered r out ∈ effects → out.ret = success) ∧
      ¬ Uploaded fullFile.reads.flatten (sentOf effects) := by
  obtain ⟨d, effects, hr, -, sent, accepted⟩ := run_fullBlock fullFile_marked rfl fullBlock_length
  refine ⟨_, _, effects, oneUpdate_chosen ?_, hr, ⟨rfl, rfl, rfl⟩, ⟨sampleIv, ?_⟩, accepted, fun complete => ?_⟩
  · simp [Unpressed]
  · exact sent ▸ List.mem_cons_self
  · exact getCRC_not_data ⟨sampleIv, rfl⟩ _ (sent ▸ complete.getCRC)

end EthernetOta.System
