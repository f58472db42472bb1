import EthernetOta.System.Upload

/-!
# "Update OK"

A status 0 is the answer to an authentication, to an `EXEC`, and to a `GET_CRC` for
an image with the CRC 0xFFFF0000. The app takes each of them for the answer to an
`EXEC` from the first command after the blocks on: `bCommandSend` is never cleared.
-/

namespace EthernetOta.System

open Firmware App

-- ---------------------------------------------------------------------------
-- Where messages are posted
-- ---------------------------------------------------------------------------

theorem handled_posts {a : Activity} {fs : Path → Option File} {r : Activity.Handled}
    (h : a.handleMessage fs msg = some r) : .posted posted ∉ r.effects := by
  have hblock : ∀ b : Activity, .posted posted ∉ b.sendBlock.2 := by
    intro b
    obtain ⟨_, _, _, _, effects, heq, -, rfl | ⟨-, iv, plaintext, num, rfl⟩⟩ := Activity.sendBlock_cases b <;>
      simp [heq]
  cases msg with
  | sendDataFrame =>
    simp only [Activity.handleMessage] at h
    split at h
    · obtain rfl := Option.some.inj h
      exact List.not_mem_nil
    · obtain rfl := Option.some.inj h
      rintro (_ | ⟨_, hmem⟩)
      exact hblock _ hmem
  | continueData =>
    simp only [Activity.handleMessage] at h
    split at h
    · exact absurd h.symm (Option.some_ne_none _)
    · split at h
      · split at h
        · obtain rfl := Option.some.inj h
          exact List.not_mem_nil
        · obtain rfl := Option.some.inj h
          simp
      · obtain rfl := Option.some.inj h
        exact hblock _
  | sendGetVersion =>
    obtain rfl := Option.some.inj h
    simp
  | transfer2NewFirmware =>
    obtain rfl := Option.some.inj h
    simp
  | updateOver =>
    obtain rfl := Option.some.inj h
    exact List.not_mem_nil
  | displayVersion =>
    obtain rfl := Option.some.inj h
    exact List.not_mem_nil
  | connectionLost =>
    obtain rfl := Option.some.inj h
    exact List.not_mem_nil

theorem posted_received {g : Gateway} (h : g.step e = some (g', effects)) (hmem : .posted msg ∈ effects) :
    ∃ message a posts, e = .received message ∧ g.activity.messageReceived message = some (a, posts) ∧
      effects = posts.map .posted := by
  cases step_cases h with
  | handle fs msg queue r _ _ handled => exact absurd hmem (handled_posts handled)
  | received message a posts hr => exact ⟨message, a, posts, rfl, hr, rfl⟩
  | _ => simp at hmem

-- ---------------------------------------------------------------------------
-- The ack "Update OK" follows
-- ---------------------------------------------------------------------------

theorem acked_updateOver (a : Activity) (b0 b1 b2 b3 : Byte) : .updateOver ∈ (acked a b0 b1 b2 b3).2 ↔
    a.bCommandSend = true ∧ b0 = 0xFF ∧ b1 = 0xFF ∧ b2 = 0 ∧ b3 = 0 := by
  by_cases hstatus : b0 = 0xFF ∧ b1 = 0xFF
  · obtain ⟨rfl, rfl⟩ := hstatus
    by_cases hpass : b2 = 0 ∧ b3 = 0
    · obtain ⟨rfl, rfl⟩ := hpass
      cases hcommand : a.bCommandSend <;> cases hupdate : a.bUpdate <;> simp [acked, hcommand, hupdate]
    · have hnone : (acked a 0xFF 0xFF b2 b3).2 = [] := by rw [acked, if_pos ⟨rfl, rfl⟩, if_neg hpass]
      rw [hnone]
      exact iff_of_false List.not_mem_nil fun h => hpass ⟨h.2.2.2.1, h.2.2.2.2⟩
  · simp only [acked, if_neg hstatus]
    constructor
    · cases a.bDataSend <;> cases a.bCommandGetverison <;> simp
    · exact fun h => absurd ⟨h.2.1, h.2.2.1⟩ hstatus

theorem ack_pass (ack : Word) : ack = uHtonl commandFramePass ↔ ack.extractLsb' 0 8 = 0xFF ∧
    ack.extractLsb' 8 8 = 0xFF ∧ ack.extractLsb' 16 8 = 0 ∧ ack.extractLsb' 24 8 = 0 := by
  have hpass : uHtonl commandFramePass = 0x0000FFFF#32 := by decide
  have hlt := ack.isLt
  rw [hpass, ← BitVec.toNat_inj, ← BitVec.toNat_inj, ← BitVec.toNat_inj, ← BitVec.toNat_inj, ← BitVec.toNat_inj]
  simp only [BitVec.extractLsb'_toNat, Nat.shiftRight_eq_div_pow, BitVec.ofNat_eq_ofNat, BitVec.toNat_ofNat]
  omega

theorem received_updateOver (a : Activity) (ack : Word) : ∃ a' posts,
    a.messageReceived (generateAckFrame ack) = some (a', posts) ∧
      (.updateOver ∈ posts ↔ a.bCommandSend = true ∧ ack = uHtonl commandFramePass) := by
  rw [generateAckFrame_eq, ack_pass]
  exact ⟨_, _, messageReceived_ackMessage a _ _ _ _, acked_updateOver a _ _ _ _⟩

/-- A status 0 that does not answer an `EXEC`. -/
inductive Mistakable (p : Reply) : Prop
  | authentication (iv : List Byte) (request : p.request = .authentication iv) (ret : p.out.ret = success)
  | crc (request : p.request = .command .getCRC) (ack : p.out.ack = uHtonl commandFramePass)

structure Switched (p : Reply) : Prop where
  request : p.request = .command .exeFirmware
  ret : p.out.ret = success
  timer : .switchingTimerStart ∈ p.out.effects

theorem Answered.ack_pass {p : Reply} (h : Answered p.request p.out) :
    p.out.ack = uHtonl commandFramePass ↔ Switched p ∨ Mistakable p := by
  obtain ⟨request, out⟩ := p
  have hfail : failure ≠ success := by decide
  cases h with
  | refused _ code hcode _ ret message =>
    have hne : out.ack ≠ uHtonl commandFramePass := by
      intro hack
      have hpass : generateAckFrame (uHtonl commandFramePass) = ackMessage 0xFF 0xFF 0 0 := by decide
      have hlast := congrArg (·[13]?) (message.symm.trans ((congrArg generateAckFrame hack).trans hpass))
      exact hcode (Option.some.inj hlast)
    refine iff_of_false hne ?_
    rintro (⟨-, hret, -⟩ | ⟨-, -, hret⟩ | ⟨-, hack⟩)
    · exact hfail (ret.symm.trans hret)
    · exact hfail (ret.symm.trans hret)
    · exact hne hack
  | passed iv =>
    have hstatus : uHtonl authenticatedPass = uHtonl commandFramePass := by decide
    exact iff_of_true hstatus (.inr (.authentication iv rfl rfl))
  | stored iv plaintext num b2 b3 _ ret message =>
    have hne : out.ack ≠ uHtonl commandFramePass := by
      intro hack
      have hpass : generateAckFrame (uHtonl commandFramePass) = ackMessage 0xFF 0xFF 0 0 := by decide
      have hfirst := congrArg (·[10]?) (message.symm.trans ((congrArg generateAckFrame hack).trans hpass))
      exact absurd (Option.some.inj hfirst) (by decide)
    refine iff_of_false hne ?_
    rintro (⟨hreq, -, -⟩ | ⟨_, hreq, -⟩ | ⟨hreq, -⟩) <;> cases hreq
  | version =>
    have hne : uHtonl appVersion ≠ uHtonl commandFramePass := by decide
    refine iff_of_false hne ?_
    rintro (⟨hreq, -, -⟩ | ⟨_, hreq, -⟩ | ⟨hreq, -⟩) <;> cases hreq
  | crc w =>
    constructor
    · exact fun hack => .inr (.crc rfl hack)
    · rintro (⟨hreq, -, -⟩ | ⟨_, hreq, -⟩ | ⟨-, hack⟩)
      · cases hreq
      · cases hreq
      · exact hack
  | exec => exact iff_of_true rfl (.inl ⟨rfl, rfl, List.mem_singleton_self _⟩)

theorem Mistakable.not_switched {p : Reply} (h : Mistakable p) : ¬ Switched p := by
  rintro ⟨hreq, -, -⟩
  cases h with
  | authentication _ request => cases request.symm.trans hreq
  | crc request => cases request.symm.trans hreq

-- ---------------------------------------------------------------------------
-- Runs
-- ---------------------------------------------------------------------------

/-- `UPDATEOVER` is posted only when the ack of an `EXEC` is taken that the device
accepted, and with which it started its switching timer. -/
def Reported (lib : GcmLib) (cipher : Cipher) (past : List LinkEffect) (s : Link) (e : LinkEvent) : Prop :=
  ∀ s' effects, s.step lib cipher e = some (s', effects) → .app (.posted .updateOver) ∈ effects →
    ∃ p : Reply, .taken p.request p.out ∈ effects ∧ .answered p.request p.out ∈ past ∧ Switched p

/-- From the first `GET_CRC` on, no authentication passes, and no image has the CRC 0xFFFF0000. -/
def Attributed (_ : List LinkEffect) (s : Link) : LinkEvent → Prop
  | .reply => ∀ p replies, s.replies = p :: replies → s.gateway.activity.bCommandSend = true → ¬ Mistakable p
  | _ => True

def Genuine (past : List LinkEffect) (s : Link) : Prop :=
  ∀ p ∈ s.replies, Answered p.request p.out ∧ .answered p.request p.out ∈ past

section
variable {s s' : Link} {past : List LinkEffect}

theorem Genuine.app (h : Genuine past s) (hs : s.app e = some (s', effects)) : Genuine (past ++ effects) s' := by
  obtain ⟨g, ge, -, rfl, rfl⟩ := link_app hs
  exact fun p hp => ⟨(h p hp).1, List.mem_append_left _ (h p hp).2⟩

theorem genuine_step (h : Genuine past s) (hs : s.step lib cipher e = some (s', effects)) :
    Genuine (past ++ effects) s' := by
  cases e with
  | update iv => exact h.app hs
  | check iv => exact h.app hs
  | choose filePath fs => exact h.app hs
  | handle fs => exact h.app hs
  | flag => exact h.app hs
  | timeout => exact h.app hs
  | device env rest =>
    rcases device_cases hs with ⟨-, rfl, rfl⟩ | ⟨r, requests, -, rfl, rfl⟩
    · exact fun p hp => ⟨(h p hp).1, List.mem_append_left _ (h p hp).2⟩
    · intro p hp
      rcases List.mem_append.mp hp with hp | hp
      · exact ⟨(h p hp).1, List.mem_append_left _ (h p hp).2⟩
      · obtain rfl := List.mem_singleton.mp hp
        exact ⟨answered lib cipher env s.dev r rest, List.mem_append_right _ List.mem_cons_self⟩
  | reply =>
    rcases reply_cases hs with ⟨-, rfl, rfl⟩ | ⟨q, replies, a, posts, hreplies, -, rfl, -⟩
    · exact fun p hp => ⟨(h p hp).1, List.mem_append_left _ (h p hp).2⟩
    · intro p hp
      have hmem : p ∈ s.replies := by
        rw [hreplies]
        exact List.mem_cons_of_mem _ hp
      exact ⟨(h p hmem).1, List.mem_append_left _ (h p hmem).2⟩

theorem app_updateOver (hs : s.app e = some (s', effects)) (hmem : .app (.posted .updateOver) ∈ effects) :
    ∃ message a posts, e = .received message ∧ s.gateway.activity.messageReceived message = some (a, posts) ∧
      .updateOver ∈ posts := by
  obtain ⟨g, ge, hg, -, rfl⟩ := link_app hs
  obtain ⟨ge', hge, heq⟩ := List.mem_map.mp hmem
  obtain rfl := LinkEffect.app.inj heq
  obtain ⟨message, a, posts, rfl, hr, rfl⟩ := posted_received hg hge
  exact ⟨message, a, posts, rfl, hr, by simpa using hge⟩

theorem reported_silent (he : e ≠ .reply) (past : List LinkEffect) : Reported lib cipher past s e := by
  intro s' effects hs hmem
  have happ : ∀ ge, (∀ message, ge ≠ .received message) → s.app ge = some (s', effects) → False := by
    intro ge hne happ
    obtain ⟨message, -, -, heq, -⟩ := app_updateOver happ hmem
    exact hne message heq
  cases e with
  | update iv => exact (happ _ (fun _ h => by cases h) hs).elim
  | check iv => exact (happ _ (fun _ h => by cases h) hs).elim
  | choose filePath fs => exact (happ _ (fun _ h => by cases h) hs).elim
  | handle fs => exact (happ _ (fun _ h => by cases h) hs).elim
  | flag => exact (happ _ (fun _ h => by cases h) hs).elim
  | timeout =>
    obtain ⟨message, a, posts, heq, hr, hpost⟩ := app_updateOver hs hmem
    obtain rfl := GatewayEvent.received.inj heq
    rw [received_timeout] at hr
    obtain ⟨-, rfl⟩ := Prod.mk.inj (Option.some.inj hr)
    cases hdata : s.gateway.activity.bDataSend <;> simp [hdata] at hpost
  | device env rest =>
    rcases device_cases hs with ⟨-, -, rfl⟩ | ⟨r, requests, -, -, rfl⟩
    · cases hmem
    · cases List.mem_singleton.mp hmem
  | reply => exact absurd rfl he

theorem reported_iff (h : Genuine past s) (e : LinkEvent) : Reported lib cipher past s e ↔ Attributed past s e := by
  cases e with
  | reply =>
    constructor
    · intro hrep p replies hreplies hcommand hmis
      have hmem : p ∈ s.replies := by
        rw [hreplies]
        exact List.mem_cons_self
      obtain ⟨a, posts, hr, hover⟩ := received_updateOver s.gateway.activity p.out.ack
      have hack := (h p hmem).1.ack_pass.mpr (.inr hmis)
      have hpost : .app (.posted .updateOver) ∈
          LinkEffect.taken p.request p.out :: posts.map fun msg => .app (.posted msg) := by
        simpa using hover.mpr ⟨hcommand, hack⟩
      obtain ⟨q, htaken, -, hsw⟩ := hrep _ _ (link_taken lib cipher hreplies hr) hpost
      rcases List.mem_cons.mp htaken with heq | htaken
      · obtain ⟨hreq, hout⟩ := LinkEffect.taken.inj heq
        exact hmis.not_switched ⟨hreq ▸ hsw.request, hout ▸ hsw.ret, hout ▸ hsw.timer⟩
      · simp at htaken
    · intro hatt s' effects hs hmem
      rcases reply_cases hs with ⟨-, -, rfl⟩ | ⟨p, replies, a, posts, hreplies, hr, -, rfl⟩
      · cases hmem
      · have hin : p ∈ s.replies := by
          rw [hreplies]
          exact List.mem_cons_self
        obtain ⟨a', posts', hr', hover⟩ := received_updateOver s.gateway.activity p.out.ack
        obtain ⟨-, rfl⟩ := Prod.mk.inj (Option.some.inj (hr'.symm.trans hr))
        have hpost : .updateOver ∈ posts' := by simpa using hmem
        obtain ⟨hcommand, hack⟩ := hover.mp hpost
        refine ⟨p, List.mem_cons_self, (h p hin).2, ?_⟩
        rcases (h p hin).1.ack_pass.mp hack with hsw | hmis
        · exact hsw
        · exact absurd hmis (hatt p replies hreplies hcommand)
  | _ => exact iff_of_true (reported_silent (by simp) past) trivial

end

/-- Whatever the device is, and over every interleaving of it and the app: "Update OK"
is reported for an `EXEC` that was accepted in just those runs in which, from the first
`GET_CRC` on, the app takes no other status 0. -/
theorem update_over (lib : GcmLib) (cipher : Cipher) (d : Dev) (events : List LinkEvent) :
    (link lib cipher).Meets (Reported lib cipher) [] ⟨.onCreate, [], [], d⟩ events ↔
      (link lib cipher).Meets Attributed [] ⟨.onCreate, [], [], d⟩ events := by
  have hany : (link lib cipher).Meets (fun _ _ _ => True) [] ⟨.onCreate, [], [], d⟩ events := Faulting.meets_true events
  refine Faulting.meets_iff (R := Genuine) ?_ ?_ hany
  · intro past s e h _
    exact ⟨reported_iff h e, fun _ s' effects hs => genuine_step h hs⟩
  · exact fun p hp => absurd hp List.not_mem_nil

-- ---------------------------------------------------------------------------
-- Update pressed again
-- ---------------------------------------------------------------------------

def crcAsked : List LinkEvent := firstBlock markedFs ++ [.handle markedFs, .flag]

theorem run_crcAsked : ∃ a d effects, (link gcmMemory aesGcmNoPadding).run started crcAsked =
      some (⟨⟨a, [], none⟩, [.command .getCRC], [], d⟩, effects) ∧
    (a.bDataSend = false ∧ a.bCommandSend = true ∧ a.bCommandGetverison = false ∧ a.bFileFormat = true) ∧
    (d.isAuthenticated = true ∧ d.cryptoIdx ≠ -1) ∧
    sentOf effects = [.authentication sampleIv, .data sampleIv (Activity.padded markedBlock) 0, .command .getCRC] ∧
    ∀ r out, .answered r out ∈ effects → out.ret = success := by
  obtain ⟨d, effects, hrun, auth, idx, sent, accepted⟩ := run_firstBlock markedFile_marked rfl
  let a := blockTaken markedFile markedBlock
  have hover : a.handleMessage markedFs .continueData = _ := Activity.handle_over (by decide) rfl rfl
  have h := link_handle (s := ⟨⟨a, [.continueData], none⟩, [], [], d⟩) gcmMemory aesGcmNoPadding rfl rfl hover
  refine ⟨_, d, _, Faulting.run_append hrun (Faulting.run_cons h (Faulting.run_cons rfl rfl)), ⟨rfl, rfl, rfl, rfl⟩,
    ⟨auth, idx⟩, ?_, fun r out hmem => ?_⟩
  · rw [sentOf_append, sent]
    rfl
  · rcases List.mem_append.mp hmem with hmem | hmem
    · exact accepted r out hmem
    · simp at hmem

/-- Update is pressed again before the CRC has come: that the device authenticates the
app is reported as an update. -/
theorem update_over_early : ¬ (link gcmMemory aesGcmNoPadding).Meets (Reported gcmMemory aesGcmNoPadding) [] started
    (crcAsked ++ ([.update ⟨sampleIv, rfl⟩, .device sampleEnv fun _ => 0, .device sampleEnv fun _ => 0, .reply] ++
      [.reply])) := by
  obtain ⟨a, d, effects, hrun, ⟨-, hcommand, -, hformat⟩, ⟨auth, hidx⟩, -⟩ := run_crcAsked
  let b : Activity := { a with bUpdate := true, randomIv := sampleIv }
  let crc : Reply := ⟨.command .getCRC, ⟨success, uHtonl (flashCrc d), []⟩⟩
  let pass : Reply := ⟨.authentication sampleIv, ⟨success, uHtonl authenticatedPass, []⟩⟩
  have h1 : Link.step gcmMemory aesGcmNoPadding ⟨⟨a, [], none⟩, [.command .getCRC], [], d⟩
      (.update ⟨sampleIv, rfl⟩) = some (⟨⟨b, [], none⟩, [.command .getCRC, .authentication sampleIv], [], d⟩,
        [.app (.sent (.authentication sampleIv))]) := by
    simp [Link.step, Link.app, Gateway.step, Activity.onClickUpdate, hformat, Activity.sendAuthenticationFrame,
      sentIn, b]
  have h2 := link_device (s := ⟨⟨b, [], none⟩, [.command .getCRC, .authentication sampleIv], [], d⟩) sampleEnv
    (fun _ => 0) gcmMemory aesGcmNoPadding rfl
    (handle_generateCommandFrame gcmMemory sampleEnv (fun _ => 0) .getCRC auth)
  obtain ⟨p, g, h3⟩ := link_authentication (s := ⟨⟨b, [], none⟩, [.authentication sampleIv], [crc], d⟩)
    sampleEnv (fun _ => 0) aesGcm_sameTag ⟨sampleIv, rfl⟩ hidx rfl rfl
  generalize hd : upgradeStart { d.scratch p g with cryptoIv := sampleIv } = d' at h3
  -- whatever the CRC is, the flags that tell one status from another stay as they are
  obtain ⟨c, posts, hr, -⟩ := received_updateOver b crc.out.ack
  obtain ⟨e, v, w, -, hc⟩ := messageReceived_fields hr
  have h4 := link_taken (s := ⟨⟨b, [], none⟩, [], [crc, pass], d'⟩) gcmMemory aesGcmNoPadding rfl hr
  have hpass : passMsg c = .updateOver := by simp [passMsg, hc, b, hcommand]
  have h5 := link_taken (s := ⟨⟨c, posts, none⟩, [], [pass], d'⟩) gcmMemory aesGcmNoPadding rfl (received_pass c)
  intro hmeets
  rw [← List.append_assoc] at hmeets
  have hrep := hmeets.last (Faulting.run_append hrun (Faulting.run_cons h1 (Faulting.run_cons h2
    (Faulting.run_cons h3 (Faulting.run_cons h4 rfl)))))
  obtain ⟨q, htaken, -, hsw⟩ := hrep _ _ h5 (by simp [hpass])
  rcases List.mem_cons.mp htaken with heq | htaken
  · cases (LinkEffect.taken.inj heq).1.symm.trans hsw.request
  · simp at htaken

end EthernetOta.System
