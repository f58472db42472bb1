import EthernetOta.Firmware.Branches

/-!
# The authentication gate

A session is opened by an authentication frame with the right tag and by
nothing else, and everything an upgrade does needs an open session.
-/

namespace EthernetOta.Firmware

variable {lib : GcmLib}

abbrev UpgradeTurn := Turn Dev Frame Out

-- ---------------------------------------------------------------------------
-- What a turn is
-- ---------------------------------------------------------------------------

/-- An authentication frame whose tag bytes are the right ones was accepted. -/
structure Accepted (lib : GcmLib) (t : UpgradeTurn) : Prop where
  type : frameType t.input.buffer = authenticatedFrame
  tag : aadTag lib (authIv t.input.buffer) = authTag t.input.buffer
  out : t.out = ⟨success, uHtonl authenticatedPass, []⟩

inductive SessionEnding (t : UpgradeTurn) : Prop
  | authFail (type : frameType t.input.buffer = authenticatedFrame) (out : t.out = .fail authenticatedFail)
  /-- A number above `MAX_SEQ_NUM` is refused before it is compared, and ends nothing. -/
  | seqMismatch (type : frameType t.input.buffer = dataFrame)
    (seq_le : (frameSeq t.input.buffer).toNat ≤ maxSeqNum) (out : t.out = .fail dataFrameSeqErr)
  | flash (type : frameType t.input.buffer = dataFrame) (ret : t.out.ret = failure)
    (ack : t.out.ack = uHtonl dataFrameFlashWrErr)

/-- What only an open session may do. -/
inductive Gated (t : UpgradeTurn) : Prop
  | command (c : EfcCmd) (mem : .command c ∈ t.out.effects)
  | prePktSeq (change : t.post.prePktSeq ≠ t.pre.prePktSeq) (away : t.post.prePktSeq ≠ -1)
  | fileLen (change : t.post.fileLen ≠ t.pre.fileLen) (away : t.post.fileLen ≠ 0)
  | version (ack : t.out.ack = uHtonl appVersion)
  | crc (ret : t.out.ret = success) (ack : t.out.ack = uHtonl (flashCrc t.pre))
  | timer (mem : .switchingTimerStart ∈ t.out.effects)

structure Untouched (t : UpgradeTurn) : Prop where
  isAuthenticated : t.post.isAuthenticated = t.pre.isAuthenticated
  prePktSeq : t.post.prePktSeq = t.pre.prePktSeq
  fileLen : t.post.fileLen = t.pre.fileLen
  flash : t.post.flash = t.pre.flash
  switchingTimer : t.post.switchingTimer = t.pre.switchingTimer
  switchingTimerPoll : t.post.switchingTimerPoll = t.pre.switchingTimerPoll

theorem not_sessionEnding_of_success {t : UpgradeTurn} (h : t.out.ret = success) :
    ¬ SessionEnding t := by
  have hne : ¬ success = failure := by decide
  rintro (⟨-, out⟩ | ⟨-, -, out⟩ | ⟨-, ret, -⟩)
  · exact hne (h.symm.trans (congrArg Out.ret out))
  · exact hne (h.symm.trans (congrArg Out.ret out))
  · exact hne (h.symm.trans ret)

theorem not_sessionEnding_of_ack {t : UpgradeTurn} (h : t.out.ack = uHtonl a)
    (hne : uHtonl a ∉ [uHtonl authenticatedFail, uHtonl dataFrameSeqErr, uHtonl dataFrameFlashWrErr]) :
    ¬ SessionEnding t := by
  simp only [List.mem_cons, List.not_mem_nil, or_false, not_or] at hne
  rintro (⟨-, out⟩ | ⟨-, -, out⟩ | ⟨-, -, ack⟩)
  · exact hne.1 (h.symm.trans (congrArg Out.ack out))
  · exact hne.2.1 (h.symm.trans (congrArg Out.ack out))
  · exact hne.2.2 (h.symm.trans ack)

-- ---------------------------------------------------------------------------
-- The gate
-- ---------------------------------------------------------------------------

def Reset (d : Dev) : Prop := d.isAuthenticated = false → d.prePktSeq = -1 ∧ d.fileLen = 0

theorem reset_boot (idx : Int) (f : Flash) : Reset (boot idx f) := by
  unfold boot upgradeInit
  intro _
  by_cases h : idx = -1 <;> simp [h, powerUp]

theorem Handled.reset {env : Env} {d : Dev} {r : Dev × Out} (h : Handled lib env d buffer r)
    (hd : Reset d) : Reset r.1 := by
  cases h with
  | authFail => exact fun _ => ⟨rfl, rfl⟩
  | seqMismatch => exact fun _ => ⟨rfl, rfl⟩
  | writeErr => exact fun _ => ⟨rfl, rfl⟩
  | readBackErr => exact fun _ => ⟨rfl, rfl⟩
  | authPass => exact fun h => nomatch h
  | stored writes => exact fun h => nomatch writes.auth.symm.trans h
  | _ => exact hd

/-- The session is open after a turn only if the turn opened it, or it was open
and the turn did not end it. -/
theorem open_next (d : Dev) (fr : Frame)
    (h : ((upgrade lib).next d fr).isAuthenticated = true) :
    Accepted lib ((upgrade lib).turn d fr) ∨
      d.isAuthenticated = true ∧ ¬ SessionEnding ((upgrade lib).turn d fr) := by
  obtain ⟨r, hr, ht, hn⟩ := upgrade_handled lib d fr
  rw [hn] at h
  rw [ht]
  cases hr with
  | authPass valid type tag p g => exact .inl ⟨type, tag.2.2, rfl⟩
  | authFail => exact nomatch h
  | seqMismatch => exact nomatch h
  | writeErr => exact nomatch h
  | readBackErr => exact nomatch h
  | closed auth => exact nomatch auth.symm.trans h
  | invalid hv =>
    rcases isPktValid_error hv with rfl | rfl
    · exact .inr ⟨h, not_sessionEnding_of_ack (a := pktInvalid) rfl (by decide)⟩
    · exact .inr ⟨h, not_sessionEnding_of_ack (a := dataFrameCrcErr) rfl (by decide)⟩
  | seqRange auth valid type seq =>
    refine .inr ⟨h, ?_⟩
    rintro (⟨type', -⟩ | ⟨-, seq_le, -⟩ | ⟨-, -, ack⟩)
    · exact absurd (type.symm.trans type') (by decide)
    · exact absurd seq_le (Nat.not_le.mpr seq)
    · have hne : ¬ uHtonl dataFrameSeqErr = uHtonl dataFrameFlashWrErr := by decide
      exact hne ack
  | badLen => exact .inr ⟨h, not_sessionEnding_of_ack (a := dataFrameLenErr) rfl (by decide)⟩
  | decryptErr => exact .inr ⟨h, not_sessionEnding_of_ack (a := dataFrameDecryptErr) rfl (by decide)⟩
  | unknown => exact .inr ⟨h, not_sessionEnding_of_ack (a := commandFrameCmdErr) rfl (by decide)⟩
  | stored writes => exact .inr ⟨writes.auth, not_sessionEnding_of_success rfl⟩
  | version => exact .inr ⟨h, not_sessionEnding_of_success rfl⟩
  | crc => exact .inr ⟨h, not_sessionEnding_of_success rfl⟩
  | exec => exact .inr ⟨h, not_sessionEnding_of_success rfl⟩

theorem open_since (lib : GcmLib) (idx : Int) (f : Flash) (frames : List Frame)
    (h : ((upgrade lib).run (boot idx f) frames).isAuthenticated = true) :
    Since (Accepted lib) SessionEnding ((upgrade lib).turns (boot idx f) frames) := by
  have h0 : ¬ (boot idx f).isAuthenticated = true := by
    unfold boot upgradeInit
    by_cases h : idx = -1 <;> simp [h, powerUp]
  exact Machine.since_of_flag (F := fun d => d.isAuthenticated = true) open_next h0 frames h

theorem not_gated {t : UpgradeTurn} (effects : t.out.effects = [])
    (seq : t.post.prePktSeq = t.pre.prePktSeq ∨ t.post.prePktSeq = -1)
    (len : t.post.fileLen = t.pre.fileLen ∨ t.post.fileLen = 0)
    (version : t.out.ack ≠ uHtonl appVersion)
    (crc : t.out.ret = success → t.out.ack ≠ uHtonl (flashCrc t.pre)) : ¬ Gated t := by
  rintro (⟨c, mem⟩ | ⟨change, away⟩ | ⟨change, away⟩ | ack | ⟨ret, ack⟩ | mem)
  · simp [effects] at mem
  · exact seq.elim change away
  · exact len.elim change away
  · exact version ack
  · exact crc ret ack
  · simp [effects] at mem

theorem closed_next (d : Dev) (fr : Frame) (hd : Reset d) (hauth : d.isAuthenticated = false) :
    ¬ Gated ((upgrade lib).turn d fr) ∧
      (Accepted lib ((upgrade lib).turn d fr) ∨ Untouched ((upgrade lib).turn d fr)) := by
  obtain ⟨hseq, hlen⟩ := hd hauth
  have hcrc : flashCrc d = 0 := by simp [flashCrc, hlen]
  have hfail : ¬ failure = success := by decide
  have hopen : ¬ d.isAuthenticated = true := by simp [hauth]
  obtain ⟨r, hr, ht, -⟩ := upgrade_handled lib d fr
  rw [ht]
  cases hr with
  | invalid hv =>
    refine ⟨not_gated rfl (.inl rfl) (.inl rfl) ?_ fun h => absurd h hfail,
      .inr ⟨rfl, rfl, rfl, rfl, rfl, rfl⟩⟩
    have hne : uHtonl pktInvalid ≠ uHtonl appVersion ∧ uHtonl dataFrameCrcErr ≠ uHtonl appVersion := by decide
    rcases isPktValid_error hv with rfl | rfl
    · exact hne.1
    · exact hne.2
  | authFail =>
    have hne : uHtonl authenticatedFail ≠ uHtonl appVersion := by decide
    exact ⟨not_gated rfl (.inr rfl) (.inr rfl) hne fun h => absurd h hfail,
      .inr ⟨hauth.symm, hseq.symm, hlen.symm, rfl, rfl, rfl⟩⟩
  | authPass valid type tag =>
    have hne : uHtonl authenticatedPass ≠ uHtonl appVersion ∧ uHtonl authenticatedPass ≠ uHtonl 0 := by
      decide
    refine ⟨not_gated rfl (.inr rfl) (.inr rfl) hne.1 fun _ => ?_, .inl ⟨type, tag.2.2, rfl⟩⟩
    rw [hcrc]
    exact hne.2
  | closed =>
    have hne : uHtonl authenticatedFail ≠ uHtonl appVersion := by decide
    exact ⟨not_gated rfl (.inl rfl) (.inl rfl) hne fun h => absurd h hfail,
      .inr ⟨rfl, rfl, rfl, rfl, rfl, rfl⟩⟩
  | seqRange auth => exact absurd auth hopen
  | seqMismatch auth => exact absurd auth hopen
  | badLen next => exact absurd next.auth hopen
  | decryptErr next => exact absurd next.auth hopen
  | writeErr writes => exact absurd writes.auth hopen
  | readBackErr writes => exact absurd writes.auth hopen
  | stored writes => exact absurd writes.auth hopen
  | version command => exact absurd command.auth hopen
  | crc command => exact absurd command.auth hopen
  | exec command => exact absurd command.auth hopen
  | unknown command => exact absurd command.auth hopen

theorem reset_run (idx : Int) (f : Flash) (frames : List Frame) :
    Reset ((upgrade lib).run (boot idx f) frames) := by
  refine Machine.inv (fun d fr hd => ?_) (reset_boot idx f) frames
  obtain ⟨r, hr, -, hn⟩ := upgrade_handled lib d fr
  rw [hn]
  exact hr.reset hd

/-- Everything an upgrade does needs an authentication frame that was accepted
and no session-ending turn since; without one, only the next such frame changes
the session, the flash or the timer. -/
theorem authentication_gate (lib : GcmLib) (idx : Int) (f : Flash) (frames : List Frame) (fr : Frame) :
    let turns := (upgrade lib).turns (boot idx f) frames
    let turn := (upgrade lib).turn ((upgrade lib).run (boot idx f) frames) fr
    (Gated turn → Since (Accepted lib) SessionEnding turns) ∧
      (¬ Since (Accepted lib) SessionEnding turns → Accepted lib turn ∨ Untouched turn) := by
  intro turns turn
  have hsince := open_since lib idx f frames
  cases hauth : ((upgrade lib).run (boot idx f) frames).isAuthenticated with
  | true => exact ⟨fun _ => hsince hauth, fun h => absurd (hsince hauth) h⟩
  | false =>
    obtain ⟨hgated, hchange⟩ : ¬ Gated turn ∧ (Accepted lib turn ∨ Untouched turn) :=
      closed_next _ fr (reset_run idx f frames) hauth
    exact ⟨fun h => absurd h hgated, fun _ => hchange⟩

end EthernetOta.Firmware
