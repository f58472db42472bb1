import EthernetOta.Firmware.Session

/-!
# The image an upgrade session builds

The log of a run holds the IV of the last authentication frame that passed and
the data frames acknowledged since. While the session is open, bank 1 holds
exactly these frames one after the other, and what is left of the last erased
group is still blank, so the next frame can be programmed.
-/

namespace EthernetOta.Firmware

variable {lib : GcmLib}

structure Log where
  iv : List Byte
  frames : List Mem

def Log.turn (l : Log) (t : UpgradeTurn) : Log :=
  if t.out.ret ≠ success then l
  else if frameType t.input.buffer = authenticatedFrame then ⟨authIv t.input.buffer, []⟩
  else if frameType t.input.buffer = dataFrame then { l with frames := l.frames ++ [t.input.buffer] }
  else l

/-- What was acknowledged since the last authentication that passed. -/
def sessionLog (turns : List UpgradeTurn) : Log := turns.foldl Log.turn ⟨[], []⟩

theorem sessionLog_snoc (turns : List UpgradeTurn) (t : UpgradeTurn) :
    sessionLog (turns ++ [t]) = (sessionLog turns).turn t := by
  simp [sessionLog]

/-- Frame `i` is in the bank, followed by 0xFF up to the end of its last page. -/
structure Stored (c : Nor.Cells 8) (i : Nat) (plain : List Byte) : Prop where
  data : ∀ j (h : j < plain.length), c (1024 * i + j) = plain[j]
  padding : ∀ j, plain.length ≤ j → j < 512 * framePages plain.length → c (1024 * i + j) = 0xff

structure Image (lib : GcmLib) (l : Log) (d : Dev) : Prop where
  iv : d.cryptoIv = l.iv
  seq : d.prePktSeq + 1 = l.frames.length
  seqs : l.frames.map (fun b => (frameSeq b).toNat) = List.range l.frames.length
  len : ∀ b ∈ l.frames, 0 < (frameLen b).toNat ∧ (frameLen b).toNat ≤ maxPlaintextLen
  stored : ∀ i (h : i < l.frames.length),
    Stored d.flash.bank1 i (framePlain lib l.iv l.frames[i])
  ready : Nor.Ready eraseGroupSize d.flash.bank1 (1024 * l.frames.length)

-- ---------------------------------------------------------------------------
-- Storing a frame
-- ---------------------------------------------------------------------------

section
variable {env : Env} {d : Dev} {buffer : Mem}

theorem framePages_le (h : len ≤ 1024) : 512 * framePages len ≤ 1024 := by
  unfold framePages
  omega

theorem le_framePages (len : Nat) : len ≤ 512 * framePages len := by
  unfold framePages
  omega

theorem frameWrite_bank1 (writes : Writes env d buffer) (write : w = frameWrite lib env d buffer)
    (rc : w.rc = success) :
    w.flash.bank1 =
      Nor.append eraseGroupSize (1024 * (frameSeq buffer).toNat)
        (512 * framePages (frameLen buffer).toNat) (frameImage lib d.cryptoIv buffer) d.flash.bank1 := by
  rw [write] at rc ⊢
  exact dataWrite_bank1 writes.seq_le writes.len_pos writes.len_le rc

structure Appended (lib : GcmLib) (d : Dev) (buffer : Mem) (k : Nat) (f : Flash) : Prop where
  below : ∀ a, a < 1024 * k → f.bank1 a = d.flash.bank1 a
  data : ∀ j, j < 512 * framePages (frameLen buffer).toNat →
    f.bank1 (1024 * k + j) = frameImage lib d.cryptoIv buffer j
  ready : Nor.Ready eraseGroupSize f.bank1 (1024 * (k + 1))

theorem frameWrite_appended (writes : Writes env d buffer) (write : w = frameWrite lib env d buffer)
    (rc : w.rc = success)
    (ready : Nor.Ready eraseGroupSize d.flash.bank1 (1024 * (frameSeq buffer).toNat)) :
    Appended lib d buffer (frameSeq buffer).toNat w.flash := by
  have hpages := framePages_le writes.len_le
  have hroom : 1024 * (frameSeq buffer).toNat % 4096 + 1024 ≤ 4096 := by omega
  have hroom' : 1024 * (frameSeq buffer).toNat % 4096 + 512 * framePages (frameLen buffer).toNat ≤ 4096 := by
    omega
  have hpos : 0 < eraseGroupSize := by decide
  constructor <;> rw [frameWrite_bank1 writes write rc]
  · exact fun a ha => Nor.append_below ha
  · exact fun j hj => Nor.append_data ready hpos hroom' hj
  · exact Nor.append_ready ready hpos hroom hpages

theorem Appended.readsBack {f : Flash} (h : Appended lib d buffer (frameSeq buffer).toNat f)
    (writes : Writes env d buffer) : ReadsBack lib d.cryptoIv f buffer := by
  intro i hi
  have hseq : (frameSeq buffer).toNat ≤ 1023 := writes.seq_le
  have hlen : (frameLen buffer).toNat ≤ 1024 := writes.len_le
  rw [frameAddr_eq writes.seq_le, read_pageAddr _ (by omega),
    show 512 * (2 * (frameSeq buffer).toNat) = 1024 * (frameSeq buffer).toNat by omega]
  exact h.data i (Nat.lt_of_lt_of_le hi (le_framePages _))

theorem Image.store {l : Log} {d' : Dev} (h : Image lib l d) (writes : Writes env d buffer)
    (hseq : (frameSeq buffer).toNat = l.frames.length) (iv : d'.cryptoIv = d.cryptoIv)
    (seq : d'.prePktSeq = (frameSeq buffer).toNat)
    (flash : Appended lib d buffer l.frames.length d'.flash) :
    Image lib { l with frames := l.frames ++ [buffer] } d' := by
  have hlen := writes.len_le
  refine ⟨iv.trans h.iv, ?_, ?_, ?_, ?_, ?_⟩
  · simp [seq, hseq]
  · simp [h.seqs, hseq, List.range_succ]
  · intro b hb
    rcases List.mem_append.mp hb with hb | hb
    · exact h.len b hb
    · rw [List.mem_singleton.mp hb]
      exact ⟨writes.len_pos, hlen⟩
  · intro i hi
    by_cases hlt : i < l.frames.length
    · -- the frames before it stay where they are
      have hplain : (framePlain lib l.iv l.frames[i]).length ≤ 1024 := by
        rw [length_framePlain]
        exact (h.len _ (List.getElem_mem hlt)).2
      have hpages := framePages_le hplain
      have hs := h.stored i hlt
      simp only [List.getElem_append_left hlt]
      refine ⟨fun j hj => ?_, fun j hj hj' => ?_⟩
      · rw [flash.below _ (by omega), hs.data j hj]
      · rw [flash.below _ (by omega), hs.padding j hj hj']
    · obtain rfl : i = l.frames.length := by
        simp only [List.length_append, List.length_singleton] at hi
        omega
      have hpages := framePages_le hlen
      have hdata := flash.data
      rw [h.iv] at hdata
      simp only [List.getElem_concat_length]
      refine ⟨fun j hj => ?_, fun j hj hj' => ?_⟩
      · have hj' := hj
        rw [length_framePlain] at hj'
        rw [hdata j (Nat.lt_of_lt_of_le hj' (le_framePages _)), frameImage_lt hj]
      · rw [length_framePlain] at hj'
        have hmax : maxPlaintextLen = 1024 := rfl
        rw [hdata j hj', frameImage_ge hj (by omega)]
  · rw [List.length_append, List.length_singleton]
    exact flash.ready

end

-- ---------------------------------------------------------------------------
-- A frame that reaches the flash
-- ---------------------------------------------------------------------------

section
variable {env : Env} {d : Dev} {buffer : Mem}

theorem Handled.of_writes {r : Dev × Out} (h : Handled lib env d buffer r) (writes : Writes env d buffer) :
    ∃ w p g, w = frameWrite lib env d buffer ∧
      (w.rc = success ∧ ReadsBack lib d.cryptoIv w.flash buffer ∧
          r = ({ d.scratch p g with
                  prePktSeq := (frameSeq buffer).toNat
                  flash := w.flash
                  fileLen := d.fileLen + (frameLen buffer).setWidth 32 },
                ⟨success, dataAck buffer, w.effects ++ [.checkIntegrity success]⟩) ∨
        (w.rc = success → ¬ ReadsBack lib d.cryptoIv w.flash buffer) ∧
          ∃ effects, r = (upgradeEnd { d.scratch p g with flash := w.flash },
            ⟨failure, uHtonl dataFrameFlashWrErr, effects⟩)) := by
  have hauth : ¬ dataFrame = authenticatedFrame := by decide
  have hcmd : ¬ dataFrame = commandFrame := by decide
  cases h with
  | stored _ w write rc back p g => exact ⟨w, p, g, write, .inl ⟨rc, back, rfl⟩⟩
  | writeErr _ w write rc p g => exact ⟨w, p, g, write, .inr ⟨fun h => absurd h rc, _, rfl⟩⟩
  | readBackErr _ w write rc back p g => exact ⟨w, p, g, write, .inr ⟨fun _ => back, _, rfl⟩⟩
  | invalid hv => exact nomatch hv.symm.trans writes.valid
  | authFail _ type => exact absurd (writes.type.symm.trans type) hauth
  | authPass _ type => exact absurd (writes.type.symm.trans type) hauth
  | closed auth => exact nomatch auth.symm.trans writes.auth
  | seqRange _ _ _ seq => exact absurd writes.seq_le (Nat.not_le.mpr seq)
  | seqMismatch _ _ _ _ seq => exact absurd writes.seq seq
  | badLen _ len =>
    have hpos := writes.len_pos
    have hle := writes.len_le
    omega
  | decryptErr _ err => exact (err.elim writes.idx (fun h => h writes.gcm)).elim
  | version command => exact absurd (writes.type.symm.trans command.type) hcmd
  | crc command => exact absurd (writes.type.symm.trans command.type) hcmd
  | exec command => exact absurd (writes.type.symm.trans command.type) hcmd
  | unknown command => exact absurd (writes.type.symm.trans command.type) hcmd

theorem handle_stored (lib : GcmLib) (writes : Writes env d buffer) (done : ∀ c, env.flash c = .done)
    (ready : Nor.Ready eraseGroupSize d.flash.bank1 (1024 * (frameSeq buffer).toNat)) :
    ∃ (w : WriteRes) (p : List Byte) (g : AesGcm) (effects : List Effect), Appended lib d buffer (frameSeq buffer).toNat w.flash ∧
      handleUpgradePacket lib env d buffer =
        ({ d.scratch p g with
            prePktSeq := (frameSeq buffer).toNat
            flash := w.flash
            fileLen := d.fileLen + (frameLen buffer).setWidth 32 },
          ⟨success, dataAck buffer, effects⟩) := by
  obtain ⟨w, p, g, write, h⟩ := (handled lib env d buffer).of_writes writes
  have rc : w.rc = success := by
    rw [write]
    exact dataWrite_done writes.seq_le writes.len_pos writes.len_le done
  have happended := frameWrite_appended writes write rc ready
  rcases h with ⟨-, -, heq⟩ | ⟨back, -⟩
  · exact ⟨w, p, g, _, happended, heq⟩
  · exact absurd (happended.readsBack writes) (back rc)

end

-- ---------------------------------------------------------------------------
-- Runs
-- ---------------------------------------------------------------------------

theorem Log.turn_failure (l : Log) {t : UpgradeTurn} (h : t.out.ret = failure) : l.turn t = l := by
  have hne : failure ≠ success := by decide
  rw [Log.turn, h, if_pos hne]

theorem Log.turn_command (l : Log) {t : UpgradeTurn} (h : frameType t.input.buffer = commandFrame) :
    l.turn t = l := by
  have hauth : ¬ commandFrame = authenticatedFrame := by decide
  have hdata : ¬ commandFrame = dataFrame := by decide
  simp [Log.turn, h, hauth, hdata]

theorem Log.turn_auth (l : Log) {t : UpgradeTurn} (h : t.out.ret = success)
    (ht : frameType t.input.buffer = authenticatedFrame) : l.turn t = ⟨authIv t.input.buffer, []⟩ := by
  simp [Log.turn, h, ht]

theorem Log.turn_data (l : Log) {t : UpgradeTurn} (h : t.out.ret = success)
    (ht : frameType t.input.buffer = dataFrame) :
    l.turn t = { l with frames := l.frames ++ [t.input.buffer] } := by
  have hauth : ¬ dataFrame = authenticatedFrame := by decide
  simp [Log.turn, h, ht, hauth]

theorem Image.congr {l : Log} {d d' : Dev} (h : Image lib l d) (iv : d'.cryptoIv = d.cryptoIv)
    (seq : d'.prePktSeq = d.prePktSeq) (flash : d'.flash = d.flash) : Image lib l d' := by
  refine ⟨iv.trans h.iv, ?_, h.seqs, h.len, ?_, ?_⟩
  · rw [seq]
    exact h.seq
  · rw [flash]
    exact h.stored
  · rw [flash]
    exact h.ready

theorem Image.start (l : Log) {t : UpgradeTurn} {d : Dev} (ret : t.out.ret = success)
    (type : frameType t.input.buffer = authenticatedFrame) (iv : d.cryptoIv = authIv t.input.buffer)
    (seq : d.prePktSeq = -1) : Image lib (l.turn t) d := by
  rw [Log.turn_auth _ ret type]
  exact
    { iv := iv
      seq := by simp [seq]
      seqs := rfl
      len := fun _ h => nomatch h
      stored := fun _ h => nomatch h
      ready := fun h => absurd (Nat.zero_mod _) h }

theorem Image.next {l : Log} {d : Dev} (h : Image lib l d) (next : Next d buffer) :
    (frameSeq buffer).toNat = l.frames.length := by
  have hnext := next.seq
  have hseq := h.seq
  omega

theorem Image.room {l : Log} {d : Dev} (h : Image lib l d) (next : Next d buffer) :
    Nor.Ready eraseGroupSize d.flash.bank1 (1024 * (frameSeq buffer).toNat) := by
  rw [h.next next]
  exact h.ready

theorem Image.turn_store {l : Log} {t : UpgradeTurn} {d d' : Dev} {env : Env} (h : Image lib l d)
    (writes : Writes env d t.input.buffer) (ret : t.out.ret = success) (iv : d'.cryptoIv = d.cryptoIv)
    (seq : d'.prePktSeq = (frameSeq t.input.buffer).toNat)
    (flash : Appended lib d t.input.buffer l.frames.length d'.flash) : Image lib (l.turn t) d' := by
  rw [Log.turn_data _ ret writes.type]
  exact h.store writes (h.next writes.toNext) iv seq flash

def Follows (lib : GcmLib) (turns : List UpgradeTurn) (d : Dev) : Prop :=
  d.isAuthenticated = true → Image lib (sessionLog turns) d

theorem Follows.unchanged {d d' : Dev} {t : UpgradeTurn} (h : Follows lib turns d)
    (log : ∀ l : Log, l.turn t = l) (auth : d'.isAuthenticated = d.isAuthenticated)
    (iv : d'.cryptoIv = d.cryptoIv) (seq : d'.prePktSeq = d.prePktSeq) (flash : d'.flash = d.flash) :
    d'.isAuthenticated = true → Image lib ((sessionLog turns).turn t) d' := by
  intro ho
  rw [log]
  exact (h (auth.symm.trans ho)).congr iv seq flash

theorem follows_next (turns : List UpgradeTurn) (d : Dev) (fr : Frame) (h : Follows lib turns d) :
    Follows lib (turns ++ [(upgrade lib).turn d fr]) ((upgrade lib).next d fr) := by
  obtain ⟨r, hr, ht, hn⟩ := upgrade_handled lib d fr
  rw [Follows, sessionLog_snoc, hn, ht]
  cases hr with
  | authFail => exact fun ho => nomatch ho
  | seqMismatch => exact fun ho => nomatch ho
  | writeErr => exact fun ho => nomatch ho
  | readBackErr => exact fun ho => nomatch ho
  | authPass valid type tag => exact fun _ => .start _ rfl type rfl rfl
  | stored writes w write rc =>
    intro _
    have himage := h writes.auth
    have happended := frameWrite_appended writes write rc (himage.room writes.toNext)
    rw [himage.next writes.toNext] at happended
    exact himage.turn_store writes rfl rfl rfl happended
  | version command => exact h.unchanged (fun l => l.turn_command command.type) rfl rfl rfl rfl
  | crc command => exact h.unchanged (fun l => l.turn_command command.type) rfl rfl rfl rfl
  | exec command => exact h.unchanged (fun l => l.turn_command command.type) rfl rfl rfl rfl
  | decryptErr => exact h.unchanged (fun l => l.turn_failure rfl) rfl rfl rfl rfl
  | invalid => exact h.unchanged (fun l => l.turn_failure rfl) rfl rfl rfl rfl
  | closed => exact h.unchanged (fun l => l.turn_failure rfl) rfl rfl rfl rfl
  | seqRange => exact h.unchanged (fun l => l.turn_failure rfl) rfl rfl rfl rfl
  | badLen => exact h.unchanged (fun l => l.turn_failure rfl) rfl rfl rfl rfl
  | unknown => exact h.unchanged (fun l => l.turn_failure rfl) rfl rfl rfl rfl

theorem checkIntegrity_accepts (turns : List UpgradeTurn) (d : Dev) (fr : Frame)
    (h : Follows lib turns d) (hmem : .checkIntegrity rc ∈ ((upgrade lib).turn d fr).out.effects) :
    rc = success := by
  have hnone : ∀ w, Writes fr.env d fr.buffer → w = frameWrite lib fr.env d fr.buffer →
      .checkIntegrity rc ∉ w.effects := by
    intro w writes write hmem
    rw [write] at hmem
    rcases dataWrite_effects writes.seq_le writes.len_pos writes.len_le hmem with ⟨o, -, he⟩ | ⟨c, he⟩
    · exact nomatch he
    · exact nomatch he
  obtain ⟨r, hr, ht, hn⟩ := upgrade_handled lib d fr
  rw [ht] at hmem
  cases hr with
  | writeErr writes w write => exact absurd hmem (hnone w writes write)
  | readBackErr writes w write rc' back =>
    have happended := frameWrite_appended writes write rc' ((h writes.auth).room writes.toNext)
    exact absurd (happended.readsBack writes) back
  | stored writes w write =>
    rcases List.mem_append.mp hmem with hmem | hmem
    · exact absurd hmem (hnone w writes write)
    · exact Effect.checkIntegrity.inj (List.mem_singleton.mp hmem)
  | exec => exact nomatch List.mem_singleton.mp hmem
  | _ => exact nomatch hmem

/-- In every state a run leads to, an open session has acknowledged frames
0, 1, ..., and bank 1 holds what they decrypt to under the IV of the
authentication frame that opened it; and what is written always reads back. -/
theorem session_image (lib : GcmLib) (idx : Int) (f : Flash) (frames : List Frame) :
    let turns := (upgrade lib).turns (boot idx f) frames
    let d := (upgrade lib).run (boot idx f) frames
    let l := sessionLog turns
    (d.isAuthenticated = true →
      d.prePktSeq + 1 = l.frames.length ∧
      l.frames.map (fun b => (frameSeq b).toNat) = List.range l.frames.length ∧
      ∀ i (h : i < l.frames.length), Stored d.flash.bank1 i (framePlain lib l.iv l.frames[i])) ∧
    ∀ t ∈ turns, ∀ rc, .checkIntegrity rc ∈ t.out.effects → rc = success := by
  have hclosed : Follows lib [] (boot idx f) := by
    intro h
    unfold boot upgradeInit at h
    by_cases hidx : idx = -1 <;> simp [hidx, powerUp] at h
  have key := Machine.history (m := upgrade lib)
    (R := fun turns d => Follows lib turns d ∧
      ∀ t ∈ turns, ∀ rc, .checkIntegrity rc ∈ t.out.effects → rc = success)
    (fun turns d fr hr => ⟨follows_next turns d fr hr.1, by
      intro t ht rc hmem
      rcases List.mem_append.mp ht with ht | ht
      · exact hr.2 t ht rc hmem
      · rw [List.mem_singleton.mp ht] at hmem
        exact checkIntegrity_accepts turns d fr hr.1 hmem⟩)
    ⟨hclosed, fun _ h => absurd h List.not_mem_nil⟩ frames
  refine ⟨fun h => ?_, key.2⟩
  have himage := key.1 h
  exact ⟨himage.seq, himage.seqs, himage.stored⟩

end EthernetOta.Firmware
