import EthernetOta.Firmware.Switch

/-!
# Two devices side by side

Two devices whose flash may hold anything, and who have the same session open or none. They
answer frames that look alike in the same way, whatever the frames carry: what the flash
holds and what a payload decrypts to shows in nothing but the answer to `GET_CRC`.
-/

namespace EthernetOta.Firmware

variable {lib : GcmLib}

-- ---------------------------------------------------------------------------
-- Writing
-- ---------------------------------------------------------------------------

section
variable {io : EfcCmd → Outcome} {buffer buffer' : Mem} {f g : Flash} {flAddr ofAddr : Word}

theorem efcPerformCommand_rc_congr {latch latch' : Mem} (c : EfcCmd) :
    (efcPerformCommand io g c latch').1 = (efcPerformCommand io f c latch).1 := by
  unfold efcPerformCommand
  cases io c <;> cases c <;> rfl

theorem dataWritePage_congr (hp : p < 2048) (haddr : flAddr + ofAddr = pageAddr p) (h : g.gpnvm2 = f.gpnvm2) :
    (dataWritePage io flAddr ofAddr buffer' g).rc = (dataWritePage io flAddr ofAddr buffer f).rc ∧
      (dataWritePage io flAddr ofAddr buffer' g).effects = (dataWritePage io flAddr ofAddr buffer f).effects := by
  have hgroup : eraseGroup g p = eraseGroup f p := by rw [eraseGroup, eraseGroup, Flash.efcAt1_congr h]
  have hpage : programPage g p = programPage f p := by rw [programPage, programPage, Flash.efcAt1_congr h]
  rw [dataWritePage_pageAddr io buffer' g hp haddr, dataWritePage_pageAddr io buffer f hp haddr, hgroup, hpage]
  split
  · have herase : (efcPerformCommand io g (eraseGroup f p) fun _ => 0).1 =
        (efcPerformCommand io f (eraseGroup f p) fun _ => 0).1 := efcPerformCommand_rc_congr _
    simp only [herase]
    split
    · exact ⟨efcPerformCommand_rc_congr _, rfl⟩
    · exact ⟨rfl, rfl⟩
  · exact ⟨efcPerformCommand_rc_congr _, rfl⟩

variable {seq : Half} (hs : seq.toNat ≤ maxSeqNum) (h1 : 0 < len) (h2 : len ≤ maxPlaintextLen)
include hs h1 h2

theorem dataWrite_congr (h : g.gpnvm2 = f.gpnvm2) :
    (dataWrite io g (frameAddr seq) buffer' len).rc = (dataWrite io f (frameAddr seq) buffer len).rc ∧
      (dataWrite io g (frameAddr seq) buffer' len).effects = (dataWrite io f (frameAddr seq) buffer len).effects := by
  have hseq : seq.toNat ≤ 1023 := hs
  have hfirst : 2 * seq.toNat < 2048 := by omega
  have hsecond : 2 * seq.toNat + 1 < 2048 := by omega
  obtain ⟨a, ha, hcases⟩ := dataWrite_cases hs h1 h2 io buffer f
  obtain ⟨a', ha', hcases'⟩ := dataWrite_cases hs h1 h2 io buffer' g
  obtain ⟨hrc, heffects⟩ : a'.rc = a.rc ∧ a'.effects = a.effects := by
    rw [ha, ha']
    exact dataWritePage_congr hfirst (frameAddr_first hs) h
  have hgpnvm2 : a'.flash.gpnvm2 = a.flash.gpnvm2 := by
    have hconfined : Confined f a := ha ▸ dataWritePage_confined hfirst (frameAddr_first hs)
    have hconfined' : Confined g a' := ha' ▸ dataWritePage_confined hfirst (frameAddr_first hs)
    rw [hconfined.gpnvm2, hconfined'.gpnvm2, h]
  rcases hcases with ⟨hone, heq⟩ | ⟨hok, hlong, c, hc, heq⟩
  · rcases hcases' with ⟨-, heq'⟩ | ⟨hok', hlong', -⟩
    · rw [heq, heq']
      exact ⟨hrc, heffects⟩
    · exact absurd (hrc ▸ hok') (hone.resolve_right (Nat.not_le.mpr hlong'))
  · rcases hcases' with ⟨hone', -⟩ | ⟨-, -, c', hc', heq'⟩
    · exact absurd (hrc ▸ hok) (hone'.resolve_right (Nat.not_le.mpr hlong))
    · obtain ⟨hrc', heffects'⟩ : c'.rc = c.rc ∧ c'.effects = c.effects := by
        rw [hc, hc']
        exact dataWritePage_congr hsecond (frameAddr_second hs) hgpnvm2
      rw [heq, heq']
      exact ⟨hrc', by rw [heffects, heffects']⟩

end

-- ---------------------------------------------------------------------------
-- What is alike
-- ---------------------------------------------------------------------------

def Dev.end (d : Dev) : Nat := 1024 * (d.prePktSeq + 1).toNat

/-- The same session, over flashes of which only the end of the image is told. -/
structure Beside (d e : Dev) : Prop where
  auth : e.isAuthenticated = d.isAuthenticated
  seq : e.prePktSeq = d.prePktSeq
  len : e.fileLen = d.fileLen
  idx : e.cryptoIdx = d.cryptoIdx
  table : e.crc32Table = d.crc32Table
  gpnvm2 : e.flash.gpnvm2 = d.flash.gpnvm2
  iv : d.isAuthenticated = true → e.cryptoIv = d.cryptoIv
  ready : Nor.Ready eraseGroupSize d.flash.bank1 d.end
  ready' : Nor.Ready eraseGroupSize e.flash.bank1 e.end

/-- Frames that differ in their payload alone. -/
structure Twin (table : Byte → Word) (b b' : Mem) : Prop where
  type : frameType b' = frameType b
  seq : frameSeq b' = frameSeq b
  len : frameLen b' = frameLen b
  ack : dataAck b' = dataAck b
  check : isPktValid table (frameType b) (frameLen b) b' = isPktValid table (frameType b) (frameLen b) b
  iv : frameType b = authenticatedFrame → authIv b' = authIv b
  tag : frameType b = authenticatedFrame → authTag b' = authTag b
  cmd : frameType b = commandFrame → frameCmd b' = frameCmd b

theorem Twin.refl (table : Byte → Word) (b : Mem) : Twin table b b :=
  ⟨rfl, rfl, rfl, rfl, rfl, fun _ => rfl, fun _ => rfl, fun _ => rfl⟩

def BlankRest (b : Mem) (f : Flash) : Prop := ∀ j, 512 * framePages (frameLen b).toNat ≤ j → j < 1024 →
  f.bank1 (1024 * (frameSeq b).toNat + j) = 0xff

theorem frameWrite_rest {env : Env} {d : Dev} (writes : Writes env d b) (write : w = frameWrite lib env d b)
    (rc : w.rc = success) (ready : Nor.Ready eraseGroupSize d.flash.bank1 (1024 * (frameSeq b).toNat)) :
    BlankRest b w.flash := by
  intro j h1 h2
  have hgroup : (1024 * (frameSeq b).toNat + j) / 4096 = 1024 * (frameSeq b).toNat / 4096 := by omega
  rw [frameWrite_bank1 writes write rc]
  exact Nor.append_rest ready (by decide) (by omega) hgroup

inductive InStep (lib : GcmLib) (env : Env) (d e : Dev) (b b' : Mem) : Dev × Out → Dev × Out → Prop
  /-- The session goes on as it was, or there is none. -/
  | same {r r' : Dev × Out} (dev : Beside r.1 r'.1) (out : r'.2 = r.2) (seq : r.1.prePktSeq = d.prePktSeq)
    (flash : r.1.flash = d.flash) (flash' : r'.1.flash = e.flash) : InStep lib env d e b b' r r'
  /-- A session starts or ends. -/
  | fresh {r r' : Dev × Out} (dev : Beside r.1 r'.1) (out : r'.2 = r.2) (seq : r.1.prePktSeq = -1) :
    InStep lib env d e b b' r r'
  | stored {r r' : Dev × Out} (dev : Beside r.1 r'.1) (out : r'.2 = r.2) (writes : Writes env d b)
    (seq : r.1.prePktSeq = (frameSeq b).toNat) (image : Appended lib d b (frameSeq b).toNat r.1.flash)
    (image' : Appended lib e b' (frameSeq b).toNat r'.1.flash) (rest : BlankRest b r.1.flash)
    (rest' : BlankRest b r'.1.flash) : InStep lib env d e b b' r r'
  | crc (command : Commands d b) (cmd : frameCmd b = getCrc) :
    InStep lib env d e b b' (d, ⟨success, uHtonl (flashCrc d), []⟩) (e, ⟨success, uHtonl (flashCrc e), []⟩)

section
variable {env : Env} {d e : Dev} {b b' : Mem}

theorem Beside.same (h : Beside d e) (out : o' = o) : InStep lib env d e b b' (d, o) (e, o') := .same h out rfl rfl rfl

theorem Beside.scratch (h : Beside d e) (p p' : List Byte) (g g' : AesGcm) : Beside (d.scratch p g) (e.scratch p' g') :=
  ⟨h.auth, h.seq, h.len, h.idx, h.table, h.gpnvm2, h.iv, h.ready, h.ready'⟩

theorem ready_zero (c : Nor.Cells 8) : Nor.Ready eraseGroupSize c 0 := fun h => absurd (Nat.zero_mod _) h

theorem Beside.upgradeEnd (h : Beside d e) (f g : Flash) (iv iv' : List Byte) (hfg : g.gpnvm2 = f.gpnvm2) :
    Beside (upgradeEnd { d with flash := f, cryptoIv := iv }) (upgradeEnd { e with flash := g, cryptoIv := iv' }) :=
  ⟨rfl, rfl, rfl, h.idx, h.table, hfg, fun auth => absurd auth Bool.false_ne_true, ready_zero _, ready_zero _⟩

theorem Beside.upgradeStart (h : Beside d e) (iv : List Byte) :
    Beside (upgradeStart { d with cryptoIv := iv }) (upgradeStart { e with cryptoIv := iv }) :=
  ⟨rfl, rfl, rfl, h.idx, h.table, h.gpnvm2, fun _ => rfl, ready_zero _, ready_zero _⟩

theorem authenticated_inStep (h : Beside d e) (t : Twin d.crc32Table b b') (type : frameType b = authenticatedFrame) :
    InStep lib env d e b b' (handleAuthenticatedFrame lib env d b) (handleAuthenticatedFrame lib env e b') := by
  obtain ⟨p, g, rc, heq, hrc⟩ := authenticatingFrame_eq lib env d b
  obtain ⟨p', g', rc', heq', hrc'⟩ := authenticatingFrame_eq lib env e b'
  have hiff : TagMatches lib env e b' ↔ TagMatches lib env d b := by
    rw [TagMatches, TagMatches, h.idx, t.iv type, t.tag type]
  rw [handleAuthenticatedFrame, handleAuthenticatedFrame, heq, heq', t.iv type]
  simp only []
  by_cases htag : TagMatches lib env d b
  · rw [if_neg (not_not.mpr (hrc.mpr htag)), if_neg (not_not.mpr (hrc'.mpr (hiff.mpr htag)))]
    exact .fresh ((h.scratch p p' g g').upgradeStart (authIv b)) rfl rfl
  · rw [if_pos (mt hrc.mp htag), if_pos (mt hrc'.mp (mt hiff.mp htag))]
    exact .fresh ((h.scratch p p' g g').upgradeEnd d.flash e.flash (authIv b) (authIv b) h.gpnvm2) rfl rfl

theorem Beside.writes (h : Beside d e) (t : Twin d.crc32Table b b') (writes : Writes env d b) : Writes env e b' where
  auth := h.auth.trans writes.auth
  valid := by
    rw [Valid, h.table, t.type, t.len, t.check]
    exact writes.valid
  type := t.type.trans writes.type
  seq_le := t.seq ▸ writes.seq_le
  seq := by
    rw [h.seq, t.seq]
    exact writes.seq
  len_pos := t.len ▸ writes.len_pos
  len_le := t.len ▸ writes.len_le
  idx := h.idx ▸ writes.idx
  gcm := writes.gcm

theorem Writes.end_eq (writes : Writes env d b) : d.end = 1024 * (frameSeq b).toNat := by
  rw [Dev.end, writes.seq, Int.toNat_natCast]

theorem Handled.of_writeErr {r : Dev × Out} (h : Handled lib env d b r) (writes : Writes env d b)
    (rc : (frameWrite lib env d b).rc ≠ success) : ∃ p g,
    r = (upgradeEnd { d.scratch p g with flash := (frameWrite lib env d b).flash },
      ⟨failure, uHtonl dataFrameFlashWrErr, (frameWrite lib env d b).effects⟩) := by
  have hauth : ¬ dataFrame = authenticatedFrame := by decide
  have hcmd : ¬ dataFrame = commandFrame := by decide
  cases h with
  | writeErr _ w write _ p g => exact ⟨p, g, by rw [write]⟩
  | stored _ w write rc' => exact absurd (write ▸ rc') rc
  | readBackErr _ w write rc' => exact absurd (write ▸ rc') rc
  | invalid hv => exact nomatch hv.symm.trans writes.valid
  | authFail _ type => exact absurd (writes.type.symm.trans type) hauth
  | authPass _ type => exact absurd (writes.type.symm.trans type) hauth
  | closed auth => exact nomatch auth.symm.trans writes.auth
  | seqRange _ _ _ seq => exact absurd writes.seq_le (Nat.not_le.mpr seq)
  | seqMismatch _ _ _ _ seq => exact absurd writes.seq seq
  | badLen _ len =>
    have hpos := writes.len_pos
    have hle := writes.len_le
    omega
  | decryptErr _ err => exact (err.elim writes.idx (fun h => h writes.gcm)).elim
  | version command => exact absurd (writes.type.symm.trans command.type) hcmd
  | crc command => exact absurd (writes.type.symm.trans command.type) hcmd
  | exec command => exact absurd (writes.type.symm.trans command.type) hcmd
  | unknown command => exact absurd (writes.type.symm.trans command.type) hcmd

theorem writes_inStep (h : Beside d e) (t : Twin d.crc32Table b b') (writes : Writes env d b) :
    InStep lib env d e b b' (handleUpgradePacket lib env d b) (handleUpgradePacket lib env e b') := by
  have writes' := h.writes t writes
  have hready := h.ready
  have hready' := h.ready'
  rw [writes.end_eq] at hready
  rw [writes'.end_eq] at hready'
  obtain ⟨w, p, g, hw, hres⟩ := (handled lib env d b).of_writes writes
  obtain ⟨w', p', g', hw', hres'⟩ := (handled lib env e b').of_writes writes'
  obtain ⟨hrc, heffects⟩ : w'.rc = w.rc ∧ w'.effects = w.effects := by
    rw [hw, hw', frameWrite, frameWrite, t.seq, t.len]
    exact dataWrite_congr writes.seq_le writes.len_pos writes.len_le h.gpnvm2
  have hgpnvm2 : w'.flash.gpnvm2 = w.flash.gpnvm2 := by
    rw [hw, hw', frameWrite, frameWrite,
      (dataWrite_confined writes.seq_le writes.len_pos writes.len_le).gpnvm2,
      (dataWrite_confined writes'.seq_le writes'.len_pos writes'.len_le).gpnvm2, h.gpnvm2]
  by_cases rc : w.rc = success
  · have himage := frameWrite_appended writes hw rc hready
    have himage' := frameWrite_appended writes' hw' (hrc.trans rc) hready'
    rcases hres with ⟨-, -, heq⟩ | ⟨back, -⟩
    · rcases hres' with ⟨-, -, heq'⟩ | ⟨back', -⟩
      · rw [heq, heq']
        refine .stored ?_ ?_ writes rfl himage (t.seq ▸ himage') (frameWrite_rest writes hw rc hready) ?_
        · refine ⟨h.auth, ?_, ?_, h.idx, h.table, hgpnvm2, h.iv, ?_, ?_⟩
          · rw [t.seq]
          · rw [t.len, h.len]
          · exact himage.ready
          · exact himage'.ready
        · rw [t.ack, heffects]
        · have hrest := frameWrite_rest writes' hw' (hrc.trans rc) hready'
          rwa [BlankRest, t.len, t.seq] at hrest
      · exact absurd (himage'.readsBack writes') (back' (hrc.trans rc))
    · exact absurd (himage.readsBack writes) (back rc)
  · obtain ⟨p, g, heq⟩ := (handled lib env d b).of_writeErr writes (hw ▸ rc)
    obtain ⟨p', g', heq'⟩ := (handled lib env e b').of_writeErr writes' (hw' ▸ hrc ▸ rc)
    rw [heq, heq', ← hw, ← hw', heffects]
    exact .fresh ((h.scratch p p' g g').upgradeEnd w.flash w'.flash d.cryptoIv e.cryptoIv hgpnvm2) rfl rfl

theorem handleDataFrame_eq (auth : d.isAuthenticated = true) (valid : Valid d b) (type : frameType b = dataFrame) :
    handleUpgradePacket lib env d b = handleDataFrame lib env d b (frameSeq b) (frameLen b) (dataAck b) := by
  have hne : ¬ dataFrame = authenticatedFrame := by decide
  have hvalid : isPktValid d.crc32Table dataFrame (frameLen b) b = .ok () := type ▸ valid
  rw [handleUpgradePacket]
  simp only [type, hvalid, auth, if_true, hne, if_false]

theorem data_inStep (h : Beside d e) (t : Twin d.crc32Table b b') (auth : d.isAuthenticated = true)
    (valid : Valid d b) (type : frameType b = dataFrame) :
    InStep lib env d e b b' (handleDataFrame lib env d b (frameSeq b) (frameLen b) (dataAck b))
      (handleDataFrame lib env e b' (frameSeq b) (frameLen b) (dataAck b)) := by
  have hmax : maxPlaintextLen = 1024 := rfl
  by_cases hwrites : Writes env d b
  · have hstep : InStep lib env d e b b' _ _ := writes_inStep h t hwrites
    have writes' := h.writes t hwrites
    rw [handleDataFrame_eq auth valid type, handleDataFrame_eq writes'.auth writes'.valid writes'.type, t.seq, t.len,
      t.ack] at hstep
    exact hstep
  rw [handleDataFrame, handleDataFrame, h.seq]
  by_cases hseq : maxSeqNum < (frameSeq b).toNat
  · rw [if_pos hseq, if_pos hseq]
    exact h.same rfl
  rw [if_neg hseq, if_neg hseq]
  by_cases hnext : d.prePktSeq + 1 ≠ (frameSeq b).toNat
  · rw [if_pos hnext, if_pos hnext]
    exact .fresh (h.upgradeEnd d.flash e.flash d.cryptoIv e.cryptoIv h.gpnvm2) rfl rfl
  rw [if_neg hnext, if_neg hnext]
  by_cases hlen : maxPlaintextLen < (frameLen b).toNat ∨ frameLen b = 0
  · rw [if_pos hlen, if_pos hlen]
    exact h.same rfl
  rw [if_neg hlen, if_neg hlen]
  -- a frame that is not written cannot be decrypted
  have hpos : (frameLen b).toNat ≠ 0 := fun hzero => hlen (.inr (BitVec.eq_of_toNat_eq hzero))
  have herr : ∀ idx, idx = d.cryptoIdx → ¬ (idx ≠ -1 ∧ env.gcmErr = 0) := by
    rintro idx rfl ⟨hidx, hgcm⟩
    exact hwrites ⟨⟨auth, valid, type, Nat.not_lt.mp hseq, not_not.mp hnext⟩, Nat.pos_of_ne_zero hpos,
      Nat.not_lt.mp fun hlt => hlen (.inl hlt), hidx, hgcm⟩
  obtain ⟨p, g, err, heq, hok, -⟩ := dataDecrypt_eq lib env d b
  obtain ⟨p', g', err', heq', hok', -⟩ := dataDecrypt_eq lib env e b'
  have hne : err ≠ 0 := fun hzero => herr _ rfl ⟨(hok hzero).1, (hok hzero).2.1⟩
  have hne' : err' ≠ 0 := fun hzero => herr _ h.idx ⟨(hok' hzero).1, (hok' hzero).2.1⟩
  rw [t.len] at heq'
  rw [heq, heq']
  simp only []
  rw [if_pos hne, if_pos hne']
  exact .same (h.scratch p p' g g') rfl rfl rfl rfl

theorem command_inStep (h : Beside d e) (t : Twin d.crc32Table b b') (command : Commands d b) :
    InStep lib env d e b b' (handleCommandFrame env d b) (handleCommandFrame env e b') := by
  have hcmd : uHtonl (b'.load32 (pktHeaderLen + pktTypeLen)) = uHtonl (b.load32 (pktHeaderLen + pktTypeLen)) :=
    t.cmd command.type
  rw [handleCommandFrame, handleCommandFrame, hcmd]
  split
  · exact h.same rfl
  split
  · exact .crc command ‹_›
  split
  · exact .same ⟨h.auth, h.seq, h.len, h.idx, h.table, h.gpnvm2, h.iv, h.ready, h.ready'⟩ rfl rfl rfl rfl
  · exact h.same rfl

theorem handle_inStep (h : Beside d e) (t : Twin d.crc32Table b b') :
    InStep lib env d e b b' (handleUpgradePacket lib env d b) (handleUpgradePacket lib env e b') := by
  rw [handleUpgradePacket, handleUpgradePacket, h.table, h.auth, t.type, t.len, t.seq, t.ack, t.check]
  cases hvalid : isPktValid d.crc32Table (frameType b) (frameLen b) b with
  | error ack => exact h.same rfl
  | ok =>
    simp only []
    cases hauth : d.isAuthenticated with
    | false =>
      simp only [Bool.false_eq_true, if_false]
      split
      · exact authenticated_inStep h t ‹_›
      · exact h.same rfl
    | true =>
      simp only [if_true]
      split
      · exact authenticated_inStep h t ‹_›
      split
      · exact data_inStep h t hauth hvalid ‹_›
      split
      · exact command_inStep h t ⟨hauth, hvalid, ‹_›⟩
      · exact h.same rfl

end

-- ---------------------------------------------------------------------------
-- The same image
-- ---------------------------------------------------------------------------

theorem read_bank1 (f : Flash) (h : a < 2 ^ 20) : f.read (iflash1Addr + BitVec.ofNat 32 a) = f.bank1 a := by
  have hread := read_pageAddr (p := 0) f (i := a) (by omega)
  simpa [pageAddr] using hread

theorem flashCrc_congr {d e : Dev} (table : e.crc32Table = d.crc32Table) (len : e.fileLen = d.fileLen)
    (image : ∀ a, a < d.fileLen.toNat → e.flash.bank1 a = d.flash.bank1 a) : flashCrc e = flashCrc d := by
  rw [flashCrc, flashCrc, len, table]
  split
  · have hsize : iflash1Size.toNat = 2 ^ 20 := rfl
    have hlt : d.fileLen.toNat < iflash1Size.toNat := And.right ‹_›
    rw [calcCrc, calcCrc]
    refine congrArg (fun l => ~~~ List.foldl _ _ l) (Mem.slice_congr fun i _ hi => ?_)
    rw [read_bank1 _ (by omega), read_bank1 _ (by omega)]
    exact image i (by omega)
  · rfl

structure Copies (d e : Dev) : Prop where
  dev : Beside d e
  counted : Counted d
  image : ∀ a, a < d.end → e.flash.bank1 a = d.flash.bank1 a

theorem Copies.flashCrc {d e : Dev} (h : Copies d e) : flashCrc e = flashCrc d := by
  refine flashCrc_congr h.dev.table h.dev.len fun a ha => h.image a ?_
  have hle := h.counted.fileLen_le
  rw [Dev.end]
  omega

theorem copies_next {d e : Dev} (h : Copies d e) (fr : Frame) :
    ((upgrade lib).turn e fr).out = ((upgrade lib).turn d fr).out ∧
      Copies ((upgrade lib).next d fr) ((upgrade lib).next e fr) := by
  have hcounted : Counted ((upgrade lib).next d fr) := (handled lib fr.env d fr.buffer).counted h.counted
  have hstep : InStep lib fr.env d e fr.buffer fr.buffer ((upgrade lib).step d fr) ((upgrade lib).step e fr) :=
    handle_inStep h.dev (.refl _ _)
  rw [Machine.next] at hcounted
  rw [Machine.turn, Machine.turn, Machine.next, Machine.next]
  generalize (upgrade lib).step d fr = r, (upgrade lib).step e fr = r' at hstep hcounted ⊢
  cases hstep with
  | same dev out seq flash flash' =>
    refine ⟨out, dev, hcounted, fun a ha => ?_⟩
    rw [Dev.end, seq] at ha
    rw [flash, flash']
    exact h.image a ha
  | fresh dev out seq =>
    refine ⟨out, dev, hcounted, fun a ha => ?_⟩
    rw [Dev.end, seq] at ha
    exact absurd ha (Nat.not_lt_zero a)
  | crc => exact ⟨by rw [h.flashCrc], h⟩
  | stored dev out writes seq image image' rest rest' =>
    refine ⟨out, dev, hcounted, fun a ha => ?_⟩
    rw [Dev.end, seq] at ha
    by_cases hbelow : a < 1024 * (frameSeq fr.buffer).toNat
    · rw [image.below a hbelow, image'.below a hbelow]
      exact h.image a (writes.end_eq ▸ hbelow)
    obtain ⟨j, rfl⟩ := Nat.exists_eq_add_of_le (Nat.not_lt.mp hbelow)
    by_cases hj : j < 512 * framePages (frameLen fr.buffer).toNat
    · rw [image.data j hj, image'.data j hj, h.dev.iv writes.auth]
    · rw [rest j (by omega) (by omega), rest' j (by omega) (by omega)]

-- ---------------------------------------------------------------------------
-- Any two pasts
-- ---------------------------------------------------------------------------

structure Initialized (idx : Int) (d : Dev) : Prop where
  cipher : d.cryptoIdx = idx
  table : d.crc32Table = if idx = -1 then fun _ => 0 else initCrc32Table

theorem initialized_boot (idx : Int) (f : Flash) : Initialized idx (boot idx f) := by
  unfold boot upgradeInit
  by_cases h : idx = -1 <;> exact ⟨by simp [h], by simp [h, powerUp]⟩

theorem Handled.initialized {env : Env} {d : Dev} {r : Dev × Out} (h : Handled lib env d buffer r)
    (hd : Initialized idx d) : Initialized idx r.1 := by
  cases h <;> exact ⟨hd.cipher, hd.table⟩

theorem initialized_next (d : Dev) (e : Event) (hd : Initialized idx d) :
    Initialized idx ((device lib idx).next d e) := by
  cases e with
  | frame fr =>
    obtain ⟨r, hr, -, hn⟩ := device_frame lib idx d fr
    rw [hn]
    exact hr.initialized hd
  | poll curTime o =>
    obtain ⟨r, hr, -, hn⟩ := device_poll lib idx d curTime o
    rw [hn]
    cases hr with
    | off => exact hd
    | waiting => exact ⟨hd.cipher, hd.table⟩
    | switched => exact initialized_boot _ _

theorem Accepted.authPass {d : Dev} {fr : Frame} (h : Accepted lib ((upgrade lib).turn d fr)) :
    Valid d fr.buffer ∧ frameType fr.buffer = authenticatedFrame ∧ TagMatches lib fr.env d fr.buffer := by
  obtain ⟨r, hr, ht, -⟩ := upgrade_handled lib d fr
  obtain ⟨type, -, out⟩ := h
  rw [ht] at type out
  have hret : r.2.ret = success := congrArg Out.ret out
  have hfail : ¬ failure = success := by decide
  have hdata : ¬ dataFrame = authenticatedFrame := by decide
  have hcommand : ¬ commandFrame = authenticatedFrame := by decide
  cases hr with
  | authPass valid type tag => exact ⟨valid, type, tag⟩
  | stored writes => exact absurd (writes.type.symm.trans type) hdata
  | version command => exact absurd (command.type.symm.trans type) hcommand
  | crc command => exact absurd (command.type.symm.trans type) hcommand
  | exec command => exact absurd (command.type.symm.trans type) hcommand
  | _ => exact absurd hret hfail

/-- What an authentication frame opens is the same session, whatever was before it. -/
theorem accepted_copies {d e : Dev} {fr : Frame} (hd : Initialized idx d) (he : Initialized idx e)
    (gpnvm2 : e.flash.gpnvm2 = d.flash.gpnvm2) (accepted : Accepted lib ((upgrade lib).turn d fr)) :
    ((upgrade lib).turn e fr).out = ((upgrade lib).turn d fr).out ∧
      Copies ((upgrade lib).next d fr) ((upgrade lib).next e fr) := by
  have htable : e.crc32Table = d.crc32Table := he.table.trans hd.table.symm
  have hidx : e.cryptoIdx = d.cryptoIdx := he.cipher.trans hd.cipher.symm
  obtain ⟨valid, type, tag⟩ := accepted.authPass
  have valid' : Valid e fr.buffer := by
    rw [Valid, htable]
    exact valid
  have tag' : TagMatches lib fr.env e fr.buffer := ⟨hidx ▸ tag.1, tag.2⟩
  obtain ⟨p, g, heq⟩ := handle_pass lib fr.env valid type tag
  obtain ⟨p', g', heq'⟩ := handle_pass lib fr.env valid' type tag'
  refine ⟨(congrArg Prod.snd heq').trans (congrArg Prod.snd heq).symm, ?_⟩
  have hnext : (upgrade lib).next d fr = _ := congrArg Prod.fst heq
  have hnext' : (upgrade lib).next e fr = _ := congrArg Prod.fst heq'
  rw [hnext, hnext']
  exact ⟨⟨rfl, rfl, rfl, hidx, htable, gpnvm2, fun _ => rfl, ready_zero _, ready_zero _⟩, .fresh rfl rfl,
    fun a ha => absurd ha (Nat.not_lt_zero a)⟩

/-- From `d` and from `e` the frames get the same answers and the same flash commands, and the
image they build is the same. -/
structure SameRun (lib : GcmLib) (frames : List Frame) (d e : Dev) : Prop where
  outs : ((upgrade lib).turns e frames).map Turn.out = ((upgrade lib).turns d frames).map Turn.out
  auth : ((upgrade lib).run e frames).isAuthenticated = ((upgrade lib).run d frames).isAuthenticated
  seq : ((upgrade lib).run e frames).prePktSeq = ((upgrade lib).run d frames).prePktSeq
  len : ((upgrade lib).run e frames).fileLen = ((upgrade lib).run d frames).fileLen
  image : ∀ a : Nat, a < 1024 * (((upgrade lib).run d frames).prePktSeq + 1) →
    ((upgrade lib).run e frames).flash.bank1 a = ((upgrade lib).run d frames).flash.bank1 a

/-- From an authentication frame that passes on, a session goes the same way on any two
devices that run from the same bank, whatever they went through before. -/
theorem session_afresh (lib : GcmLib) (idx : Int) (f g : Flash) (events events' : List Event) (fr : Frame)
    (frames : List Frame) :
    let d := (device lib idx).run (boot idx f) events
    let e := (device lib idx).run (boot idx g) events'
    e.flash.gpnvm2 = d.flash.gpnvm2 → Accepted lib ((upgrade lib).turn d fr) →
      SameRun lib (fr :: frames) d e := by
  intro d e gpnvm2 accepted
  have hd : Initialized idx d := Machine.inv initialized_next (initialized_boot idx f) events
  have he : Initialized idx e := Machine.inv initialized_next (initialized_boot idx g) events'
  obtain ⟨hout, hcopies⟩ := accepted_copies hd he gpnvm2 accepted
  obtain ⟨houts, hrun⟩ := Machine.same_outs (fun d e fr h => copies_next h fr) hcopies frames
  refine ⟨?_, hrun.dev.auth, hrun.dev.seq, hrun.dev.len, fun a ha => hrun.image a ?_⟩
  · rw [Machine.turns, Machine.turns, List.map_cons, List.map_cons, hout, houts]
  · rw [Machine.run] at ha
    rw [Dev.end]
    omega

theorem accepted_authenticationFrame (lib : GcmLib) (env : Env) {d : Dev} (hiv : iv.length = 16)
    (idx : d.cryptoIdx ≠ -1) (gcm : env.gcmErr = 0) :
    Accepted lib ((upgrade lib).turn d ⟨.ofList (App.authenticationFrame iv (aadTag lib iv)) fun _ => 0, env⟩) := by
  have htag := System.length_aadTag lib iv
  obtain ⟨p, g, h⟩ := System.handle_authenticationFrame lib env (d := d) (fun _ => 0) hiv idx gcm
  refine ⟨System.authenticationFrame_type _ _ _, ?_, congrArg Prod.snd h⟩
  exact (congrArg _ (System.authenticationFrame_iv hiv htag)).trans (System.authenticationFrame_tag hiv htag).symm

/-- One in a session, and one that starts over a flash full of zeros. -/
theorem session_afresh_zeros :
    SameRun System.gcmMemory
      [⟨.ofList (App.authenticationFrame sampleIv (aadTag System.gcmMemory sampleIv)) fun _ => 0,
          ⟨0, fun _ => .done, 0⟩⟩,
        ⟨.ofList (App.dataFrame (List.replicate 1024 0) 0) fun _ => 0, ⟨0, fun _ => .done, 0⟩⟩]
      ((device System.gcmMemory 0).run (boot 0 blankFlash) [sampleAuth System.gcmMemory])
      ((device System.gcmMemory 0).run (boot 0 ⟨fun _ _ => 0, false⟩) []) := by
  have hidx : (boot 0 blankFlash).cryptoIdx ≠ -1 := by decide
  obtain ⟨p, g, hnext⟩ := next_sampleAuth System.gcmMemory 0 (boot 0 blankFlash) hidx
  refine session_afresh System.gcmMemory 0 blankFlash ⟨fun _ _ => 0, false⟩ [sampleAuth System.gcmMemory] [] _ _ ?_ ?_
  · simp only [Machine.run, hnext]
    rfl
  · simp only [Machine.run, hnext]
    exact accepted_authenticationFrame _ _ rfl hidx rfl

end EthernetOta.Firmware
