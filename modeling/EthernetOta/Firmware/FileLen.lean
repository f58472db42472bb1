import EthernetOta.Firmware.Switch

/-!
# What GET_CRC digests

Frame `i` is written at `1024 * i`, while `file_len` grows by what each frame
carries. So `file_len` covers the image just as long as only the last frame is
shorter than a block.
-/

namespace EthernetOta.Firmware

-- ---------------------------------------------------------------------------
-- Blocks
-- ---------------------------------------------------------------------------

theorem sum_le_mul {l : List Nat} (h : ∀ x ∈ l, x ≤ m) : l.sum ≤ m * l.length := by
  induction l with
  | nil => exact Nat.zero_le _
  | cons x l ih =>
    have hx := h x List.mem_cons_self
    have hl := ih fun y hy => h y (List.mem_cons_of_mem _ hy)
    rw [List.sum_cons, List.length_cons, Nat.mul_succ]
    omega

theorem eq_of_mul_le_sum {l : List Nat} (h : ∀ x ∈ l, x ≤ m) (hsum : m * l.length ≤ l.sum) :
    ∀ x ∈ l, x = m := by
  induction l with
  | nil => exact fun x hx => absurd hx List.not_mem_nil
  | cons y l ih =>
    have hy := h y List.mem_cons_self
    have hrest : ∀ x ∈ l, x ≤ m := fun x hx => h x (List.mem_cons_of_mem _ hx)
    have hle := sum_le_mul hrest
    rw [List.sum_cons, List.length_cons, Nat.mul_succ] at hsum
    intro x hx
    rcases List.mem_cons.mp hx with rfl | hx
    · omega
    · exact ih hrest (by omega) x hx

theorem sum_eq_mul {l : List Nat} (h : ∀ x ∈ l, x = m) : l.sum = m * l.length := by
  induction l with
  | nil => rfl
  | cons x l ih =>
    rw [List.sum_cons, List.length_cons, Nat.mul_succ, h x List.mem_cons_self,
      ih fun y hy => h y (List.mem_cons_of_mem _ hy), Nat.add_comm]

/-- Blocks laid out at multiples of `m` lie within the sum of their lengths. -/
def Within (m : Nat) (lens : List Nat) : Prop := ∀ i (h : i < lens.length), m * i + lens[i] ≤ lens.sum

theorem within_iff {lens : List Nat} (h : ∀ x ∈ lens, x ≤ m) :
    Within m lens ↔ ∀ x ∈ lens.dropLast, x = m := by
  rcases List.eq_nil_or_concat lens with rfl | ⟨init, last, rfl⟩
  · exact ⟨fun _ x hx => absurd hx List.not_mem_nil, fun _ i hi => absurd hi (Nat.not_lt_zero i)⟩
  rw [List.concat_eq_append] at h ⊢
  have hinit : ∀ x ∈ init, x ≤ m := fun x hx => h x (List.mem_append_left _ hx)
  rw [List.dropLast_concat]
  constructor
  · intro hwithin
    have hlast := hwithin init.length (by simp)
    rw [List.getElem_concat_length rfl, List.sum_append, List.sum_singleton] at hlast
    exact eq_of_mul_le_sum hinit (by omega)
  · intro hfull i hi
    have hsum := sum_eq_mul hfull
    rw [List.sum_append, List.sum_singleton, hsum]
    rcases Nat.lt_or_ge i init.length with hlt | hge
    · rw [List.getElem_append_left hlt, hfull _ (List.getElem_mem hlt)]
      have hmul := Nat.mul_le_mul_left m (Nat.succ_le_of_lt hlt)
      rw [Nat.mul_succ] at hmul
      omega
    · rw [List.length_append, List.length_singleton] at hi
      obtain rfl : i = init.length := by omega
      rw [List.getElem_concat_length rfl]

-- ---------------------------------------------------------------------------
-- The length of the image
-- ---------------------------------------------------------------------------

variable {lib : GcmLib}

def Log.lens (l : Log) : List Nat := l.frames.map fun b => (frameLen b).toNat

structure Measured (l : Log) (d : Dev) : Prop where
  fileLen : d.fileLen.toNat = l.lens.sum
  count : l.frames.length ≤ maxSeqNum + 1

theorem Measured.store {l : Log} {d d' : Dev} {env : Env} {buffer : Mem} (h : Measured l d)
    (image : Image lib l d) (writes : Writes env d buffer)
    (fileLen : d'.fileLen = d.fileLen + (frameLen buffer).setWidth 32) :
    Measured { l with frames := l.frames ++ [buffer] } d' := by
  have hseq := image.next writes.toNext
  have hle := writes.seq_le
  have hlen := writes.len_le
  have hmax : maxSeqNum = 1023 ∧ maxPlaintextLen = 1024 := ⟨rfl, rfl⟩
  have hsum : l.lens.sum ≤ 1024 * l.lens.length := by
    refine sum_le_mul fun x hx => ?_
    obtain ⟨b, hb, rfl⟩ := List.mem_map.mp hx
    exact (image.len b hb).2
  rw [Log.lens, List.length_map] at hsum
  constructor
  · have hold := h.fileLen
    rw [Log.lens] at hold
    rw [fileLen, Log.lens, List.map_append, List.sum_append, BitVec.toNat_add, BitVec.toNat_setWidth, hold,
      List.map_cons, List.map_nil, List.sum_singleton]
    omega
  · rw [List.length_append, List.length_singleton]
    omega

theorem Measured.start (l : Log) {t : UpgradeTurn} {d : Dev} (ret : t.out.ret = success)
    (type : frameType t.input.buffer = authenticatedFrame) (len : d.fileLen = 0) : Measured (l.turn t) d := by
  rw [Log.turn_auth _ ret type]
  refine ⟨?_, Nat.zero_le _⟩
  rw [len]
  rfl

theorem Measured.turn_store {l : Log} {t : UpgradeTurn} {d d' : Dev} {env : Env} (h : Measured l d)
    (image : Image lib l d) (writes : Writes env d t.input.buffer) (ret : t.out.ret = success)
    (fileLen : d'.fileLen = d.fileLen + (frameLen t.input.buffer).setWidth 32) : Measured (l.turn t) d' := by
  rw [Log.turn_data _ ret writes.type]
  exact h.store image writes fileLen

theorem Measured.unchanged {l : Log} {t : UpgradeTurn} {d d' : Dev} (h : Measured l d)
    (log : ∀ l : Log, l.turn t = l) (len : d'.fileLen = d.fileLen) : Measured (l.turn t) d' := by
  rw [log]
  exact ⟨len ▸ h.fileLen, h.count⟩

structure Session (lib : GcmLib) (turns : List UpgradeTurn) (d : Dev) : Prop where
  follows : Follows lib turns d
  measured : d.isAuthenticated = true → Measured (sessionLog turns) d

theorem session_next (turns : List UpgradeTurn) (d : Dev) (fr : Frame) (h : Session lib turns d) :
    Session lib (turns ++ [(upgrade lib).turn d fr]) ((upgrade lib).next d fr) := by
  refine ⟨follows_next turns d fr h.follows, ?_⟩
  obtain ⟨r, hr, ht, hn⟩ := upgrade_handled lib d fr
  rw [sessionLog_snoc, hn, ht]
  cases hr with
  | authFail => exact fun ho => absurd ho Bool.false_ne_true
  | seqMismatch => exact fun ho => absurd ho Bool.false_ne_true
  | writeErr => exact fun ho => absurd ho Bool.false_ne_true
  | readBackErr => exact fun ho => absurd ho Bool.false_ne_true
  | authPass valid type => exact fun _ => .start _ rfl type rfl
  | stored writes w =>
    exact fun _ => (h.measured writes.auth).turn_store (h.follows writes.auth) writes rfl rfl
  | version command => exact fun ho => (h.measured ho).unchanged (fun l => l.turn_command command.type) rfl
  | crc command => exact fun ho => (h.measured ho).unchanged (fun l => l.turn_command command.type) rfl
  | exec command => exact fun ho => (h.measured ho).unchanged (fun l => l.turn_command command.type) rfl
  | decryptErr => exact fun ho => (h.measured ho).unchanged (fun l => l.turn_failure rfl) rfl
  | invalid => exact fun ho => (h.measured ho).unchanged (fun l => l.turn_failure rfl) rfl
  | closed => exact fun ho => (h.measured ho).unchanged (fun l => l.turn_failure rfl) rfl
  | seqRange => exact fun ho => (h.measured ho).unchanged (fun l => l.turn_failure rfl) rfl
  | badLen => exact fun ho => (h.measured ho).unchanged (fun l => l.turn_failure rfl) rfl
  | unknown => exact fun ho => (h.measured ho).unchanged (fun l => l.turn_failure rfl) rfl

theorem session_run (lib : GcmLib) (idx : Int) (f : Flash) (frames : List Frame) :
    Session lib ((upgrade lib).turns (boot idx f) frames) ((upgrade lib).run (boot idx f) frames) := by
  have hclosed : (boot idx f).isAuthenticated = true → False := by
    unfold boot upgradeInit
    by_cases h : idx = -1 <;> simp [h, powerUp]
  exact Machine.history session_next ⟨fun h => (hclosed h).elim, fun h => (hclosed h).elim⟩ frames

/-- In every state of an open session that a run leads to, each frame accepted in the
session lies inside what `GET_CRC` digests just when all of them but the last are full. -/
theorem fileLen_covers (lib : GcmLib) (idx : Int) (f : Flash) (frames : List Frame) :
    let l := sessionLog ((upgrade lib).turns (boot idx f) frames)
    let d := (upgrade lib).run (boot idx f) frames
    d.isAuthenticated = true →
      ((∀ i (h : i < l.frames.length), 1024 * i + (frameLen l.frames[i]).toNat ≤ d.fileLen.toNat) ↔
        ∀ b ∈ l.frames.dropLast, (frameLen b).toNat = 1024) := by
  intro l d auth
  have h := session_run lib idx f frames
  have himage := h.follows auth
  have hlens : ∀ x ∈ l.lens, x ≤ 1024 := by
    intro x hx
    obtain ⟨b, hb, rfl⟩ := List.mem_map.mp hx
    exact (himage.len b hb).2
  have hiff := within_iff hlens
  rw [Within, ← (h.measured auth).fileLen] at hiff
  have hlast : l.lens.dropLast = l.frames.dropLast.map fun b => (frameLen b).toNat := List.map_dropLast.symm
  rw [hlast] at hiff
  simp only [Log.lens, List.length_map, List.getElem_map, List.mem_map, forall_exists_index, and_imp,
    forall_apply_eq_imp_iff₂] at hiff
  exact hiff

-- ---------------------------------------------------------------------------
-- Full and short frames
-- ---------------------------------------------------------------------------

/-- An open session after `k` frames, with `len` bytes in them. -/
structure Opened (k : Nat) (len : Word) (d : Dev) : Prop where
  auth : d.isAuthenticated = true
  table : d.crc32Table = initCrc32Table
  idx : d.cryptoIdx ≠ -1
  seq : d.prePktSeq + 1 = k
  fileLen : d.fileLen = len
  ready : Nor.Ready eraseGroupSize d.flash.bank1 (1024 * k)

section
variable {d : Dev} {fr : Frame} {k : Nat} {len : Word}

theorem Opened.store (lib : GcmLib) (h : Opened k len d) (writes : Writes fr.env d fr.buffer)
    (done : ∀ c, fr.env.flash c = .done) (hlen : (frameLen fr.buffer).setWidth 32 = n) :
    Opened (k + 1) (len + n) ((upgrade lib).next d fr) := by
  have hnum : (frameSeq fr.buffer).toNat = k := Int.ofNat_inj.mp (writes.seq.symm.trans h.seq)
  obtain ⟨w, p, g, effects, appended, heq⟩ := handle_stored lib writes done (hnum ▸ h.ready)
  have hnext : (upgrade lib).next d fr = _ := congrArg Prod.fst heq
  have hready := appended.ready
  rw [hnum] at hnext hready
  rw [hnext]
  exact
    { auth := writes.auth
      table := h.table
      idx := h.idx
      seq := rfl
      fileLen := by rw [← h.fileLen, ← hlen]
      ready := hready }

def fullFrame (num : Half) : Frame :=
  ⟨.ofList (App.dataFrame (List.replicate 1024 0) num) fun _ => 0, ⟨0, fun _ => .done, 0⟩⟩

theorem Opened.full (lib : GcmLib) {num : Half} (h : Opened k len d) (hnum : num.toNat = k) (hk : k ≤ maxSeqNum) :
    Opened (k + 1) (len + 1024) ((upgrade lib).next d (fullFrame num)) := by
  have hlen : (frameLen (fullFrame num).buffer).setWidth 32 = (1024 : Word) := by
    rw [fullFrame, System.dataFrame_len]
    rfl
  have writes : Writes (fullFrame num).env d (fullFrame num).buffer :=
    System.dataFrame_writes _ num List.length_replicate _ h.auth h.table (hnum ▸ hk) (hnum ▸ h.seq) h.idx rfl
  exact h.store lib writes (fun _ => rfl) hlen

/-- A data frame with one byte, 0. -/
def shortFrame (num : Byte) (crc : Word) : Frame :=
  ⟨.ofList (App.header ++ [0x08, 0x01, 0x00, num, 0x00, 0x01, 0x00] ++ App.crcBytes crc ++ App.tail) fun _ => 0,
    ⟨0, fun _ => .done, 0⟩⟩

theorem shortFrame_seq (num : Byte) (crc : Word) :
    frameSeq (shortFrame num crc).buffer = (0x00 : Byte) ++ num := by
  have h10 : (shortFrame num crc).buffer 10 = 0x00 := rfl
  have h11 : (shortFrame num crc).buffer 11 = num := rfl
  have hpos : pktHeaderLen + pktTypeLen = 10 := rfl
  rw [frameSeq, Mem.load16, hpos, h10, h11, System.uHtons_append]

theorem shortFrame_len (num : Byte) (crc : Word) : frameLen (shortFrame num crc).buffer = 1 := by
  have h12 : (shortFrame num crc).buffer 12 = 0x00 := rfl
  have h13 : (shortFrame num crc).buffer 13 = 0x01 := rfl
  have hpos : pktHeaderLen + pktTypeLen + pktSeqLen = 12 := rfl
  rw [frameLen, Mem.load16, hpos, h12, h13]
  decide

theorem Opened.short (lib : GcmLib) {num : Byte} {crc : Word} (h : Opened k len d)
    (valid : isPktValid initCrc32Table dataFrame 1 (shortFrame num crc).buffer = .ok ())
    (hnum : ((0x00 : Byte) ++ num : Half).toNat = k) (hk : k ≤ maxSeqNum) :
    Opened (k + 1) (len + 1) ((upgrade lib).next d (shortFrame num crc)) := by
  have htype : frameType (shortFrame num crc).buffer = dataFrame := by
    have h8 : (shortFrame num crc).buffer 8 = 0x08 := rfl
    have h9 : (shortFrame num crc).buffer 9 = 0x01 := rfl
    rw [frameType, Mem.load16, pktHeaderLen, h8, h9]
    decide
  have hlen := shortFrame_len num crc
  have hseq := shortFrame_seq num crc
  have hle : (1 : Half).toNat ≤ maxPlaintextLen := by decide
  have writes : Writes (shortFrame num crc).env d (shortFrame num crc).buffer :=
    { auth := h.auth
      valid := by rw [Valid, h.table, htype, hlen]; exact valid
      type := htype
      seq_le := by rw [hseq, hnum]; exact hk
      seq := by rw [hseq, hnum]; exact h.seq
      len_pos := by rw [hlen]; exact Nat.one_pos
      len_le := by rw [hlen]; exact hle
      idx := h.idx
      gcm := rfl }
  exact h.store lib writes (fun _ => rfl) (by rw [hlen]; rfl)

end

def authFrame (lib : GcmLib) : Frame :=
  ⟨.ofList (App.authenticationFrame sampleIv (aadTag lib sampleIv)) fun _ => 0, ⟨0, fun _ => .done, 0⟩⟩

theorem opened_authFrame (lib : GcmLib) : Opened 0 0 ((upgrade lib).next (boot 0 blankFlash) (authFrame lib)) := by
  have hlen : sampleIv.length = 16 := rfl
  have hidx : (boot 0 blankFlash).cryptoIdx ≠ -1 := by decide
  obtain ⟨p, g, h⟩ := System.handle_authenticationFrame lib ⟨0, fun _ => .done, 0⟩ (fun _ => 0)
    hlen hidx rfl
  have hnext : (upgrade lib).next (boot 0 blankFlash) (authFrame lib) = _ := congrArg Prod.fst h
  rw [hnext]
  exact
    { auth := rfl
      table := rfl
      idx := hidx
      seq := rfl
      fileLen := rfl
      ready := fun h => absurd rfl h }

def short0 : Frame := shortFrame 0 0x3b66b7af

def short1 : Frame := shortFrame 1 0x83dad0ca

theorem short0_valid : isPktValid initCrc32Table dataFrame 1 (shortFrame 0 0x3b66b7af).buffer = .ok () := by
  decide +kernel

theorem short1_valid : isPktValid initCrc32Table dataFrame 1 (shortFrame 1 0x83dad0ca).buffer = .ok () := by
  decide +kernel

theorem opened_full (lib : GcmLib) :
    Opened 2 1025 ((upgrade lib).run (boot 0 blankFlash) [authFrame lib, fullFrame 0, short1]) :=
  ((opened_authFrame lib).full lib rfl (by decide)).short lib short1_valid rfl (by decide)

/-- A full frame, and a short one after it. -/
theorem fileLen_covers_short :
    let l := sessionLog ((upgrade System.gcmMemory).turns (boot 0 blankFlash)
      [authFrame System.gcmMemory, fullFrame 0, short1])
    let d := (upgrade System.gcmMemory).run (boot 0 blankFlash) [authFrame System.gcmMemory, fullFrame 0, short1]
    (∀ i (h : i < l.frames.length), 1024 * i + (frameLen l.frames[i]).toNat ≤ d.fileLen.toNat) ↔
      ∀ b ∈ l.frames.dropLast, (frameLen b).toNat = 1024 :=
  fileLen_covers System.gcmMemory 0 blankFlash [authFrame System.gcmMemory, fullFrame 0, short1]
    (opened_full System.gcmMemory).auth

theorem opened_short (lib : GcmLib) :
    Opened 2 2 ((upgrade lib).run (boot 0 blankFlash) [authFrame lib, short0, short1]) :=
  ((opened_authFrame lib).short lib short0_valid rfl (by decide)).short lib short1_valid rfl (by decide)

theorem not_within_short (lib : GcmLib) :
    let l := sessionLog ((upgrade lib).turns (boot 0 blankFlash) [authFrame lib, short0, short1])
    let d := (upgrade lib).run (boot 0 blankFlash) [authFrame lib, short0, short1]
    d.isAuthenticated = true ∧
      ¬ ∀ i (h : i < l.frames.length), 1024 * i + (frameLen l.frames[i]).toNat ≤ d.fileLen.toNat := by
  intro l d
  have hopened : Opened 2 2 d := opened_short lib
  refine ⟨hopened.auth, fun hcover => ?_⟩
  have himage : Image lib l d :=
    (session_run lib 0 blankFlash [authFrame lib, short0, short1]).follows hopened.auth
  have hcount : l.frames.length = 2 := Int.ofNat_inj.mp (himage.seq.symm.trans hopened.seq)
  have hsecond := hcover 1 (by omega)
  rw [hopened.fileLen] at hsecond
  have htwo : (2 : Word).toNat = 2 := rfl
  omega

/-- The second byte is at 1024, and `file_len` is 2. -/
theorem fileLen_short :
    let l := sessionLog ((upgrade System.gcmMemory).turns (boot 0 blankFlash)
      [authFrame System.gcmMemory, short0, short1])
    let d := (upgrade System.gcmMemory).run (boot 0 blankFlash) [authFrame System.gcmMemory, short0, short1]
    d.isAuthenticated = true ∧
      ¬ ∀ i (h : i < l.frames.length), 1024 * i + (frameLen l.frames[i]).toNat ≤ d.fileLen.toNat :=
  not_within_short System.gcmMemory

end EthernetOta.Firmware
