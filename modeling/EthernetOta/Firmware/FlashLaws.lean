import EthernetOta.Firmware.Upgrade

/-!
# What `data_write` does to the flash

Every address `data_write` passes on is the address of a page of bank 1, so a
page of the loop is at most one erase of the group of eight it starts and one
programming of the page itself, both on the controller seen at `IFLASH1_ADDR`.
A frame is one or two such pages.
-/

namespace EthernetOta.Firmware

-- ---------------------------------------------------------------------------
-- Controller commands
-- ---------------------------------------------------------------------------

section
variable {io : EfcCmd → Outcome} {f : Flash} {c : EfcCmd} {latch latch' : Mem}

@[simp] theorem Flash.update_gpnvm2 (efc : Efc) (cells : Nor.Cells 8) :
    (f.update efc cells).gpnvm2 = f.gpnvm2 := rfl

@[simp] theorem Flash.update_cells (efc : Efc) (cells : Nor.Cells 8) :
    (f.update efc cells).cells efc = cells := by simp [Flash.update]

theorem Flash.update_cells_ne {efc e : Efc} (cells : Nor.Cells 8) (h : e ≠ efc) :
    (f.update efc cells).cells e = f.cells e := by simp [Flash.update, h]

theorem Flash.efcAt1_ne_efcAt0 (f : Flash) : f.efcAt1 ≠ f.efcAt0 := by
  cases h : f.gpnvm2 <;> simp [Flash.efcAt1, Flash.efcAt0, h]

theorem Flash.efcAt1_congr {g : Flash} (h : g.gpnvm2 = f.gpnvm2) : g.efcAt1 = f.efcAt1 := by
  simp [Flash.efcAt1, h]

theorem Flash.efcAt0_congr {g : Flash} (h : g.gpnvm2 = f.gpnvm2) : g.efcAt0 = f.efcAt0 := by
  simp [Flash.efcAt0, h]

@[simp] theorem efcPerformCommand_gpnvm2 :
    (efcPerformCommand io f c latch).2.gpnvm2 = f.gpnvm2 := by
  unfold efcPerformCommand
  cases io c <;> cases c <;> rfl

theorem efcPerformCommand_rc : (efcPerformCommand io f c latch).1 = 0 ↔ io c = .done := by
  unfold efcPerformCommand
  cases h : io c with
  | done => cases c <;> simp
  | error flags left => simpa using flags.property

theorem efcPerformCommand_other {e : Efc} (h : e ≠ c.efc) :
    (efcPerformCommand io f c latch).2.cells e = f.cells e := by
  unfold efcPerformCommand
  cases io c <;> cases c <;> exact Flash.update_cells_ne _ h

theorem efcPerformCommand_erase (h : io (.erasePages e arg) = .done) :
    (efcPerformCommand io f (.erasePages e arg) latch).2.cells e =
      Nor.erase ((EfcCmd.erasePages e arg).firstPage * 512) ((EfcCmd.erasePages e arg).count * 512)
        (f.cells e) := by
  simp [efcPerformCommand, h]

theorem efcPerformCommand_write (h : io (.writePage e page) = .done) :
    (efcPerformCommand io f (.writePage e page) latch).2.cells e =
      Nor.program (page.toNat * 512) 512 latch (f.cells e) := by
  simp [efcPerformCommand, h, EfcCmd.firstPage, EfcCmd.count]

theorem efcPerformCommand_latch (h : ∀ i, i < 512 → latch i = latch' i) :
    efcPerformCommand io f (.writePage e page) latch =
      efcPerformCommand io f (.writePage e page) latch' := by
  have key : ∀ lo (cells : Nor.Cells 8),
      Nor.program lo 512 latch cells = Nor.program lo 512 latch' cells := by
    intro lo cells
    funext a
    by_cases ha : lo ≤ a ∧ a < lo + 512
    · rw [Nor.program, Nor.program, Nor.fill_in ha.1 ha.2, Nor.fill_in ha.1 ha.2,
        h (a - lo) (by omega)]
    · rw [Nor.program_out (by omega), Nor.program_out (by omega)]
  unfold efcPerformCommand
  cases io (.writePage e page) with
  | done => simp [EfcCmd.count, key]
  | error => rfl

end

-- ---------------------------------------------------------------------------
-- Page addresses
-- ---------------------------------------------------------------------------

theorem iflash1Addr_toNat : iflash1Addr.toNat = 0x500000 := by decide

def pageAddr (p : Nat) : Word := iflash1Addr + BitVec.ofNat 32 (512 * p)

theorem pageAddr_toNat (hp : p < 2048) : (pageAddr p).toNat = iflash1Addr.toNat + 512 * p := by
  rw [pageAddr, BitVec.toNat_add, BitVec.toNat_ofNat, iflash1Addr_toNat]
  omega

theorem frameAddr_toNat {seq : Half} (h : seq.toNat ≤ maxSeqNum) :
    (frameAddr seq).toNat = iflash1Addr.toNat + 1024 * seq.toNat := by
  have hmax : BitVec.ofNat 32 maxPlaintextLen = 1024#32 := rfl
  have h : seq.toNat ≤ 1023 := h
  rw [frameAddr, hmax, BitVec.toNat_add, BitVec.toNat_mul, BitVec.toNat_setWidth,
    iflash1Addr_toNat, BitVec.toNat_ofNat]
  omega

theorem frameAddr_eq {seq : Half} (h : seq.toNat ≤ maxSeqNum) :
    frameAddr seq = pageAddr (2 * seq.toNat) := by
  have hseq : seq.toNat ≤ 1023 := h
  apply BitVec.eq_of_toNat_eq
  rw [frameAddr_toNat h, pageAddr_toNat (by omega)]
  omega

theorem pageAddr_succ (p : Nat) : pageAddr p + iflash0PageSize = pageAddr (p + 1) := by
  have hsize : iflash0PageSize = BitVec.ofNat 32 512 := rfl
  rw [pageAddr, pageAddr, hsize, BitVec.add_assoc, ← BitVec.ofNat_add, Nat.mul_succ]

theorem pageAddr_sub (p : Nat) : pageAddr p - iflash1Addr = BitVec.ofNat 32 (512 * p) := by
  rw [pageAddr, BitVec.add_comm, BitVec.add_sub_cancel]

theorem pageAddr_ge (hp : p < 2048) : iflash1Addr ≤ pageAddr p := by
  rw [BitVec.le_def, pageAddr_toNat hp]
  omega

theorem pageAddr_page (hp : p < 2048) :
    (pageAddr p - iflash1Addr) / iflash1PageSize = BitVec.ofNat 32 p := by
  have hsize : iflash1PageSize.toNat = 512 := by decide
  apply BitVec.eq_of_toNat_eq
  rw [pageAddr_sub, BitVec.toNat_udiv, hsize, BitVec.toNat_ofNat, BitVec.toNat_ofNat]
  omega

theorem pageAddr_offset (p : Nat) : ((pageAddr p - iflash1Addr) % iflash1PageSize).toNat = 0 := by
  have hsize : iflash1PageSize.toNat = 512 := by decide
  rw [pageAddr_sub, BitVec.toNat_umod, hsize, BitVec.toNat_ofNat]
  omega

theorem translateAddress_pageAddr (f : Flash) (hp : p < 2048) :
    translateAddress f (pageAddr p) = (f.efcAt1, BitVec.ofNat 16 p, 0) := by
  have hpage : (BitVec.ofNat 32 p).setWidth 16 = BitVec.ofNat 16 p := by
    apply BitVec.eq_of_toNat_eq
    rw [BitVec.toNat_setWidth, BitVec.toNat_ofNat, BitVec.toNat_ofNat]
    omega
  rw [translateAddress, if_pos (pageAddr_ge hp), pageAddr_page hp, pageAddr_offset, hpage]
  rfl

theorem read_pageAddr (f : Flash) (h : 512 * p + i < 2 ^ 20) :
    f.read (pageAddr p + BitVec.ofNat 32 i) = f.bank1 (512 * p + i) := by
  have haddr : pageAddr p + BitVec.ofNat 32 i = iflash1Addr + BitVec.ofNat 32 (512 * p + i) := by
    rw [pageAddr, BitVec.add_assoc, ← BitVec.ofNat_add]
  have hge : iflash1Addr ≤ iflash1Addr + BitVec.ofNat 32 (512 * p + i) := by
    rw [BitVec.le_def, BitVec.toNat_add, BitVec.toNat_ofNat, iflash1Addr_toNat]
    omega
  rw [haddr, Flash.read, if_pos hge, BitVec.add_comm, BitVec.add_sub_cancel, BitVec.toNat_ofNat,
    Nat.mod_eq_of_lt (by omega), Flash.bank1]

-- ---------------------------------------------------------------------------
-- One page
-- ---------------------------------------------------------------------------

def eraseGroup (f : Flash) (p : Nat) : EfcCmd := .erasePages f.efcAt1 (BitVec.ofNat 16 p ||| iflashErasePages8)

def programPage (f : Flash) (p : Nat) : EfcCmd := .writePage f.efcAt1 (BitVec.ofNat 16 p)

theorem group_arg (hp : p < 2048) (h8 : p % 8 = 0) :
    (BitVec.ofNat 16 p ||| iflashErasePages8).toNat = p + 1 := by
  obtain ⟨q, rfl⟩ : ∃ q, p = 2 ^ 3 * q := ⟨p / 8, by omega⟩
  have hsize : iflashErasePages8.toNat = 1 := by decide
  rw [BitVec.toNat_or, BitVec.toNat_ofNat, hsize, Nat.mod_eq_of_lt (by omega),
    ← Nat.two_pow_add_eq_or_of_lt (by decide)]

theorem eraseGroup_count (f : Flash) (hp : p < 2048) (h8 : p % 8 = 0) : (eraseGroup f p).count = 8 := by
  have : (p + 1) % 4 = 1 := by omega
  simp [eraseGroup, EfcCmd.count, group_arg hp h8, this]

theorem eraseGroup_firstPage (f : Flash) (hp : p < 2048) (h8 : p % 8 = 0) :
    (eraseGroup f p).firstPage = p := by
  have h := eraseGroup_count f hp h8
  simp only [eraseGroup] at h
  simp only [eraseGroup, EfcCmd.firstPage, h, group_arg hp h8]
  omega

theorem programPage_firstPage (f : Flash) (hp : p < 2048) : (programPage f p).firstPage = p := by
  simp [programPage, EfcCmd.firstPage]
  omega

theorem pageAddr_aligned (hp : p < 2048) : pageAddr p &&& (iflashPageSize - 1) = 0 := by
  have hmask : (iflashPageSize - 1).toNat = 2 ^ 9 - 1 := by decide
  apply BitVec.eq_of_toNat_eq
  rw [BitVec.toNat_and, pageAddr_toNat hp, hmask, Nat.and_two_pow_sub_one_eq_mod, iflash1Addr_toNat]
  show _ = 0
  omega

theorem flashErasePage_pageAddr (io : EfcCmd → Outcome) (f : Flash) (hp : p < 2048) :
    flashErasePage io f (pageAddr p) iflashErasePages8 =
      let r := efcPerformCommand io f (eraseGroup f p) (fun _ => 0)
      ⟨if r.1 = 0 then success else flashRcError, r.2, [eraseGroup f p]⟩ := by
  have hvalid : ¬ iflashErasePagesInvalid ≤ iflashErasePages8 := by decide
  rw [flashErasePage, if_neg hvalid, if_neg (not_not.mpr (pageAddr_aligned hp)),
    translateAddress_pageAddr f hp]
  simp only []
  rw [show EfcCmd.erasePages f.efcAt1 (BitVec.ofNat 16 p ||| iflashErasePages8) = eraseGroup f p from rfl]
  generalize efcPerformCommand io f (eraseGroup f p) (fun _ => 0) = r
  obtain ⟨rc, f'⟩ := r
  by_cases h : rc = 0
  · simp only [h, ne_eq, not_true_eq_false, if_false, if_true]; rfl
  · simp only [h, ne_eq, not_false_eq_true, if_false, if_true]

theorem flashWrite_pageAddr (io : EfcCmd → Outcome) (f : Flash) (buffer : Mem) (hp : p < 2048) :
    flashWrite io f (pageAddr p) buffer iflash0PageSize.toNat =
      let r := efcPerformCommand io f (programPage f p) buffer
      ⟨r.1, r.2, [programPage f p]⟩ := by
  have hsize : iflash0PageSize.toNat = 511 + 1 := by decide
  rw [flashWrite, translateAddress_pageAddr f hp, hsize]
  -- the page loop writes a whole page and then has no bytes left
  change flashWriteLoop io f.efcAt1 (511 + 1) f (BitVec.ofNat 16 p) 0 buffer 512 = _
  generalize 511 = turns
  rw [flashWriteLoop, if_neg (by decide)]
  have hlatch : ∀ r, efcPerformCommand io f (programPage f p) (fun i =>
      if i < 0 then f.read (r + BitVec.ofNat 32 i)
      else if i < 0 + min (512 - 0) 512 then buffer (i - 0)
      else f.read (r + BitVec.ofNat 32 i)) = efcPerformCommand io f (programPage f p) buffer := by
    intro r
    apply efcPerformCommand_latch
    intro i hi
    rw [if_neg (by omega), if_pos (by omega), Nat.sub_zero]
  simp only []
  rw [show EfcCmd.writePage f.efcAt1 (BitVec.ofNat 16 p) = programPage f p from rfl, hlatch]
  generalize efcPerformCommand io f (programPage f p) buffer = r
  obtain ⟨rc, f'⟩ := r
  by_cases h : rc = 0
  · cases turns with
    | zero => simp only [h, ne_eq, not_true_eq_false, if_false, flashWriteLoop]; rfl
    | succ turns => simp only [h, ne_eq, not_true_eq_false, if_false, flashWriteLoop]; rfl
  · simp only [h, ne_eq, not_false_eq_true, if_true]

/-- Bank 1 with the group of eight that page `p` starts erased, if it starts one. -/
def erasedAt (p : Nat) (c : Nor.Cells 8) : Nor.Cells 8 :=
  if p % 8 = 0 then Nor.erase (512 * p) 4096 c else c

/-- What `data_write` may do to the flash on its way, completed or not. -/
structure Confined (f : Flash) (res : WriteRes) : Prop where
  gpnvm2 : res.flash.gpnvm2 = f.gpnvm2
  bank0 : res.flash.cells f.efcAt0 = f.cells f.efcAt0
  command : ∀ c, .command c ∈ res.effects → c.efc = f.efcAt1 ∧ c.firstPage + c.count ≤ 2048

theorem ulPage_mod (hp : p < 2048) :
    (pageAddr p - iflash1Addr) / iflash0PageSize % pagesToErase = 0 ↔ p % 8 = 0 := by
  have hpage := pageAddr_page hp
  have hpages : pagesToErase.toNat = 8 := by decide
  rw [show iflash0PageSize = iflash1PageSize from rfl, hpage, ← BitVec.toNat_inj, BitVec.toNat_umod,
    hpages, BitVec.toNat_ofNat]
  show p % 2 ^ 32 % 8 = 0 ↔ _
  omega

theorem dataWritePage_pageAddr (io : EfcCmd → Outcome) (buffer : Mem) (f : Flash)
    (hp : p < 2048) (haddr : flAddr + ofAddr = pageAddr p) :
    dataWritePage io flAddr ofAddr buffer f =
      if p % 8 = 0 then
        let e := efcPerformCommand io f (eraseGroup f p) (fun _ => 0)
        if e.1 = 0 then
          let w := efcPerformCommand io e.2 (programPage f p) (buffer.offset ofAddr.toNat)
          ⟨w.1, w.2, [.page flAddr ofAddr, .command (eraseGroup f p), .command (programPage f p)]⟩
        else ⟨flashRcError, e.2, [.page flAddr ofAddr, .command (eraseGroup f p)]⟩
      else
        let w := efcPerformCommand io f (programPage f p) (buffer.offset ofAddr.toNat)
        ⟨w.1, w.2, [.page flAddr ofAddr, .command (programPage f p)]⟩ := by
  rw [dataWritePage, haddr, flashErasePage_pageAddr io f hp]
  by_cases h8 : p % 8 = 0
  · have hcmd : ∀ e : Flash, e.gpnvm2 = f.gpnvm2 → programPage e p = programPage f p := by
      intro e he
      rw [programPage, programPage, Flash.efcAt1_congr he]
    have he : (efcPerformCommand io f (eraseGroup f p) fun _ => 0).2.gpnvm2 = f.gpnvm2 :=
      efcPerformCommand_gpnvm2
    simp only [(ulPage_mod hp).mpr h8, h8, if_true]
    generalize efcPerformCommand io f (eraseGroup f p) (fun _ => 0) = e at he
    by_cases hrc : e.1 = 0
    · simp only [hrc, if_true, ne_eq, not_true_eq_false, if_false,
        flashWrite_pageAddr io _ _ hp, hcmd _ he]
      rfl
    · have herr : ¬ flashRcError = success := by decide
      simp only [hrc, if_false, ne_eq, herr, not_false_eq_true, if_true]
      rfl
  · have hne : ¬ (pageAddr p - iflash1Addr) / iflash0PageSize % pagesToErase = 0 :=
      fun h => h8 ((ulPage_mod hp).mp h)
    simp only [hne, h8, if_false, ne_eq, not_true_eq_false, flashWrite_pageAddr io _ _ hp]
    rfl

section
variable {io : EfcCmd → Outcome} {buffer : Mem} {f : Flash} {flAddr ofAddr : Word}

theorem dataWritePage_confined (hp : p < 2048) (haddr : flAddr + ofAddr = pageAddr p) :
    Confined f (dataWritePage io flAddr ofAddr buffer f) := by
  have hgroup : p % 8 = 0 → (eraseGroup f p).firstPage + (eraseGroup f p).count ≤ 2048 := by
    intro h8
    rw [eraseGroup_firstPage f hp h8, eraseGroup_count f hp h8]
    omega
  have hpage : (programPage f p).firstPage + (programPage f p).count ≤ 2048 := by
    rw [programPage_firstPage f hp]
    exact hp
  have hne : f.efcAt0 ≠ f.efcAt1 := f.efcAt1_ne_efcAt0.symm
  rw [dataWritePage_pageAddr io buffer f hp haddr]
  by_cases h8 : p % 8 = 0
  · simp only [h8, if_true]
    split
    · refine ⟨by simp, ?_, ?_⟩
      · simp only []
        rw [efcPerformCommand_other hne, efcPerformCommand_other hne]
      · simp only [List.mem_cons, List.not_mem_nil, or_false, reduceCtorEq, false_or, Effect.command.injEq]
        rintro c (rfl | rfl)
        · exact ⟨rfl, hgroup h8⟩
        · exact ⟨rfl, hpage⟩
    · refine ⟨by simp, efcPerformCommand_other hne, ?_⟩
      simp only [List.mem_cons, List.not_mem_nil, or_false, reduceCtorEq, false_or, Effect.command.injEq]
      rintro c rfl
      exact ⟨rfl, hgroup h8⟩
  · simp only [h8, if_false]
    refine ⟨by simp, efcPerformCommand_other hne, ?_⟩
    simp only [List.mem_cons, List.not_mem_nil, or_false, reduceCtorEq, false_or, Effect.command.injEq]
    rintro c rfl
    exact ⟨rfl, hpage⟩

theorem dataWritePage_bank1 (hp : p < 2048) (haddr : flAddr + ofAddr = pageAddr p)
    (hrc : (dataWritePage io flAddr ofAddr buffer f).rc = success) :
    (dataWritePage io flAddr ofAddr buffer f).flash.bank1 =
      Nor.program (512 * p) 512 (buffer.offset ofAddr.toNat) (erasedAt p f.bank1) := by
  have hwrite : ∀ g : Flash, g.gpnvm2 = f.gpnvm2 → ∀ latch,
      (efcPerformCommand io g (programPage f p) latch).1 = 0 →
      (efcPerformCommand io g (programPage f p) latch).2.bank1 =
        Nor.program (512 * p) 512 latch g.bank1 := by
    intro g hg latch hdone
    have hfirst := programPage_firstPage f hp
    have hefc : g.efcAt1 = f.efcAt1 := Flash.efcAt1_congr hg
    rw [Flash.bank1, Flash.efcAt1_congr (efcPerformCommand_gpnvm2.trans hg), programPage,
      efcPerformCommand_write (efcPerformCommand_rc.mp hdone), Flash.bank1, hefc]
    simp only [programPage, EfcCmd.firstPage] at hfirst
    rw [hfirst, Nat.mul_comm]
  rw [dataWritePage_pageAddr io buffer f hp haddr] at hrc ⊢
  by_cases h8 : p % 8 = 0
  · simp only [h8, if_true, erasedAt] at hrc ⊢
    by_cases he : (efcPerformCommand io f (eraseGroup f p) fun _ => 0).1 = 0
    · simp only [he, if_true] at hrc ⊢
      have hcount := eraseGroup_count f hp h8
      have hfirst := eraseGroup_firstPage f hp h8
      rw [hwrite _ efcPerformCommand_gpnvm2 _ hrc, Flash.bank1, Flash.efcAt1_congr efcPerformCommand_gpnvm2]
      simp only [eraseGroup] at hcount hfirst he ⊢
      rw [efcPerformCommand_erase (efcPerformCommand_rc.mp he), hcount, hfirst, Nat.mul_comm p]
      rfl
    · have herr : ¬ flashRcError = success := by decide
      simp only [he, if_false] at hrc
      exact absurd hrc herr
  · simp only [h8, if_false, erasedAt] at hrc ⊢
    exact hwrite f rfl _ hrc

theorem dataWritePage_done (hp : p < 2048) (haddr : flAddr + ofAddr = pageAddr p)
    (hio : ∀ c, io c = .done) : (dataWritePage io flAddr ofAddr buffer f).rc = success := by
  have hok : ∀ g c latch, (efcPerformCommand io g c latch).1 = 0 :=
    fun g c latch => efcPerformCommand_rc.mpr (hio c)
  rw [dataWritePage_pageAddr io buffer f hp haddr]
  simp only [hok, if_true]
  split <;> rfl

theorem dataWritePage_effects (hp : p < 2048) (haddr : flAddr + ofAddr = pageAddr p)
    (he : e ∈ (dataWritePage io flAddr ofAddr buffer f).effects) :
    e = .page flAddr ofAddr ∨ ∃ c, e = .command c := by
  rw [dataWritePage_pageAddr io buffer f hp haddr] at he
  split at he
  · simp only [] at he
    split at he
    · simp only [List.mem_cons, List.not_mem_nil, or_false] at he
      exact he.imp_right fun h => h.elim (fun h => ⟨_, h⟩) fun h => ⟨_, h⟩
    · simp only [List.mem_cons, List.not_mem_nil, or_false] at he
      exact he.imp_right fun h => ⟨_, h⟩
  · simp only [List.mem_cons, List.not_mem_nil, or_false] at he
    exact he.imp_right fun h => ⟨_, h⟩

end

-- ---------------------------------------------------------------------------
-- One frame
-- ---------------------------------------------------------------------------

section
variable {io : EfcCmd → Outcome} {buffer : Mem} {f : Flash} {flAddr ofAddr : Word}

theorem dataWriteLoop_nonpos (turns : Nat) (h : bufLen ≤ 0) :
    dataWriteLoop io flAddr buffer turns f ofAddr bufLen = ⟨success, f, []⟩ := by
  cases turns with
  | zero => rfl
  | succ turns => rw [dataWriteLoop, if_pos h]

theorem dataWriteLoop_pos (h : 0 < bufLen) :
    dataWriteLoop io flAddr buffer (turns + 1) f ofAddr bufLen =
      let page := dataWritePage io flAddr ofAddr buffer f
      if page.rc = success then
        let rest := dataWriteLoop io flAddr buffer turns page.flash (ofAddr + iflash0PageSize)
          (bufLen - 512)
        ⟨rest.rc, rest.flash, page.effects ++ rest.effects⟩
      else page := by
  rw [dataWriteLoop, if_neg (by omega)]
  by_cases hrc : (dataWritePage io flAddr ofAddr buffer f).rc = success <;> simp [hrc]

def eraseGroupSize : Nat := 4096

def framePages (len : Nat) : Nat := (len + 511) / 512

theorem frameAddr_ge {seq : Half} (hs : seq.toNat ≤ maxSeqNum) : ¬ frameAddr seq < iflash1Addr := by
  have hseq : seq.toNat ≤ 1023 := hs
  rw [frameAddr_eq hs, BitVec.not_lt]
  exact pageAddr_ge (by omega)

theorem dataWriteLoop_one (h1 : 0 < n) (h2 : n ≤ 512) :
    dataWriteLoop io flAddr buffer (turns + 1) f ofAddr n = dataWritePage io flAddr ofAddr buffer f := by
  have hlast : n - 512 ≤ 0 := by omega
  rw [dataWriteLoop_pos h1]
  generalize dataWritePage io flAddr ofAddr buffer f = a
  obtain ⟨rc, g, effects⟩ := a
  by_cases hrc : rc = success <;> simp [hrc, dataWriteLoop_nonpos _ hlast]

theorem dataWriteLoop_two (h1 : 512 < n) (h2 : n ≤ 1024) :
    dataWriteLoop io flAddr buffer (turns + 2) f ofAddr n =
      let a := dataWritePage io flAddr ofAddr buffer f
      if a.rc = success then
        let b := dataWritePage io flAddr (ofAddr + iflash0PageSize) buffer a.flash
        ⟨b.rc, b.flash, a.effects ++ b.effects⟩
      else a := by
  rw [dataWriteLoop_pos (by omega)]
  simp only [dataWriteLoop_one (show 0 < n - 512 by omega) (show n - 512 ≤ 512 by omega)]

theorem dataWrite_frameAddr {seq : Half} (hs : seq.toNat ≤ maxSeqNum) (h1 : 0 < len)
    (h2 : len ≤ maxPlaintextLen) :
    dataWrite io f (frameAddr seq) buffer len =
      let a := dataWritePage io (frameAddr seq) 0 buffer f
      if a.rc = success ∧ 512 < len then
        let b := dataWritePage io (frameAddr seq) iflash0PageSize buffer a.flash
        ⟨b.rc, b.flash, a.effects ++ b.effects⟩
      else a := by
  have h2 : len ≤ 1024 := h2
  rw [dataWrite, if_neg (frameAddr_ge hs)]
  by_cases hlen : 512 < len
  · obtain ⟨turns, rfl⟩ : ∃ turns, len = turns + 2 := ⟨len - 2, by omega⟩
    generalize hn : ((turns + 2 : Nat) : Int) = n
    have hoff : (0 : Word) + iflash0PageSize = iflash0PageSize := BitVec.zero_add _
    rw [dataWriteLoop_two (by omega) (by omega), hoff]
    simp only [hlen, and_true]
  · obtain ⟨turns, rfl⟩ : ∃ turns, len = turns + 1 := ⟨len - 1, by omega⟩
    generalize hn : ((turns + 1 : Nat) : Int) = n
    rw [dataWriteLoop_one (by omega) (by omega)]
    simp only [hlen, and_false, if_false]

theorem frameAddr_first {seq : Half} (hs : seq.toNat ≤ maxSeqNum) :
    frameAddr seq + 0 = pageAddr (2 * seq.toNat) := (BitVec.add_zero _).trans (frameAddr_eq hs)

theorem frameAddr_second {seq : Half} (hs : seq.toNat ≤ maxSeqNum) :
    frameAddr seq + iflash0PageSize = pageAddr (2 * seq.toNat + 1) := by
  rw [frameAddr_eq hs, pageAddr_succ]

theorem Confined.trans {a b : WriteRes} (ha : Confined f a) (hb : Confined a.flash b) :
    Confined f ⟨b.rc, b.flash, a.effects ++ b.effects⟩ := by
  have h0 := Flash.efcAt0_congr ha.gpnvm2
  have h1 := Flash.efcAt1_congr ha.gpnvm2
  refine ⟨hb.gpnvm2.trans ha.gpnvm2, ?_, ?_⟩
  · rw [← ha.bank0, ← h0]
    exact hb.bank0
  · intro c hc
    rcases List.mem_append.mp hc with hc | hc
    · exact ha.command c hc
    · rw [← h1]
      exact hb.command c hc

variable {seq : Half} (hs : seq.toNat ≤ maxSeqNum) (h1 : 0 < len) (h2 : len ≤ maxPlaintextLen)
include hs h1 h2

/-- A frame is one page, or two if it is longer and the first goes well. -/
theorem dataWrite_cases (io : EfcCmd → Outcome) (buffer : Mem) (f : Flash) :
    ∃ a, a = dataWritePage io (frameAddr seq) 0 buffer f ∧
    ((a.rc ≠ success ∨ len ≤ 512) ∧ dataWrite io f (frameAddr seq) buffer len = a ∨
      a.rc = success ∧ 512 < len ∧
        ∃ b, b = dataWritePage io (frameAddr seq) iflash0PageSize buffer a.flash ∧
          dataWrite io f (frameAddr seq) buffer len = ⟨b.rc, b.flash, a.effects ++ b.effects⟩) := by
  refine ⟨_, rfl, ?_⟩
  rw [dataWrite_frameAddr hs h1 h2]
  generalize dataWritePage io (frameAddr seq) 0 buffer f = a
  by_cases h : a.rc = success ∧ 512 < len
  · exact .inr ⟨h.1, h.2, _, rfl, if_pos h⟩
  · refine .inl ⟨?_, if_neg h⟩
    by_cases hrc : a.rc = success
    · exact .inr (Nat.not_lt.mp fun hlen => h ⟨hrc, hlen⟩)
    · exact .inl hrc

theorem dataWrite_confined : Confined f (dataWrite io f (frameAddr seq) buffer len) := by
  have hseq : seq.toNat ≤ 1023 := hs
  obtain ⟨a, ha, ⟨-, heq⟩ | ⟨-, -, b, hb, heq⟩⟩ :=
    dataWrite_cases hs h1 h2 io buffer f
  · rw [heq, ha]
    exact dataWritePage_confined (by omega) (frameAddr_first hs)
  · have hfirst : Confined f a := ha ▸ dataWritePage_confined (by omega) (frameAddr_first hs)
    rw [heq]
    exact hfirst.trans (hb ▸ dataWritePage_confined (by omega) (frameAddr_second hs))

theorem dataWrite_done (hio : ∀ c, io c = .done) :
    (dataWrite io f (frameAddr seq) buffer len).rc = success := by
  have hseq : seq.toNat ≤ 1023 := hs
  obtain ⟨a, ha, ⟨-, heq⟩ | ⟨-, -, b, hb, heq⟩⟩ :=
    dataWrite_cases hs h1 h2 io buffer f
  · rw [heq, ha]
    exact dataWritePage_done (by omega) (frameAddr_first hs) hio
  · rw [heq]
    show b.rc = success
    rw [hb]
    exact dataWritePage_done (by omega) (frameAddr_second hs) hio

theorem dataWrite_effects (he : e ∈ (dataWrite io f (frameAddr seq) buffer len).effects) :
    (∃ o, (o = 0 ∨ o = iflash0PageSize) ∧ e = .page (frameAddr seq) o) ∨ ∃ c, e = .command c := by
  have hseq : seq.toNat ≤ 1023 := hs
  have hfirst : ∀ e ∈ (dataWritePage io (frameAddr seq) 0 buffer f).effects,
      (∃ o, (o = 0 ∨ o = iflash0PageSize) ∧ e = .page (frameAddr seq) o) ∨ ∃ c, e = .command c :=
    fun e he => (dataWritePage_effects (by omega) (frameAddr_first hs) he).imp_left
      fun h => ⟨0, .inl rfl, h⟩
  obtain ⟨r, hr, ⟨-, heq⟩ | ⟨-, -, b, hb, heq⟩⟩ := dataWrite_cases hs h1 h2 io buffer f
  · rw [heq, hr] at he
    exact hfirst e he
  · rw [heq] at he
    rcases List.mem_append.mp he with he | he
    · rw [hr] at he
      exact hfirst e he
    · rw [hb] at he
      exact (dataWritePage_effects (by omega) (frameAddr_second hs) he).imp_left
        fun h => ⟨iflash0PageSize, .inr rfl, h⟩

/-- A frame that is written is appended to the frames before it: it is programmed
over the pages it spans, and the group of eight is erased when it starts one. -/
theorem dataWrite_bank1 (hrc : (dataWrite io f (frameAddr seq) buffer len).rc = success) :
    (dataWrite io f (frameAddr seq) buffer len).flash.bank1 =
      Nor.append eraseGroupSize (1024 * seq.toNat) (512 * framePages len) buffer f.bank1 := by
  have herased : (if 1024 * seq.toNat % eraseGroupSize = 0 then
      Nor.erase (1024 * seq.toNat) eraseGroupSize f.bank1 else f.bank1) =
        erasedAt (2 * seq.toNat) f.bank1 := by
    have hiff : 1024 * seq.toNat % 4096 = 0 ↔ 2 * seq.toNat % 8 = 0 := by omega
    simp only [erasedAt, eraseGroupSize, hiff, show 512 * (2 * seq.toNat) = 1024 * seq.toNat by omega]
  rw [Nor.append, herased]
  have hseq : seq.toNat ≤ 1023 := hs
  have hlen : len ≤ 1024 := h2
  have hpos : 512 * (2 * seq.toNat) = 1024 * seq.toNat := by omega
  have hodd : ¬ (2 * seq.toNat + 1) % 8 = 0 := by omega
  have hsize : iflash0PageSize.toNat = 512 := by decide
  obtain ⟨a, ha, hcases⟩ := dataWrite_cases hs h1 h2 io buffer f
  have hfirst : a.rc = success → a.flash.bank1 =
      Nor.program (1024 * seq.toNat) 512 buffer (erasedAt (2 * seq.toNat) f.bank1) := by
    intro hok
    rw [ha] at hok ⊢
    have hbuffer : buffer.offset (0 : Word).toNat = buffer := by
      funext i
      simp
    rw [dataWritePage_bank1 (by omega) (frameAddr_first hs) hok, hpos, hbuffer]
  rcases hcases with ⟨hshort, heq⟩ | ⟨hok, hlong, b, hb, heq⟩
  · rw [heq] at hrc ⊢
    have hlen : len ≤ 512 := hshort.resolve_left (not_not.mpr hrc)
    rw [hfirst hrc, show 512 * framePages len = 512 by unfold framePages; omega]
  · rw [heq] at hrc ⊢
    change b.rc = success at hrc
    change b.flash.bank1 = _
    rw [hb] at hrc ⊢
    rw [dataWritePage_bank1 (by omega) (frameAddr_second hs) hrc, hfirst hok, erasedAt, if_neg hodd,
      hsize, show 512 * (2 * seq.toNat + 1) = 1024 * seq.toNat + 512 by omega,
      show 512 * framePages len = 512 + 512 by unfold framePages; omega, ← Nor.program_append]
    rfl
end

end EthernetOta.Firmware
