import EthernetOta.Firmware.Branches

/-!
# Runs of the device and the bank it runs from

A turn of the device is a packet or a poll of the switching timer, which ends in
a bank switch and a reset when it is due. Whatever the GPNVM2 bit was and
whatever its writes do, the bank that upgrades write is never the bank the CPU
runs from.
-/

namespace EthernetOta.Firmware

variable {lib : GcmLib}

abbrev DeviceTurn := Turn Dev Event (Option Out × List Effect)

-- ---------------------------------------------------------------------------
-- Turns
-- ---------------------------------------------------------------------------

inductive Polled (idx : Int) (o : GpnvmOutcome) (curTime : Word) (d : Dev) : Dev × List Effect → Prop
  | off (poll : d.switchingTimerPoll = false) : Polled idx o curTime d (d, [])
  | waiting (poll : d.switchingTimerPoll = true) (t : UpgradeTimer)
    (update : switchingTimerUpdate curTime d.switchingTimer = (t, none)) :
    Polled idx o curTime d ({ d with switchingTimer := t }, [])
  | switched (poll : d.switchingTimerPoll = true)
    (due : (switchingTimerUpdate curTime d.switchingTimer).2 = some .codeSwitching) :
    Polled idx o curTime d (boot idx (codeSwitching o d.flash), [.codeSwitching])

theorem polled (idx : Int) (o : GpnvmOutcome) (curTime : Word) (d : Dev) :
    Polled idx o curTime d (switchingTimerPoll idx o curTime d) := by
  unfold switchingTimerPoll
  by_cases hp : d.switchingTimerPoll = true
  · rw [if_pos hp]
    rcases hu : switchingTimerUpdate curTime d.switchingTimer with ⟨t, fn⟩
    cases fn with
    | none => exact .waiting hp t hu
    | some fn =>
      cases fn
      exact .switched hp (congrArg Prod.snd hu)
  · rw [if_neg hp]
    exact .off (Bool.not_eq_true _ ▸ hp)

theorem device_frame (lib : GcmLib) (idx : Int) (d : Dev) (fr : Frame) : ∃ r,
    Handled lib fr.env d fr.buffer r ∧
      (device lib idx).turn d (.frame fr) = ⟨d, .frame fr, (some r.2, r.2.effects), r.1⟩ ∧
      (device lib idx).next d (.frame fr) = r.1 := ⟨_, handled lib fr.env d fr.buffer, rfl, rfl⟩

theorem device_poll (lib : GcmLib) (idx : Int) (d : Dev) (curTime : Word) (o : GpnvmOutcome) : ∃ r,
    Polled idx o curTime d r ∧
      (device lib idx).turn d (.poll curTime o) = ⟨d, .poll curTime o, (none, r.2), r.1⟩ ∧
      (device lib idx).next d (.poll curTime o) = r.1 := ⟨_, polled idx o curTime d, rfl, rfl⟩

-- ---------------------------------------------------------------------------
-- The bank in use
-- ---------------------------------------------------------------------------

/-- The CPU runs from the bank that GPNVM2 selects, which it did at the last reset. -/
def Latched (d : Dev) : Prop := d.cpuBank = d.flash.efcAt0

theorem latched_boot (idx : Int) (f : Flash) : Latched (boot idx f) := by
  unfold boot upgradeInit Latched
  by_cases h : idx = -1 <;> simp [h, powerUp]

theorem frameWrite_confined {env : Env} {d : Dev} (writes : Writes env d buffer)
    (write : w = frameWrite lib env d buffer) : Confined d.flash w := by
  rw [write]
  exact dataWrite_confined writes.seq_le writes.len_pos writes.len_le

theorem Handled.latched {env : Env} {d : Dev} {r : Dev × Out} (h : Handled lib env d buffer r)
    (hd : Latched d) : Latched r.1 := by
  cases h with
  | writeErr writes w write =>
    exact hd.trans (Flash.efcAt0_congr (frameWrite_confined writes write).gpnvm2).symm
  | readBackErr writes w write =>
    exact hd.trans (Flash.efcAt0_congr (frameWrite_confined writes write).gpnvm2).symm
  | stored writes w write =>
    exact hd.trans (Flash.efcAt0_congr (frameWrite_confined writes write).gpnvm2).symm
  | _ => exact hd

theorem latched_next (d : Dev) (e : Event) (hd : Latched d) : Latched ((device lib idx).next d e) := by
  cases e with
  | frame fr =>
    obtain ⟨r, hr, -, hn⟩ := device_frame lib idx d fr
    rw [hn]
    exact hr.latched hd
  | poll curTime o =>
    obtain ⟨r, hr, -, hn⟩ := device_poll lib idx d curTime o
    rw [hn]
    cases hr with
    | off => exact hd
    | waiting => exact hd
    | switched => exact latched_boot _ _

/-- Where a frame's effects come from: a page or a command of `data_write`, or
nothing that touches the flash. -/
theorem Handled.effects {env : Env} {d : Dev} {r : Dev × Out} (h : Handled lib env d buffer r)
    (he : e ∈ r.2.effects) :
    (∃ w, Writes env d buffer ∧ w = frameWrite lib env d buffer ∧ e ∈ w.effects) ∨
      (∃ rc, e = .checkIntegrity rc) ∨ e = .switchingTimerStart := by
  cases h with
  | writeErr writes w write => exact .inl ⟨w, writes, write, he⟩
  | readBackErr writes w write =>
    rcases List.mem_append.mp he with he | he
    · exact .inl ⟨w, writes, write, he⟩
    · exact .inr (.inl ⟨_, List.mem_singleton.mp he⟩)
  | stored writes w write =>
    rcases List.mem_append.mp he with he | he
    · exact .inl ⟨w, writes, write, he⟩
    · exact .inr (.inl ⟨_, List.mem_singleton.mp he⟩)
  | exec => exact .inr (.inr (List.mem_singleton.mp he))
  | _ => exact nomatch he

-- ---------------------------------------------------------------------------
-- Addresses
-- ---------------------------------------------------------------------------

/-- The addresses computed on the way to a page of `data_write`, without wrap. -/
structure NoWrap (f : Flash) (seq : Half) (flAddr ofAddr : Word) : Prop where
  /-- `(seq * MAX_PLAINTEXT_LEN) + IFLASH1_ADDR` -/
  frame : flAddr.toNat = seq.toNat * maxPlaintextLen + iflash1Addr.toNat
  /-- `fl_addr + of_addr` -/
  page : (flAddr + ofAddr).toNat = flAddr.toNat + ofAddr.toNat
  /-- `buffer + of_addr` and the page read from there -/
  buffer : ofAddr.toNat + iflash0PageSize.toNat ≤ maxPlaintextLen
  /-- `fl_addr + of_addr - IFLASH1_ADDR` -/
  inBank : (flAddr + ofAddr - iflash1Addr).toNat + iflash1Addr.toNat = (flAddr + ofAddr).toNat
  /-- The page number of `translate_address`, a `uint16_t`. -/
  number : (translateAddress f (flAddr + ofAddr)).2.1.toNat * iflash1PageSize.toNat =
    (flAddr + ofAddr - iflash1Addr).toNat
  /-- The address `compute_address` gets back from it. -/
  back : computeAddress f (translateAddress f (flAddr + ofAddr)).1
    (translateAddress f (flAddr + ofAddr)).2.1 0 = flAddr + ofAddr
  last : (flAddr + ofAddr).toNat + iflash1PageSize.toNat ≤ iflash1Addr.toNat + iflash1Size.toNat
  /-- `page_buf[i]` of `check_integrity` -/
  readBack : ∀ i, i < maxPlaintextLen → (flAddr + BitVec.ofNat 32 i).toNat = flAddr.toNat + i

theorem computeAddress_efcAt1 (f : Flash) (hp : p < 2048) (hi : i < 512) :
    (computeAddress f f.efcAt1 (BitVec.ofNat 16 p) i).toNat = iflash1Addr.toNat + 512 * p + i := by
  have hsize : iflashPageSize.toNat = 512 := by decide
  have hbank : computeAddress f f.efcAt1 (BitVec.ofNat 16 p) i =
      iflash1Addr + ((BitVec.ofNat 16 p).setWidth 32 * iflashPageSize + BitVec.ofNat 32 i) := by
    cases h : f.gpnvm2 <;> simp [computeAddress, Flash.efcAt1, h]
  rw [hbank, BitVec.toNat_add, BitVec.toNat_add, BitVec.toNat_mul, BitVec.toNat_setWidth,
    BitVec.toNat_ofNat, BitVec.toNat_ofNat, hsize, iflash1Addr_toNat]
  omega

theorem noWrap_frame (f : Flash) {seq : Half} (hs : seq.toNat ≤ maxSeqNum)
    (ho : o = 0 ∨ o = iflash0PageSize) : NoWrap f seq (frameAddr seq) o := by
  have hseq : seq.toNat ≤ 1023 := hs
  have hmax : maxPlaintextLen = 1024 := rfl
  have hsize0 : iflash0PageSize.toNat = 512 := by decide
  have hsize : iflash1PageSize.toNat = 512 := by decide
  have hbank : iflash1Size.toNat = 0x100000 := by decide
  have hframe := frameAddr_toNat hs
  have hbase := iflash1Addr_toNat
  obtain ⟨p, hp, hpage, hofs⟩ : ∃ p, p < 2048 ∧ frameAddr seq + o = pageAddr p ∧
      512 * p = 1024 * seq.toNat + o.toNat := by
    rcases ho with rfl | rfl
    · exact ⟨2 * seq.toNat, by omega, frameAddr_first hs, by
        have : (0 : Word).toNat = 0 := rfl
        omega⟩
    · exact ⟨2 * seq.toNat + 1, by omega, frameAddr_second hs, by omega⟩
  have hp16 : (BitVec.ofNat 16 p).toNat = p := by
    rw [BitVec.toNat_ofNat]
    omega
  have hp32 : (BitVec.ofNat 32 (512 * p)).toNat = 512 * p := by
    rw [BitVec.toNat_ofNat]
    omega
  have hto := pageAddr_toNat hp
  constructor
  · rw [hmax]
    omega
  · rw [hpage]
    omega
  · rcases ho with rfl | rfl
    · have : (0 : Word).toNat = 0 := rfl
      omega
    · omega
  · rw [hpage, pageAddr_sub, hp32]
    omega
  · rw [hpage, translateAddress_pageAddr f hp, pageAddr_sub, hp32, hsize]
    simp only [hp16]
    omega
  · rw [hpage, translateAddress_pageAddr f hp]
    apply BitVec.eq_of_toNat_eq
    rw [computeAddress_efcAt1 f hp (by decide)]
    omega
  · rw [hpage]
    omega
  · intro i hi
    rw [BitVec.toNat_add, BitVec.toNat_ofNat]
    omega

/-- Every erase and every program is inside `[IFLASH1_ADDR, IFLASH1_ADDR + IFLASH1_SIZE)`,
on the bank the CPU does not run from, and no address on the way wraps. -/
theorem executing_bank_untouched (lib : GcmLib) (idx : Int) (f : Flash) (events : List Event) :
    ∀ t ∈ (device lib idx).turns (boot idx f) events,
      (∀ c, .command c ∈ t.out.2 → c.efc ≠ t.pre.cpuBank ∧
        ∀ p i, c.firstPage ≤ p → p < c.firstPage + c.count → i < 512 →
          (computeAddress t.pre.flash c.efc (BitVec.ofNat 16 p) i).toNat =
              iflash1Addr.toNat + 512 * p + i ∧
            iflash1Addr.toNat + 512 * p + i < iflash1Addr.toNat + iflash1Size.toNat) ∧
      ∀ a o, .page a o ∈ t.out.2 → ∃ fr, t.input = .frame fr ∧
        NoWrap t.pre.flash (frameSeq fr.buffer) a o := by
  refine Machine.turns_of_inv latched_next (fun d e hd => ?_) (latched_boot idx f) events
  have hbank : iflash1Size.toNat = 0x100000 := by decide
  cases e with
  | poll curTime o =>
    obtain ⟨r, hr, ht, -⟩ := device_poll lib idx d curTime o
    rw [ht]
    cases hr with
    | switched =>
      exact ⟨fun _ hc => (nomatch List.mem_singleton.mp hc), fun _ _ ha => nomatch List.mem_singleton.mp ha⟩
    | _ => exact ⟨fun _ hc => (nomatch hc), fun _ _ ha => nomatch ha⟩
  | frame fr =>
    obtain ⟨r, hr, ht, -⟩ := device_frame lib idx d fr
    rw [ht]
    refine ⟨fun c hc => ?_, fun a o ha => ?_⟩
    · rcases hr.effects hc with ⟨w, writes, write, hc⟩ | ⟨rc, hc⟩ | hc
      · obtain ⟨hefc, hlast⟩ := (frameWrite_confined writes write).command c hc
        refine ⟨?_, fun p i h1 h2 hi => ?_⟩
        · rw [hefc, hd]
          exact d.flash.efcAt1_ne_efcAt0
        · rw [hefc]
          exact ⟨computeAddress_efcAt1 d.flash (by omega) hi, by omega⟩
      · exact nomatch hc
      · exact nomatch hc
    · rcases hr.effects ha with ⟨w, writes, write, ha⟩ | ⟨rc, ha⟩ | ha
      · rw [write] at ha
        rcases dataWrite_effects writes.seq_le writes.len_pos writes.len_le ha with ⟨o', ho, he⟩ | ⟨c, he⟩
        · obtain ⟨rfl, rfl⟩ := Effect.page.inj he
          exact ⟨fr, rfl, noWrap_frame d.flash writes.seq_le ho⟩
        · exact nomatch he
      · exact nomatch ha
      · exact nomatch ha

end EthernetOta.Firmware
