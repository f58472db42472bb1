import EthernetOta.Lib.Reads
import EthernetOta.Firmware.Server
import EthernetOta.System.Crypto

/-!
# What the frame parser reads

The functions that look at a received payload, once more, as computations that
record the offsets they read. Each computes what its namesake does.
-/

namespace EthernetOta.Firmware

-- ---------------------------------------------------------------------------
-- The parser
-- ---------------------------------------------------------------------------

def calcCrcScan (table : Byte → Word) (len : Nat) : Scan Word := do
  let buf ← Scan.slice 0 len
  return ~~~ buf.foldl (crcStep table) 0xFFFFFFFF#32

def isPktValidScan (table : Byte → Word) (type len : Half) : Scan (Except Word Unit) :=
  if type = authenticatedFrame then do
    let tail ← Scan.byte (pktHeaderLen + pktTypeLen + gcmIvLen + gcmTagLen)
    return if tail ≠ packetTail then .error (uHtonl authenticatedInvalid) else .ok ()
  else if type = dataFrame then do
    let tail ← Scan.byte (pktPayloadPos + len.toNat + pktCrcLen)
    if tail = packetTail then do
      let pktCrc ← Scan.load32 (pktPayloadPos + len.toNat)
      let calculatedCrc ← calcCrcScan table (pktPayloadPos + len.toNat)
      return if uHtonl pktCrc ≠ calculatedCrc then .error (uHtonl dataFrameCrcErr) else .ok ()
    else return .error (uHtonl dataFrameInvalid)
  else if type = ackFrame then return .error (uHtonl pktInvalid)
  else if type = commandFrame then do
    let tail ← Scan.byte (pktHeaderLen + pktTypeLen + pktCmdLen)
    return if tail ≠ packetTail then .error (uHtonl commandFrameInvalid) else .ok ()
  else return .error (uHtonl pktInvalid)

/-- `authenticating_frame` on the bytes from `start` on. -/
def authenticatingFrameScan (lib : GcmLib) (gcmErr : Int) (d : Dev) (start : Nat) : Scan (Dev × Word) := do
  let iv ← Scan.slice start gcmIvLen
  let d := { d with cryptoIv := iv }
  if d.cryptoIdx = -1 then return (d, failure)
  else
    let d := { d with gcm := { d.gcm with pt := .cryptoAad, ptlen := cryptoAad.length, ct := .plaintext } }
    if gcmErr ≠ 0 then return (d, failure)
    else do
      let (ct, tag) := lib.run .encrypt cryptoKey d.cryptoIv cryptoAad
      let d := { d with plaintext := overwrite ct d.plaintext, gcm := { d.gcm with tag } }
      let same ← Scan.compare (start + gcmIvLen) tag
      return if same then (d, success) else (d, failure)

/-- `data_decrypt` on the bytes from `start` on; `gcm_memory` may read them before it fails. -/
def dataDecryptScan (lib : GcmLib) (gcmErr : Int) (d : Dev) (start bufLen : Nat) : Scan (Dev × Int) :=
  if d.cryptoIdx = -1 then return (d, 2)
  else do
    let d := { d with
      plaintext := List.replicate maxPlaintextLen 0xff
      gcm := { d.gcm with pt := .plaintext, ct := .frame, ptlen := bufLen } }
    let ct ← Scan.slice start bufLen
    if gcmErr ≠ 0 then return (d, gcmErr)
    else
      let (pt, tag) := lib.run .decrypt cryptoKey d.cryptoIv ct
      return ({ d with plaintext := overwrite pt d.plaintext, gcm := { d.gcm with tag } }, 0)

def handleAuthenticatedFrameScan (lib : GcmLib) (env : Env) (d : Dev) : Scan (Dev × Out) := do
  let (d, rc) ← authenticatingFrameScan lib env.gcmErr d (pktHeaderLen + pktTypeLen)
  return if rc ≠ success then (upgradeEnd d, .fail authenticatedFail)
  else (upgradeStart d, ⟨success, uHtonl authenticatedPass, []⟩)

def handleDataFrameScan (lib : GcmLib) (env : Env) (d : Dev) (seq len : Half) (ack : Word) :
    Scan (Dev × Out) :=
  if maxSeqNum < seq.toNat then return (d, .fail dataFrameSeqErr)
  else if d.prePktSeq + 1 ≠ seq.toNat then return (upgradeEnd d, .fail dataFrameSeqErr)
  else if maxPlaintextLen < len.toNat ∨ len = 0 then return (d, .fail dataFrameLenErr)
  else do
    let (d, err) ← dataDecryptScan lib env.gcmErr d pktPayloadPos len.toNat
    return if err ≠ 0 then (d, .fail dataFrameDecryptErr)
    else
      let d := { d with prePktSeq := seq.toInt }
      frameWritten d seq len ack (dataWrite env.flash d.flash (frameAddr seq) d.pt len.toNat)

def handleCommandFrameScan (env : Env) (d : Dev) : Scan (Dev × Out) := do
  let cmd ← Scan.load32 (pktHeaderLen + pktTypeLen)
  let cmd := uHtonl cmd
  return if cmd = getVersion then (d, ⟨success, uHtonl appVersion, []⟩)
  else if cmd = getCrc then (d, ⟨success, uHtonl (flashCrc d), []⟩)
  else if cmd = exec then
    (switchingTimerStart codeSwitchingInterval .codeSwitching env.now d,
      ⟨success, uHtonl commandFramePass, [.switchingTimerStart]⟩)
  else (d, .fail commandFrameCmdErr)

def handleUpgradePacketScan (lib : GcmLib) (env : Env) (d : Dev) : Scan (Dev × Out) := do
  let type ← Scan.load16 pktHeaderLen
  let seq ← Scan.load16 (pktHeaderLen + pktTypeLen)
  let len ← Scan.load16 (pktHeaderLen + pktTypeLen + pktSeqLen)
  let ack := (seq.setWidth 32 <<< 16) ||| len.setWidth 32
  let type := uHtons type
  let seq := uHtons seq
  let len := uHtons len
  match ← isPktValidScan d.crc32Table type len with
  | .error ack => return (d, ⟨failure, ack, []⟩)
  | .ok () =>
    if d.isAuthenticated then
      if type = authenticatedFrame then handleAuthenticatedFrameScan lib env d
      else if type = dataFrame then handleDataFrameScan lib env d seq len ack
      else if type = commandFrame then handleCommandFrameScan env d
      else return (d, .fail dataFrameTypeErr)
    else if type = authenticatedFrame then handleAuthenticatedFrameScan lib env d
    else return (d, .fail authenticatedFail)

def startsUpgradeScan : Scan Bool := Scan.compare 0 upgradePktHeader

/-- `server_recv` on a payload in one piece, as far as the parser reads it. -/
def serverRecvScan (lib : GcmLib) (env : Env) (d : Dev) : Scan (Option (Dev × Out)) := do
  if ← startsUpgradeScan then
    let r ← handleUpgradePacketScan lib env d
    return some r
  else return none

-- ---------------------------------------------------------------------------
-- What it computes
-- ---------------------------------------------------------------------------

section

variable {lib : GcmLib} {env : Env} {d : Dev} {m : Mem}

theorem value_calcCrcScan (table : Byte → Word) (len : Nat) :
    (calcCrcScan table len).value m = calcCrc table m len := rfl

theorem value_isPktValidScan (table : Byte → Word) (type len : Half) :
    (isPktValidScan table type len).value m = isPktValid table type len m := by
  simp only [isPktValidScan, Scan.value_ite, Scan.value_bind, Scan.value_pure]
  rfl

theorem value_authenticatingFrameScan (gcmErr : Int) (start : Nat) :
    (authenticatingFrameScan lib gcmErr d start).value m = authenticatingFrame lib gcmErr d (m.offset start) := by
  simp only [authenticatingFrameScan, Scan.value_ite, Scan.value_bind, Scan.value_pure, authenticatingFrame,
    Mem.slice_offset]
  split
  · rfl
  split
  · rfl
  simp only [Scan.value_slice, Scan.value_compare, lib.length_tag, decide_eq_true_eq, Nat.add_zero]
  split
  · rename_i h
    rw [if_pos h.symm]
  · rename_i h
    rw [if_neg fun heq => h heq.symm]

theorem value_dataDecryptScan (gcmErr : Int) (start bufLen : Nat) :
    (dataDecryptScan lib gcmErr d start bufLen).value m =
      dataDecrypt lib gcmErr d (m.offset start) bufLen := by
  simp only [dataDecryptScan, Scan.value_ite, Scan.value_bind, Scan.value_pure, dataDecrypt]
  simp only [Scan.value_slice, Mem.slice_offset, Nat.add_zero]

theorem value_handleAuthenticatedFrameScan :
    (handleAuthenticatedFrameScan lib env d).value m = handleAuthenticatedFrame lib env d m := by
  simp only [handleAuthenticatedFrameScan, Scan.value_bind, Scan.value_pure, value_authenticatingFrameScan]
  rfl

theorem value_handleDataFrameScan (seq len : Half) (ack : Word) :
    (handleDataFrameScan lib env d seq len ack).value m = handleDataFrame lib env d m seq len ack := by
  simp only [handleDataFrameScan, Scan.value_ite, Scan.value_bind, Scan.value_pure, value_dataDecryptScan,
    handleDataFrame]

theorem value_handleCommandFrameScan :
    (handleCommandFrameScan env d).value m = handleCommandFrame env d m := by
  simp only [handleCommandFrameScan, Scan.value_bind, Scan.value_pure]
  rfl

theorem value_handleUpgradePacketScan :
    (handleUpgradePacketScan lib env d).value m = handleUpgradePacket lib env d m := by
  have hvalid := value_isPktValidScan (m := m) d.crc32Table (uHtons ((Scan.load16 pktHeaderLen).value m))
    (uHtons ((Scan.load16 (pktHeaderLen + pktTypeLen + pktSeqLen)).value m))
  simp only [handleUpgradePacketScan, Scan.value_bind]
  rw [hvalid]
  simp only [handleUpgradePacket]
  change _ = match isPktValid d.crc32Table (uHtons ((Scan.load16 pktHeaderLen).value m))
    (uHtons ((Scan.load16 (pktHeaderLen + pktTypeLen + pktSeqLen)).value m)) m with
    | .error ack => _
    | .ok () => _
  cases isPktValid d.crc32Table (uHtons ((Scan.load16 pktHeaderLen).value m))
      (uHtons ((Scan.load16 (pktHeaderLen + pktTypeLen + pktSeqLen)).value m)) m with
  | error ack => rfl
  | ok _ =>
    simp only [Scan.value_ite, Scan.value_pure, value_handleAuthenticatedFrameScan,
      value_handleDataFrameScan, value_handleCommandFrameScan]
    rfl

theorem value_serverRecvScan : (serverRecvScan lib env d).value m =
    if startsUpgrade m then some (handleUpgradePacket lib env d m) else none := by
  simp only [serverRecvScan, Scan.value_bind, Scan.value_ite, Scan.value_pure, value_handleUpgradePacketScan,
    startsUpgradeScan, Scan.value_compare]
  rfl

-- ---------------------------------------------------------------------------
-- How far it reads
-- ---------------------------------------------------------------------------

def pktEnd (type len : Half) : Nat :=
  if type = authenticatedFrame then pktHeaderLen + pktTypeLen + gcmIvLen + gcmTagLen + 1
  else if type = dataFrame then pktPayloadPos + len.toNat + pktCrcLen + 1
  else if type = commandFrame then pktHeaderLen + pktTypeLen + pktCmdLen + 1
  else pktPayloadPos

/-- The length of the frame that the type and the length field announce. -/
def frameEnd (m : Mem) : Nat := pktEnd (frameType m) (frameLen m)

theorem pktPayloadPos_le_pktEnd (type len : Half) : pktPayloadPos ≤ pktEnd type len := by
  unfold pktEnd
  simp only [pktHeaderLen, pktTypeLen, gcmIvLen, gcmTagLen, pktPayloadPos, pktCrcLen, pktCmdLen]
  split
  · omega
  split
  · omega
  split <;> omega

theorem below_isPktValidScan {table : Byte → Word} {type len : Half} (h : pktPayloadPos ≤ n) :
    Scan.Below n (isPktValidScan table type len) m ↔ pktEnd type len ≤ n := by
  unfold isPktValidScan pktEnd
  split
  · simp only [Scan.below_bind, Scan.below_pure, and_true, Scan.below_byte]
    exact Nat.lt_iff_add_one_le
  split
  · have hcrc : pktPayloadPos + len.toNat + pktCrcLen < n →
        Scan.Below n (calcCrcScan table (pktPayloadPos + len.toNat)) m := by
      intro hlt
      rw [calcCrcScan, Scan.below_bind]
      exact ⟨Scan.below_slice (by omega), Scan.below_pure _⟩
    simp only [Scan.below_bind, Scan.below_ite, Scan.below_pure, implies_true, and_true]
    simp only [Scan.below_byte, Scan.below_load32]
    rw [← Nat.lt_iff_add_one_le]
    refine ⟨And.left, fun hlt => ⟨hlt, fun _ => ⟨?_, hcrc hlt⟩⟩⟩
    simp only [pktCrcLen] at hlt
    omega
  split
  · rename_i hack
    subst hack
    rw [if_neg (by decide)]
    exact iff_of_true (Scan.below_pure _) h
  split
  · simp only [Scan.below_bind, Scan.below_pure, and_true, Scan.below_byte]
    exact Nat.lt_iff_add_one_le
  · exact iff_of_true (Scan.below_pure _) h

theorem below_handleAuthenticatedFrameScan
    (h : pktHeaderLen + pktTypeLen + gcmIvLen + gcmTagLen + 1 ≤ n) :
    Scan.Below n (handleAuthenticatedFrameScan lib env d) m := by
  have hiv : pktHeaderLen + pktTypeLen + gcmIvLen ≤ n := by
    simp only [gcmTagLen] at h
    omega
  simp only [handleAuthenticatedFrameScan, authenticatingFrameScan, Scan.below_bind, Scan.below_ite,
    Scan.below_pure, implies_true, and_true, true_and]
  refine ⟨Scan.below_slice hiv, fun _ _ => Scan.below_compare.mpr (.inl ?_)⟩
  rw [lib.length_tag]
  exact Nat.le_of_succ_le h

theorem below_handleDataFrameScan {seq len : Half} {ack : Word} (h : pktPayloadPos + len.toNat + pktCrcLen + 1 ≤ n) :
    Scan.Below n (handleDataFrameScan lib env d seq len ack) m := by
  simp only [handleDataFrameScan, dataDecryptScan, Scan.below_bind, Scan.below_ite, Scan.below_pure,
    implies_true, and_true, true_and]
  exact fun _ _ _ _ => Scan.below_slice (by omega)

theorem below_handleCommandFrameScan (h : pktHeaderLen + pktTypeLen + pktCmdLen + 1 ≤ n) :
    Scan.Below n (handleCommandFrameScan env d) m := by
  simp only [handleCommandFrameScan, Scan.below_bind, Scan.below_pure, and_true, Scan.below_load32]
  simp only [pktCmdLen] at h
  omega

/-- The parser reads the whole of the frame that is announced, and nothing more. -/
theorem below_handleUpgradePacketScan : Scan.Below n (handleUpgradePacketScan lib env d) m ↔ frameEnd m ≤ n := by
  have hpos := pktPayloadPos_le_pktEnd (frameType m) (frameLen m)
  simp only [handleUpgradePacketScan, Scan.below_bind]
  constructor
  · rintro ⟨-, -, hlen, hvalid, -⟩
    exact (below_isPktValidScan (Scan.below_load16.mp hlen)).mp hvalid
  · intro h
    have hn : pktPayloadPos ≤ n := Nat.le_trans hpos h
    have hauth : frameType m = authenticatedFrame → Scan.Below n (handleAuthenticatedFrameScan lib env d) m := by
      intro htype
      rw [frameEnd, htype] at h
      exact below_handleAuthenticatedFrameScan h
    have hdata : frameType m = dataFrame → Scan.Below n (handleDataFrameScan lib env d (frameSeq m) (frameLen m)
        (dataAck m)) m := by
      intro htype
      rw [frameEnd, htype] at h
      exact below_handleDataFrameScan h
    have hcommand : frameType m = commandFrame → Scan.Below n (handleCommandFrameScan env d) m := by
      intro htype
      rw [frameEnd, htype] at h
      exact below_handleCommandFrameScan h
    simp only [Scan.below_load16]
    simp only [pktPayloadPos] at hn
    refine ⟨?_, ?_, ?_, (below_isPktValidScan hn).mpr h, ?_⟩
    · simp only [pktHeaderLen]
      omega
    · simp only [pktHeaderLen, pktTypeLen]
      omega
    · simp only [pktHeaderLen, pktTypeLen, pktSeqLen]
      omega
    split
    · exact Scan.below_pure _
    · simp only [Scan.below_ite, Scan.below_pure, implies_true, and_true]
      exact ⟨fun _ => ⟨hauth, fun _ => ⟨hdata, fun _ => hcommand⟩⟩, fun _ => hauth⟩

theorem startsUpgrade_iff : startsUpgrade m = true ↔
    ∀ k (hk : k < upgradePktHeader.length), m k = upgradePktHeader[k] := by
  rw [startsUpgrade, decide_eq_true_eq]
  constructor
  · intro h k hk
    rw [← List.getElem_of_eq h (by simpa using hk), Mem.getElem_slice, Nat.zero_add]
  · intro h
    refine List.ext_getElem (Mem.length_slice ..) fun k hk hk' => ?_
    rw [Mem.getElem_slice, Nat.zero_add, h k hk']

theorem below_serverRecvScan : Scan.Below n (serverRecvScan lib env d) m ↔
    Scan.Below n startsUpgradeScan m ∧ (startsUpgrade m = true → frameEnd m ≤ n) := by
  simp only [serverRecvScan, Scan.below_bind, Scan.below_ite, Scan.below_pure, implies_true, and_true,
    below_handleUpgradePacketScan, startsUpgradeScan, Scan.value_compare]
  rfl

end

-- ---------------------------------------------------------------------------
-- Payloads that are cut short
-- ---------------------------------------------------------------------------

/-- The payload differs from an upgrade header within its length, or it has the
whole of the frame that it announces. -/
def Complete (p : List Byte) : Prop :=
  (∃ k, ∃ hk : k < upgradePktHeader.length, ∃ hp : k < p.length, p[k] ≠ upgradePktHeader[k]) ∨
    frameEnd (.ofList p fun _ => 0) ≤ p.length

theorem frameEnd_ofList (behind : Mem) : frameEnd (.ofList p behind) ≤ p.length ↔
    frameEnd (.ofList p fun _ => 0) ≤ p.length := by
  by_cases hlen : pktPayloadPos ≤ p.length
  · have hload : ∀ i, i + 1 < pktPayloadPos →
        (Mem.ofList p behind).load16 i = (Mem.ofList p fun _ => 0).load16 i := by
      intro i hi
      simp only [Mem.load16]
      rw [Mem.ofList_lt (by omega), Mem.ofList_lt (by omega), Mem.ofList_lt (by omega), Mem.ofList_lt (by omega)]
    rw [frameEnd, frameEnd, frameType, frameType, frameLen, frameLen, hload _ (by decide), hload _ (by decide)]
  · have hpos := fun m => pktPayloadPos_le_pktEnd (frameType m) (frameLen m)
    exact iff_of_false (fun h => hlen (Nat.le_trans (hpos _) h)) (fun h => hlen (Nat.le_trans (hpos _) h))

/-- What is wanted of a payload: no read behind it, and an error for an incomplete frame. -/
def ParsedWithin (lib : GcmLib) (env : Env) (d : Dev) (p : List Byte) (behind : Mem) : Prop :=
  Scan.Below p.length (serverRecvScan lib env d) (.ofList p behind) ∧
    (startsUpgrade (.ofList p behind) = true → p.length < frameEnd (.ofList p behind) →
      ∃ code, code ≠ 0 ∧ (handleUpgradePacket lib env d (.ofList p behind)).2.ack = uHtonl (status code))

/-- Nothing behind a payload is read just when it is complete. -/
theorem parsed_within_iff (lib : GcmLib) (env : Env) (d : Dev) (p : List Byte) (behind : Mem) :
    ParsedWithin lib env d p behind ↔ Complete p := by
  rw [ParsedWithin, Complete, ← frameEnd_ofList behind, below_serverRecvScan, startsUpgradeScan,
    Scan.below_compare]
  simp only [Nat.zero_add]
  have hread : ∀ k (hk : k < p.length), Mem.ofList p behind k = p[k] := fun k hk => Mem.ofList_lt hk
  constructor
  · rintro ⟨⟨hheader, hframe⟩, -⟩
    by_cases hstarts : startsUpgrade (.ofList p behind) = true
    · exact .inr (hframe hstarts)
    · left
      rcases hheader with hlen | hnil | ⟨k, hk, hp, hne⟩
      · rw [startsUpgrade_iff] at hstarts
        simp only [not_forall] at hstarts
        obtain ⟨k, hk, hne⟩ := hstarts
        have hp : k < p.length := Nat.lt_of_lt_of_le hk hlen
        exact ⟨k, hk, hp, hread k hp ▸ hne⟩
      · exact nomatch hnil
      · exact ⟨k, hk, hp, hread k hp ▸ hne⟩
  · rintro (⟨k, hk, hp, hne⟩ | hend)
    · rw [← hread k hp] at hne
      have hstarts : ¬ startsUpgrade (.ofList p behind) = true := fun h => hne (startsUpgrade_iff.mp h k hk)
      exact ⟨⟨.inr (.inr ⟨k, hk, hp, hne⟩), fun h => absurd h hstarts⟩, fun h => absurd h hstarts⟩
    · have hpos : pktPayloadPos ≤ p.length := Nat.le_trans (pktPayloadPos_le_pktEnd _ _) hend
      refine ⟨⟨.inl (Nat.le_trans (by decide) hpos), fun _ => hend⟩, fun _ hlt => ?_⟩
      exact absurd hend (Nat.not_le_of_lt hlt)

def shortCommand : List Byte := upgradePktHeader ++ [0x08, 0x02, 0x55, 0xAA, 0x04, 0x00]

/-- The tail of a command frame without one is looked for in the byte behind it. -/
theorem shortCommand_not_within : ¬ ParsedWithin System.gcmMemory ⟨0, fun _ => .done, 0⟩
    (boot 0 ⟨fun _ _ => 0xff, false⟩) shortCommand fun _ => 0 := by
  rintro ⟨hbelow, -⟩
  have hend := (below_serverRecvScan.mp hbelow).2 (by decide)
  exact absurd hend (by decide)

end EthernetOta.Firmware
