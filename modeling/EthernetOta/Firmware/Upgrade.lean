import EthernetOta.Lib.Crc
import EthernetOta.Lib.Machine
import EthernetOta.Firmware.Flash

/-!
# The upgrade packet handler

`upgrade.h` and `upgrade.c`. The static data of the file is `Dev`, together with
the flash and the bank the CPU runs from. What a call gets from outside is
`Env`: the return code of `gcm_memory`, the outcome of each flash command and
the millisecond counter. AES-GCM itself is a parameter, `GcmLib`; its tag is
always `GCM_TAG_LEN` bytes here, so `taglen` is left out, and so are the debug
texts and the LED.
-/

namespace EthernetOta.Firmware

-- ---------------------------------------------------------------------------
-- upgrade.h
-- ---------------------------------------------------------------------------

def majorVersion : Word := 1#32
def minorVersion : Word := 0#32
def pagesToErase : Word := 8#32
def maxPlaintextLen : Nat := 1024
def gcmTagLen : Nat := 16
def gcmIvLen : Nat := 16
/-- `']'` -/
def packetTail : Byte := 0x5D#8

def uHtons (n : Half) : Half := ((n &&& 0xff#16) <<< 8) ||| ((n &&& 0xff00#16) >>> 8)

def uHtonl (n : Word) : Word :=
  ((n &&& 0xff#32) <<< 24) ||| ((n &&& 0xff00#32) <<< 8) ||| ((n &&& 0xff0000#32) >>> 8) |||
    ((n &&& 0xff000000#32) >>> 24)

def pktHeaderLen : Nat := 8
def pktTypeLen : Nat := 2
def pktSeqLen : Nat := 2
def pktPayloadPos : Nat := 14
def pktCrcLen : Nat := 4
def pktCmdLen : Nat := 4
def maxSeqNum : Nat := 1023

def authenticatedFrame : Half := 0x0800#16
def dataFrame : Half := 0x0801#16
def commandFrame : Half := 0x0802#16
def ackFrame : Half := 0x0803#16

def success : Word := 0#32
def failure : Word := 1#32

/-- `((0xffff << 16) | code)`, as every status in `upgrade.h` is written. -/
def status (code : Word) : Word := (0xffff#32 <<< 16) ||| code

def authenticatedPass : Word := status 0x0#32
def authenticatedFail : Word := status 0x1#32
def authenticatedInvalid : Word := status 0x2#32
def dataFrameInvalid : Word := status 0x2#32
def dataFrameTypeErr : Word := status 0x3#32
def dataFrameSeqErr : Word := status 0x4#32
def dataFrameLenErr : Word := status 0x5#32
def dataFrameCrcErr : Word := status 0x6#32
def dataFrameDecryptErr : Word := status 0x7#32
def dataFrameFlashWrErr : Word := status 0x8#32
def commandFramePass : Word := status 0x0#32
def commandFrameInvalid : Word := status 0x2#32
def commandFrameCmdErr : Word := status 0x3#32
def pktInvalid : Word := status 0x2#32

def getVersion : Word := 0x55AA0400#32
def getCrc : Word := 0x55AA0401#32
def exec : Word := 0x55AA0402#32

def codeSwitchingInterval : Word := 3000#32

-- ---------------------------------------------------------------------------
-- Static data
-- ---------------------------------------------------------------------------

def appVersion : Word := (majorVersion <<< 16) ||| minorVersion

def cryptoKey : List Byte :=
  [0xfe, 0xff, 0xe9, 0x92, 0x86, 0x65, 0x73, 0x1c, 0x6d, 0x6a, 0x8f, 0x94, 0x67, 0x30, 0x83, 0x08]

def cryptoAad : List Byte :=
  [0xab, 0x6e, 0x47, 0xd4, 0x2c, 0xec, 0x13, 0xbd, 0xf5, 0x3a, 0x67, 0xb2, 0x12, 0x57, 0xbd, 0xdf,
   0x58, 0xe2, 0xfc, 0xce, 0xfa, 0x7e, 0x30, 0x61, 0x36, 0x7f, 0x1d, 0x57, 0xa4, 0xe7, 0x45, 0x5a]

def cryptoIvInit : List Byte :=
  [0xca, 0xfe, 0xba, 0xbe, 0xfa, 0xce, 0xdb, 0xad, 0xde, 0xca, 0xf8, 0x88, 0x33, 0xd4, 0x82, 0xfe]

inductive Direction
  | encrypt
  | decrypt
  deriving DecidableEq, Repr

/-- `gcm_memory` under an installed cipher: the output text and the tag, for a
key, an IV and an input text, without additional data. -/
structure GcmLib where
  run : Direction → (key iv input : List Byte) → List Byte × List Byte
  length_output : ∀ dir key iv input, (run dir key iv input).1.length = input.length
  length_tag : ∀ dir key iv input, (run dir key iv input).2.length = gcmTagLen

inductive Pointee
  | null
  | cryptoAad
  | plaintext
  /-- The frame being handled, which is gone when the handler returns. -/
  | frame
  deriving DecidableEq, Repr

/-- The fields of `gcm_instance` that change after `upgrade_init`. -/
structure AesGcm where
  pt : Pointee
  ptlen : Nat
  ct : Pointee
  tag : List Byte

inductive TimerFn
  | codeSwitching
  deriving DecidableEq, Repr

structure UpgradeTimer where
  timer : Word
  timerInterval : Word
  lastTime : Word
  timerFunc : Option TimerFn
  deriving DecidableEq, Repr

structure Dev where
  plaintext : List Byte
  crc32Table : Byte → Word
  /-- An `int16_t`. -/
  prePktSeq : Int
  isAuthenticated : Bool
  fileLen : Word
  cryptoIdx : Int
  gcm : AesGcm
  cryptoIv : List Byte
  switchingTimer : UpgradeTimer
  /-- `switching_timer_poll` is set, to `switching_timer_update`. -/
  switchingTimerPoll : Bool
  flash : Flash
  /-- The controller whose array the CPU executes from, latched at reset. -/
  cpuBank : Efc

structure Env where
  /-- What `gcm_memory` returns, should this call reach it; `CRYPT_OK` is 0. -/
  gcmErr : Int
  flash : EfcCmd → Outcome
  /-- `sys_get_ms()` -/
  now : Word

/-- What a call does besides changing `Dev`, in order. -/
inductive Effect
  /-- `data_write` takes up the page at `flAddr + ofAddr`. -/
  | page (flAddr ofAddr : Word)
  /-- A flash controller is given a command. -/
  | command (cmd : EfcCmd)
  | checkIntegrity (rc : Word)
  | switchingTimerStart
  | codeSwitching
  deriving DecidableEq, Repr

structure Out where
  ret : Word
  ack : Word
  effects : List Effect

-- ---------------------------------------------------------------------------
-- Initialization
-- ---------------------------------------------------------------------------

def initCrc32Entry (crc : Word) : Word := if crc &&& 1 ≠ 0 then (crc >>> 1) ^^^ 0xEDB88320#32 else crc >>> 1

def initCrc32Table (i : Byte) : Word := (List.range 8).foldl (fun crc _ => initCrc32Entry crc) (i.setWidth 32)

/-- The static data as the C start-up code leaves it, running from the bank GPNVM2 selects. -/
def powerUp (f : Flash) : Dev where
  plaintext := List.replicate maxPlaintextLen 0
  crc32Table := fun _ => 0
  prePktSeq := -1
  isAuthenticated := false
  fileLen := 0
  cryptoIdx := -1
  gcm := ⟨.null, 0, .null, List.replicate gcmTagLen 0⟩
  cryptoIv := cryptoIvInit
  switchingTimer := ⟨0, 0, 0, none⟩
  switchingTimerPoll := false
  flash := f
  cpuBank := f.efcAt0

/-- `upgrade_init`, with `idx` the index `find_cipher("aes")` returns. -/
def upgradeInit (idx : Int) (d : Dev) : Dev :=
  let d := { d with cryptoIdx := idx }
  if d.cryptoIdx = -1 then d else { d with crc32Table := initCrc32Table }

def boot (idx : Int) (f : Flash) : Dev := upgradeInit idx (powerUp f)

-- ---------------------------------------------------------------------------
-- Checking a packet
-- ---------------------------------------------------------------------------

def crcStep (table : Byte → Word) (ret : Word) (b : Byte) : Word :=
  table (((ret &&& 0xFF#32) ^^^ b.setWidth 32).setWidth 8) ^^^ (ret >>> 8)

def calcCrc (table : Byte → Word) (buf : Mem) (len : Nat) : Word :=
  ~~~ (buf.slice 0 len).foldl (crcStep table) 0xFFFFFFFF#32

/-- `PKT_VALID`, or `PKT_INVALID` with the ack it sets. -/
def isPktValid (table : Byte → Word) (type len : Half) (buffer : Mem) : Except Word Unit :=
  if type = authenticatedFrame then
    if buffer (pktHeaderLen + pktTypeLen + gcmIvLen + gcmTagLen) ≠ packetTail then
      .error (uHtonl authenticatedInvalid)
    else .ok ()
  else if type = dataFrame then
    if buffer (pktPayloadPos + len.toNat + pktCrcLen) = packetTail then
      let pktCrc := uHtonl (buffer.load32 (pktPayloadPos + len.toNat))
      let calculatedCrc := calcCrc table buffer (pktPayloadPos + len.toNat)
      if pktCrc ≠ calculatedCrc then .error (uHtonl dataFrameCrcErr) else .ok ()
    else .error (uHtonl dataFrameInvalid)
  else if type = ackFrame then .error (uHtonl pktInvalid)
  else if type = commandFrame then
    if buffer (pktHeaderLen + pktTypeLen + pktCmdLen) ≠ packetTail then
      .error (uHtonl commandFrameInvalid)
    else .ok ()
  else .error (uHtonl pktInvalid)

-- ---------------------------------------------------------------------------
-- The session
-- ---------------------------------------------------------------------------

def upgradeStart (d : Dev) : Dev := { d with isAuthenticated := true, prePktSeq := -1, fileLen := 0 }

def upgradeEnd (d : Dev) : Dev := { d with isAuthenticated := false, prePktSeq := -1, fileLen := 0 }

def overwrite (l buf : List Byte) : List Byte := l ++ buf.drop l.length

def authenticatingFrame (lib : GcmLib) (gcmErr : Int) (d : Dev) (buffer : Mem) : Dev × Word :=
  let d := { d with cryptoIv := buffer.slice 0 gcmIvLen }
  if d.cryptoIdx = -1 then (d, failure)
  else
    let d := { d with gcm := { d.gcm with pt := .cryptoAad, ptlen := cryptoAad.length, ct := .plaintext } }
    if gcmErr ≠ 0 then (d, failure)
    else
      let (ct, tag) := lib.run .encrypt cryptoKey d.cryptoIv cryptoAad
      let d := { d with plaintext := overwrite ct d.plaintext, gcm := { d.gcm with tag } }
      if tag = buffer.slice gcmIvLen gcmTagLen then (d, success) else (d, failure)

/-- `data_decrypt`; `CRYPT_OK` is 0 and `CRYPT_NOP` 2. -/
def dataDecrypt (lib : GcmLib) (gcmErr : Int) (d : Dev) (buffer : Mem) (bufLen : Nat) : Dev × Int :=
  if d.cryptoIdx = -1 then (d, 2)
  else
    let d := { d with
      plaintext := List.replicate maxPlaintextLen 0xff
      gcm := { d.gcm with pt := .plaintext, ct := .frame, ptlen := bufLen } }
    if gcmErr ≠ 0 then (d, gcmErr)
    else
      let (pt, tag) := lib.run .decrypt cryptoKey d.cryptoIv (buffer.slice 0 bufLen)
      ({ d with plaintext := overwrite pt d.plaintext, gcm := { d.gcm with tag } }, 0)

/-- The bytes `gcm_instance.pt` points to. -/
def Dev.pt (d : Dev) : Mem :=
  match d.gcm.pt with
  | .cryptoAad => .ofList cryptoAad fun _ => 0
  | .plaintext => .ofList d.plaintext fun _ => 0
  | .null | .frame => fun _ => 0

-- ---------------------------------------------------------------------------
-- Writing the image
-- ---------------------------------------------------------------------------

structure WriteRes where
  rc : Word
  flash : Flash
  effects : List Effect

/-- The body of the loop of `data_write`: one page, after an erase where a group
of eight starts. -/
def dataWritePage (io : EfcCmd → Outcome) (flAddr ofAddr : Word) (buffer : Mem) (f : Flash) :
    WriteRes :=
  let ulPage := (flAddr + ofAddr - iflash1Addr) / iflash0PageSize
  let erased : FlashRes :=
    if ulPage % pagesToErase = 0 then flashErasePage io f (flAddr + ofAddr) iflashErasePages8
    else ⟨success, f, []⟩
  let effects := .page flAddr ofAddr :: erased.cmds.map Effect.command
  if erased.rc ≠ success then ⟨erased.rc, erased.flash, effects⟩
  else
    let written := flashWrite io erased.flash (flAddr + ofAddr) (buffer.offset ofAddr.toNat)
      iflash0PageSize.toNat
    ⟨written.rc, written.flash, effects ++ written.cmds.map Effect.command⟩

/-- The loop of `data_write`, `while (buf_len > 0)`. Each turn takes 512 from
`buf_len`, so `buf_len` turns are enough. -/
def dataWriteLoop (io : EfcCmd → Outcome) (flAddr : Word) (buffer : Mem) :
    Nat → Flash → Word → Int → WriteRes
  | 0, f, _, _ => ⟨success, f, []⟩
  | turns + 1, f, ofAddr, bufLen =>
    if bufLen ≤ 0 then ⟨success, f, []⟩
    else
      let page := dataWritePage io flAddr ofAddr buffer f
      if page.rc ≠ success then page
      else
        let rest := dataWriteLoop io flAddr buffer turns page.flash (ofAddr + iflash0PageSize)
          (bufLen - 512)
        ⟨rest.rc, rest.flash, page.effects ++ rest.effects⟩

@[irreducible]
def dataWrite (io : EfcCmd → Outcome) (f : Flash) (flAddr : Word) (buffer : Mem) (bufLen : Nat) :
    WriteRes :=
  if flAddr < iflash1Addr then ⟨failure, f, []⟩ else dataWriteLoop io flAddr buffer bufLen f 0 bufLen

def checkIntegrity (d : Dev) (flAddr : Word) (len : Nat) : Word :=
  if (List.range len).all fun i => d.flash.read (flAddr + BitVec.ofNat 32 i) = d.pt i then success
  else failure

-- ---------------------------------------------------------------------------
-- The switching timer
-- ---------------------------------------------------------------------------

def switchingTimerStart (interval : Word) (fn : TimerFn) (now : Word) (d : Dev) : Dev :=
  { d with
    switchingTimer := { timer := 0, lastTime := now, timerInterval := interval, timerFunc := some fn }
    switchingTimerPoll := true }

/-- `switching_timer_update`: the timer after it, and the function it calls. -/
def switchingTimerUpdate (curTime : Word) (t : UpgradeTimer) : UpgradeTimer × Option TimerFn :=
  let timeDiff := if t.lastTime ≤ curTime then curTime - t.lastTime
    else 0xFFFFFFFF#32 - t.lastTime + curTime
  if timeDiff ≠ 0 then
    let t := { t with lastTime := curTime, timer := t.timer + timeDiff }
    if t.timerInterval < t.timer then ({ t with timer := t.timer - t.timerInterval }, t.timerFunc)
    else (t, none)
  else (t, none)

/-- The flash as `code_switching` leaves it; then it resets the processor. -/
def codeSwitching (o : GpnvmOutcome) (f : Flash) : Flash :=
  if flashIsGpnvmSet f then (flashClearGpnvm o f).2 else (flashSetGpnvm o f).2

/-- A turn of the main loop's `if (switching_timer_poll) switching_timer_poll();`. -/
def switchingTimerPoll (idx : Int) (o : GpnvmOutcome) (curTime : Word) (d : Dev) : Dev × List Effect :=
  if d.switchingTimerPoll then
    match switchingTimerUpdate curTime d.switchingTimer with
    | (_, some .codeSwitching) => (boot idx (codeSwitching o d.flash), [.codeSwitching])
    | (t, none) => ({ d with switchingTimer := t }, [])
  else (d, [])

-- ---------------------------------------------------------------------------
-- Handling a packet
-- ---------------------------------------------------------------------------

def Out.fail (ack : Word) : Out := ⟨failure, uHtonl ack, []⟩

/-- The `AUTHENTICATED_FRAME` branches, which are the same in and out of a session. -/
def handleAuthenticatedFrame (lib : GcmLib) (env : Env) (d : Dev) (buffer : Mem) : Dev × Out :=
  let (d, rc) := authenticatingFrame lib env.gcmErr d (buffer.offset (pktHeaderLen + pktTypeLen))
  if rc ≠ success then (upgradeEnd d, .fail authenticatedFail)
  else (upgradeStart d, ⟨success, uHtonl authenticatedPass, []⟩)

/-- `(seq * MAX_PLAINTEXT_LEN) + IFLASH1_ADDR` -/
def frameAddr (seq : Half) : Word := seq.setWidth 32 * BitVec.ofNat 32 maxPlaintextLen + iflash1Addr

def frameWritten (d : Dev) (seq len : Half) (ack : Word) (written : WriteRes) : Dev × Out :=
  let d := { d with flash := written.flash }
  if written.rc ≠ success then
    (upgradeEnd d, ⟨failure, uHtonl dataFrameFlashWrErr, written.effects⟩)
  else
    let rc := checkIntegrity d (frameAddr seq) len.toNat
    let effects := written.effects ++ [.checkIntegrity rc]
    if rc ≠ success then (upgradeEnd d, ⟨failure, uHtonl dataFrameFlashWrErr, effects⟩)
    else ({ d with fileLen := d.fileLen + len.setWidth 32 }, ⟨success, ack, effects⟩)

def handleDataFrame (lib : GcmLib) (env : Env) (d : Dev) (buffer : Mem) (seq len : Half) (ack : Word) :
    Dev × Out :=
  if maxSeqNum < seq.toNat then (d, .fail dataFrameSeqErr)
  else if d.prePktSeq + 1 ≠ seq.toNat then (upgradeEnd d, .fail dataFrameSeqErr)
  else if maxPlaintextLen < len.toNat ∨ len = 0 then (d, .fail dataFrameLenErr)
  else
    let (d, err) := dataDecrypt lib env.gcmErr d (buffer.offset pktPayloadPos) len.toNat
    if err ≠ 0 then (d, .fail dataFrameDecryptErr)
    else
      let d := { d with prePktSeq := seq.toInt }
      frameWritten d seq len ack (dataWrite env.flash d.flash (frameAddr seq) d.pt len.toNat)

/-- `crc` as `GET_CRC` computes it; 0 when the file length is out of range. -/
def flashCrc (d : Dev) : Word :=
  if 0 < d.fileLen ∧ d.fileLen < iflash1Size then
    calcCrc d.crc32Table (fun i => d.flash.read (iflash1Addr + BitVec.ofNat 32 i)) d.fileLen.toNat
  else 0

def handleCommandFrame (env : Env) (d : Dev) (buffer : Mem) : Dev × Out :=
  let cmd := uHtonl (buffer.load32 (pktHeaderLen + pktTypeLen))
  if cmd = getVersion then (d, ⟨success, uHtonl appVersion, []⟩)
  else if cmd = getCrc then (d, ⟨success, uHtonl (flashCrc d), []⟩)
  else if cmd = exec then
    (switchingTimerStart codeSwitchingInterval .codeSwitching env.now d,
      ⟨success, uHtonl commandFramePass, [.switchingTimerStart]⟩)
  else (d, .fail commandFrameCmdErr)

def frameType (buffer : Mem) : Half := uHtons (buffer.load16 pktHeaderLen)
def frameSeq (buffer : Mem) : Half := uHtons (buffer.load16 (pktHeaderLen + pktTypeLen))
def frameLen (buffer : Mem) : Half := uHtons (buffer.load16 (pktHeaderLen + pktTypeLen + pktSeqLen))

/-- `(seq << 16) | len` on the fields as they were loaded, the ack of a data frame. -/
def dataAck (buffer : Mem) : Word :=
  ((buffer.load16 (pktHeaderLen + pktTypeLen)).setWidth 32 <<< 16) |||
    (buffer.load16 (pktHeaderLen + pktTypeLen + pktSeqLen)).setWidth 32

def handleUpgradePacket (lib : GcmLib) (env : Env) (d : Dev) (buffer : Mem) : Dev × Out :=
  let type := frameType buffer
  let seq := frameSeq buffer
  let len := frameLen buffer
  match isPktValid d.crc32Table type len buffer with
  | .error ack => (d, ⟨failure, ack, []⟩)
  | .ok () =>
    if d.isAuthenticated then
      if type = authenticatedFrame then handleAuthenticatedFrame lib env d buffer
      else if type = dataFrame then handleDataFrame lib env d buffer seq len (dataAck buffer)
      else if type = commandFrame then handleCommandFrame env d buffer
      else (d, .fail dataFrameTypeErr)
    else if type = authenticatedFrame then handleAuthenticatedFrame lib env d buffer
    else (d, .fail authenticatedFail)

-- ---------------------------------------------------------------------------
-- Runs
-- ---------------------------------------------------------------------------

structure Frame where
  buffer : Mem
  env : Env

def upgrade (lib : GcmLib) : Machine Dev Frame Out where
  step d fr := handleUpgradePacket lib fr.env d fr.buffer

inductive Event
  | frame (fr : Frame)
  | poll (curTime : Word) (o : GpnvmOutcome)

def device (lib : GcmLib) (idx : Int) : Machine Dev Event (Option Out × List Effect) where
  step d
    | .frame fr =>
      let (d', out) := handleUpgradePacket lib fr.env d fr.buffer
      (d', some out, out.effects)
    | .poll curTime o =>
      let (d', effects) := switchingTimerPoll idx o curTime d
      (d', none, effects)

end EthernetOta.Firmware
