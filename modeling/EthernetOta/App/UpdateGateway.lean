import EthernetOta.App.Frames
import EthernetOta.Lib.Faulting

/-!
# The upgrade activity

`UpdateGateway.java`: the fields of the activity, the buttons, the messages of
`mHandler` and `messageReceived`, which `TCPClient.run` calls from a thread of
its own. The user interface sends a frame and then writes the flag that says
how to read the answer: these are two steps, and anything the other thread does
may fall between them. An exception nobody catches ends the process, `none`.
Dialogs, the log and `bChooseFile`, which only `onStop` reads, are left out.
-/

namespace EthernetOta.App

abbrev Path := String

/-- A file that can be read, as the bytes successive calls of `read(buffer)` give. -/
structure File where
  reads : List (List Byte)
  bounded : ∀ c ∈ reads, 0 < c.length ∧ c.length ≤ 1024

/-- `fis.available()` on a file that was just opened. -/
def File.available (f : File) : Nat := f.reads.flatten.length

/-- Whether `PreCheckVersion` finds `'A'`, `'T'` in the first bytes it reads. -/
def File.marked (f : File) : Bool :=
  match f.reads with
  | [] => false
  | c :: _ => (c ++ List.replicate (1024 - c.length) 0)[28]? == some 0x41 &&
      (c ++ List.replicate (1024 - c.length) 0)[29]? == some 0x54

inductive Msg
  | sendDataFrame
  | transfer2NewFirmware
  | updateOver
  | continueData
  | sendGetVersion
  | displayVersion
  | connectionLost
  deriving DecidableEq, Repr

inductive Request
  | authentication (randomIv : List Byte)
  | data (randomIv plaintext : List Byte) (num : Half)
  | command (commandType : CommandType)
  deriving DecidableEq, Repr

def Request.bytes (cipher : Cipher) : Request → List Byte
  | .authentication randomIv => authenticationFrame randomIv (authenticationTag cipher randomIv)
  | .data randomIv plaintext num => generateDataFrame cipher randomIv plaintext num
  | .command commandType => generateCommandFrame commandType

/-- The flags that are written after a frame was sent. -/
inductive Flag
  | dataSend
  | commandSend
  | commandGetverison
  deriving DecidableEq, Repr

structure Activity where
  randomIv : List Byte
  frameSequence : Half
  bDataSend : Bool
  bCommandSend : Bool
  bCommandGetverison : Bool
  bDataAckError : Bool
  bFileReadOver : Bool
  bUpdate : Bool
  bFileFormat : Bool
  mFileCRC : Word
  baos : List Byte
  /-- What is left to read of the open file. -/
  fis : Option (List (List Byte))
  mFilesize : Nat
  version : Half × Half
  mPath : Path

def Activity.onCreate : Activity where
  randomIv := []
  frameSequence := 0
  bDataSend := false
  bCommandSend := false
  bCommandGetverison := false
  bDataAckError := false
  bFileReadOver := false
  bUpdate := false
  bFileFormat := false
  mFileCRC := 0
  baos := []
  fis := none
  mFilesize := 0
  version := (0, 0)
  mPath := ""

/-- What a step of the app does besides changing its fields, in order. -/
inductive GatewayEffect
  | sent (r : Request)
  | posted (msg : Msg)
  /-- `PreCheckVersion` looked at a file, and whether it found the marker. -/
  | checked (path : Path) (found : Bool)
  /-- The file whose blocks are sent, and what is in it. -/
  | opened (path : Path) (content : List Byte)
  deriving DecidableEq, Repr

namespace Activity

def set (a : Activity) : Flag → Activity
  | .dataSend => { a with bDataSend := true }
  | .commandSend => { a with bCommandSend := true }
  | .commandGetverison => { a with bCommandGetverison := true }

-- ---------------------------------------------------------------------------
-- Buttons
-- ---------------------------------------------------------------------------

def sendAuthenticationFrame (a : Activity) (randomIv : List Byte) : Activity × List GatewayEffect :=
  ({ a with randomIv }, [.sent (.authentication randomIv)])

def onClickUpdate (a : Activity) (randomIv : List Byte) : Activity × List GatewayEffect :=
  if a.bFileFormat then { a with bUpdate := true }.sendAuthenticationFrame randomIv else (a, [])

def onClickCheck (a : Activity) (randomIv : List Byte) : Activity × List GatewayEffect :=
  { a with bUpdate := false }.sendAuthenticationFrame randomIv

/-- `PreCheckVersion`; `none` stands for a path that is no readable file. -/
def preCheckVersion (a : Activity) (fs : Path → Option File) : Activity × List GatewayEffect :=
  match fs a.mPath with
  | none => (a, [.checked a.mPath false])
  | some file =>
    if file.marked then ({ a with bFileFormat := true }, [.checked a.mPath true])
    else (a, [.checked a.mPath false])

def onActivityResult (a : Activity) (filePath : Path) (fs : Path → Option File) :
    Activity × List GatewayEffect :=
  { a with mPath := filePath }.preCheckVersion fs

-- ---------------------------------------------------------------------------
-- mHandler
-- ---------------------------------------------------------------------------

/-- A block of the file, as `SENDDATAFRAME` and `CONTINUEDATA` both send it. -/
def sendBlock (a : Activity) : Activity × List GatewayEffect :=
  match a.fis with
  | none => (a, []) -- the exception is caught
  | some [] => (a, [])
  | some (c :: rest) =>
    let a := { a with fis := some rest }
    if a.bDataAckError || a.bFileReadOver then (a, [])
    else
      let buffer := c ++ List.replicate (1024 - c.length) 0xff
      ({ a with
          bFileReadOver := decide (c.length < 1024)
          frameSequence := a.frameSequence + 1
          baos := a.baos ++ buffer },
        [.sent (.data a.randomIv buffer a.frameSequence)])

structure Handled where
  activity : Activity
  effects : List GatewayEffect
  /-- The flag that is still to be written. -/
  flag : Option Flag

/-- `handleMessage`, up to the flag it writes last. -/
def handleMessage (a : Activity) (fs : Path → Option File) : Msg → Option Handled
  | .sendDataFrame =>
    match fs a.mPath with
    | none => some ⟨a, [], none⟩
    | some file =>
      let mFilesize :=
        if file.available % 1024 = 0 then file.available / 1024 else file.available / 1024 + 1
      let (a', effects) := { a with fis := some file.reads, baos := [], mFilesize }.sendBlock
      some ⟨a', .opened a.mPath file.reads.flatten :: effects, some .dataSend⟩
  | .sendGetVersion => some ⟨a, [.sent (.command .getVersion)], some .commandGetverison⟩
  | .continueData =>
    if a.mFilesize = 0 then none -- the progress is a division by it
    else if a.bFileReadOver then
      let a := { a with mFileCRC := Crc.crc32 a.baos }
      if a.bDataAckError then some ⟨a, [], none⟩
      else
        some ⟨{ a with fis := none, bDataSend := false }, [.sent (.command .getCRC)], some .commandSend⟩
    else
      let (a, effects) := a.sendBlock
      some ⟨a, effects, none⟩
  | .transfer2NewFirmware => some ⟨a, [.sent (.command .exeFirmware)], some .commandSend⟩
  | .updateOver | .displayVersion | .connectionLost => some ⟨a, [], none⟩

-- ---------------------------------------------------------------------------
-- messageReceived
-- ---------------------------------------------------------------------------

def matchesAt (message : List Byte) : Nat → List Byte → Option Bool
  | _, [] => some true
  | i, b :: l => do
    let c ← message[i]?
    if c = b then matchesAt message (i + 1) l else some false

def ackReceived (a : Activity) (message : List Byte) : Option (Activity × List Msg) := do
  if ← matchesAt message 10 [0xFF, 0xFF] then
    if ← matchesAt message 12 [0, 0] then
      some (a, [if a.bCommandSend then .updateOver else if a.bUpdate then .sendDataFrame else .sendGetVersion])
    else do
      let code ← message[13]?
      if 0x01 ≤ code ∧ code ≤ 0x08 ∧ a.bDataSend then some ({ a with bDataAckError := true }, [])
      else some (a, [])
  else do
    let continued ← if a.bDataSend then do
        let _ ← message[11]?
        some [Msg.continueData]
      else some []
    let transferred ← if a.bCommandSend then do
        let m0 ← message[10]?
        let m1 ← message[11]?
        let m2 ← message[12]?
        let m3 ← message[13]?
        some (if a.mFileCRC = (m0 ++ m1) ++ (m2 ++ m3) then [Msg.transfer2NewFirmware] else [])
      else some []
    if a.bCommandGetverison then do
      let m0 ← message[10]?
      let m1 ← message[11]?
      let m2 ← message[12]?
      let m3 ← message[13]?
      some ({ a with bCommandGetverison := false, version := (m0 ++ m1, m2 ++ m3) },
        continued ++ transferred ++ [.displayVersion])
    else some (a, continued ++ transferred)

/-- `messageReceived`; TCPClient reports a timeout as the bytes of `"timeout"`. -/
def messageReceived (a : Activity) (message : List Byte) : Option (Activity × List Msg) := do
  if ← matchesAt message 0 [0x74, 0x69, 0x6d, 0x65] then
    some (a, if a.bDataSend then [.connectionLost] else [])
  else if ← matchesAt message 8 [0x08, 0x03] then a.ackReceived message
  else some (a, [])

end Activity

-- ---------------------------------------------------------------------------
-- The two threads
-- ---------------------------------------------------------------------------

structure Gateway where
  activity : Activity
  /-- The messages posted to `mHandler`. -/
  queue : List Msg
  /-- The flag the user interface is about to write. -/
  pending : Option Flag

def Gateway.onCreate : Gateway := ⟨.onCreate, [], none⟩

inductive GatewayEvent
  | update (randomIv : List Byte)
  | check (randomIv : List Byte)
  | choose (filePath : Path) (fs : Path → Option File)
  /-- The next message is handled. -/
  | handle (fs : Path → Option File)
  /-- The flag is written. -/
  | flag
  /-- `TCPClient.run` calls `messageReceived`. -/
  | received (message : List Byte)

/-- The thread of the user interface does one thing at a time. -/
def Gateway.step (s : Gateway) : GatewayEvent → Option (Gateway × List GatewayEffect)
  | .update randomIv =>
    if s.pending.isSome then some (s, [])
    else
      let (activity, effects) := s.activity.onClickUpdate randomIv
      some ({ s with activity }, effects)
  | .check randomIv =>
    if s.pending.isSome then some (s, [])
    else
      let (activity, effects) := s.activity.onClickCheck randomIv
      some ({ s with activity }, effects)
  | .choose filePath fs =>
    if s.pending.isSome then some (s, [])
    else
      let (activity, effects) := s.activity.onActivityResult filePath fs
      some ({ s with activity }, effects)
  | .handle fs =>
    match s.pending, s.queue with
    | none, msg :: queue => do
      let r ← s.activity.handleMessage fs msg
      some (⟨r.activity, queue, r.flag⟩, r.effects)
    | _, _ => some (s, [])
  | .flag =>
    match s.pending with
    | none => some (s, [])
    | some flag => some ({ s with activity := s.activity.set flag, pending := none }, [])
  | .received message => do
    let (activity, posts) ← s.activity.messageReceived message
    some ({ s with activity, queue := s.queue ++ posts }, posts.map .posted)

def updateGateway : Faulting Gateway GatewayEvent GatewayEffect where
  step := Gateway.step

end EthernetOta.App
