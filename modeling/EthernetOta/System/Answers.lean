import EthernetOta.System.Replies

/-!
# What the device answers to a request of the app

Whatever state the device is in, its answer to a request is a refusal, or the one
kind of ack that belongs to the request.
-/

namespace EthernetOta.System

open Firmware App

inductive Answered : Request → Out → Prop
  | refused (r : Request) (code : Byte) (hcode : code ≠ 0) (out : Out) (ret : out.ret = failure)
    (message : generateAckFrame out.ack = ackMessage 0xFF 0xFF 0 code) : Answered r out
  | passed (iv : List Byte) : Answered (.authentication iv) ⟨success, uHtonl authenticatedPass, []⟩
  | stored (iv plaintext : List Byte) (num : Half) (b2 b3 : Byte) (out : Out) (ret : out.ret = success)
    (message : generateAckFrame out.ack = ackMessage 0x04 0x00 b2 b3) : Answered (.data iv plaintext num) out
  | version : Answered (.command .getVersion) ⟨success, uHtonl appVersion, []⟩
  | crc (w : Word) : Answered (.command .getCRC) ⟨success, uHtonl w, []⟩
  | exec : Answered (.command .exeFirmware) ⟨success, uHtonl commandFramePass, [.switchingTimerStart]⟩

/-- What of a request decides how it is answered. -/
inductive Reads : Request → Mem → Prop
  | authentication (iv : List Byte) (type : frameType buffer = authenticatedFrame) :
    Reads (.authentication iv) buffer
  | data (iv plaintext : List Byte) (num : Half) (type : frameType buffer = Firmware.dataFrame)
    (high : buffer 12 = 0x04) (low : buffer 13 = 0x00) : Reads (.data iv plaintext num) buffer
  | command (c : CommandType) (type : frameType buffer = commandFrame)
    (cmd : frameCmd buffer = commandCode c) : Reads (.command c) buffer

theorem reads_bytes (cipher : Cipher) (r : Request) (rest : Mem) : Reads r (.ofList (r.bytes cipher) rest) := by
  cases r with
  | authentication iv => exact .authentication iv (authenticationFrame_type _ _ _)
  | data iv plaintext num => exact .data iv plaintext num (dataFrame_type _ _ _) rfl rfl
  | command c => exact .command c (commandFrame_type c rest) (commandFrame_cmd c rest)

section
variable {r : Request} {env : Env} {d : Dev} {buffer : Mem}

theorem Reads.of_auth (h : Reads r buffer) (type : frameType buffer = authenticatedFrame) :
    ∃ iv, r = .authentication iv := by
  have hne : ¬ authenticatedFrame = Firmware.dataFrame ∧ ¬ authenticatedFrame = commandFrame := by decide
  cases h with
  | authentication iv => exact ⟨iv, rfl⟩
  | data _ _ _ type' => exact absurd (type.symm.trans type') hne.1
  | command _ type' => exact absurd (type.symm.trans type') hne.2

theorem Reads.of_data (h : Reads r buffer) (type : frameType buffer = Firmware.dataFrame) :
    ∃ iv plaintext num, r = .data iv plaintext num ∧ buffer 12 = 0x04 ∧ buffer 13 = 0x00 := by
  have hne : ¬ Firmware.dataFrame = authenticatedFrame ∧ ¬ Firmware.dataFrame = commandFrame := by decide
  cases h with
  | authentication _ type' => exact absurd (type.symm.trans type') hne.1
  | data iv plaintext num _ high low => exact ⟨iv, plaintext, num, rfl, high, low⟩
  | command _ type' => exact absurd (type.symm.trans type') hne.2

theorem Reads.of_command (h : Reads r buffer) (type : frameType buffer = commandFrame) :
    ∃ c, r = .command c ∧ frameCmd buffer = commandCode c := by
  have hne : ¬ commandFrame = authenticatedFrame ∧ ¬ commandFrame = Firmware.dataFrame := by decide
  cases h with
  | authentication _ type' => exact absurd (type.symm.trans type') hne.1
  | data _ _ _ type' => exact absurd (type.symm.trans type') hne.2
  | command c _ cmd => exact ⟨c, rfl, cmd⟩

theorem answered_refused (r : Request) (status : Word) (code : Byte) (effects : List Effect) (hcode : code ≠ 0)
    (message : generateAckFrame (uHtonl status) = ackMessage 0xFF 0xFF 0 code) :
    Answered r ⟨failure, uHtonl status, effects⟩ := .refused r code hcode _ rfl message

theorem answered_handled {res : Dev × Out} (h : Handled lib env d buffer res) (reads : Reads r buffer) :
    Answered r res.2 := by
  cases h with
  | invalid hv =>
    rcases isPktValid_error hv with rfl | rfl
    · exact answered_refused r pktInvalid 2 _ (by decide) (by decide)
    · exact answered_refused r dataFrameCrcErr 6 _ (by decide) (by decide)
  | authFail => exact answered_refused r authenticatedFail 1 _ (by decide) (by decide)
  | closed => exact answered_refused r authenticatedFail 1 _ (by decide) (by decide)
  | seqRange => exact answered_refused r dataFrameSeqErr 4 _ (by decide) (by decide)
  | seqMismatch => exact answered_refused r dataFrameSeqErr 4 _ (by decide) (by decide)
  | badLen => exact answered_refused r dataFrameLenErr 5 _ (by decide) (by decide)
  | decryptErr => exact answered_refused r dataFrameDecryptErr 7 _ (by decide) (by decide)
  | writeErr => exact answered_refused r dataFrameFlashWrErr 8 _ (by decide) (by decide)
  | readBackErr => exact answered_refused r dataFrameFlashWrErr 8 _ (by decide) (by decide)
  | unknown => exact answered_refused r commandFrameCmdErr 3 _ (by decide) (by decide)
  | authPass _ type =>
    obtain ⟨iv, rfl⟩ := reads.of_auth type
    exact .passed iv
  | stored writes =>
    obtain ⟨iv, plaintext, num, rfl, high, low⟩ := reads.of_data writes.type
    exact .stored iv plaintext num _ _ _ rfl (by rw [generateAckFrame_dataAck, high, low])
  | version command cmd =>
    obtain ⟨c, rfl, hc⟩ := reads.of_command command.type
    have hne : commandCode .getCRC ≠ getVersion ∧ commandCode .exeFirmware ≠ getVersion := by decide
    cases c with
    | getVersion => exact .version
    | getCRC => exact absurd (hc.symm.trans cmd) hne.1
    | exeFirmware => exact absurd (hc.symm.trans cmd) hne.2
  | crc command cmd =>
    obtain ⟨c, rfl, hc⟩ := reads.of_command command.type
    have hne : commandCode .getVersion ≠ getCrc ∧ commandCode .exeFirmware ≠ getCrc := by decide
    cases c with
    | getVersion => exact absurd (hc.symm.trans cmd) hne.1
    | getCRC => exact .crc _
    | exeFirmware => exact absurd (hc.symm.trans cmd) hne.2
  | exec command cmd =>
    obtain ⟨c, rfl, hc⟩ := reads.of_command command.type
    have hne : commandCode .getVersion ≠ Firmware.exec ∧ commandCode .getCRC ≠ Firmware.exec := by decide
    cases c with
    | getVersion => exact absurd (hc.symm.trans cmd) hne.1
    | getCRC => exact absurd (hc.symm.trans cmd) hne.2
    | exeFirmware => exact .exec

theorem answered (lib : GcmLib) (cipher : Cipher) (env : Env) (d : Dev) (r : Request) (rest : Mem) :
    Answered r (handleUpgradePacket lib env d (.ofList (r.bytes cipher) rest)).2 :=
  answered_handled (handled lib env d _) (reads_bytes cipher r rest)

end

-- ---------------------------------------------------------------------------
-- What the app makes of them
-- ---------------------------------------------------------------------------

def passMsg (a : Activity) : Msg :=
  if a.bCommandSend then .updateOver else if a.bUpdate then .sendDataFrame else .sendGetVersion

theorem received_pass (a : Activity) :
    a.messageReceived (generateAckFrame (uHtonl authenticatedPass)) = some (a, [passMsg a]) := by
  have hmessage : generateAckFrame (uHtonl authenticatedPass) = ackMessage 0xFF 0xFF 0 0 := by decide
  rw [hmessage, messageReceived_ackMessage]
  rfl

theorem received_refused (a : Activity) {code : Byte} (hcode : code ≠ 0) {message : List Byte}
    (hmessage : message = ackMessage 0xFF 0xFF 0 code) :
    ∃ e, a.messageReceived message = some ({ a with bDataAckError := e }, []) := by
  rw [hmessage, messageReceived_ackMessage, acked, if_pos ⟨rfl, rfl⟩, if_neg fun h => hcode h.2]
  by_cases h : 0x01 ≤ code ∧ code ≤ 0x08 ∧ a.bDataSend
  · exact ⟨true, by rw [if_pos h]⟩
  · exact ⟨a.bDataAckError, by rw [if_neg h]⟩

def valued (a : Activity) (b0 b1 b2 b3 : Byte) : Activity × List Msg :=
  (if a.bCommandGetverison then { a with bCommandGetverison := false, version := (b0 ++ b1, b2 ++ b3) } else a,
    (if a.bDataSend then [.continueData] else []) ++
      (if a.bCommandSend ∧ a.mFileCRC = ackValue b0 b1 b2 b3 then [.transfer2NewFirmware] else []) ++
      if a.bCommandGetverison then [.displayVersion] else [])

theorem received_value (a : Activity) {b0 b1 b2 b3 : Byte} (hvalue : ¬ (b0 = 0xFF ∧ b1 = 0xFF))
    {message : List Byte} (hmessage : message = ackMessage b0 b1 b2 b3) :
    a.messageReceived message = some (valued a b0 b1 b2 b3) := by
  rw [hmessage, messageReceived_ackMessage, acked, if_neg hvalue, valued]

end EthernetOta.System
