import EthernetOta.App.Acks
import EthernetOta.Firmware.Server

/-!
# The device's acks as the app reads them

An ack frame carries four bytes. Two of them tell a status from a value: a
status starts with 0xFF, 0xFF.
-/

namespace EthernetOta.System

open Firmware App

def ackMessage (b0 b1 b2 b3 : Byte) : List Byte :=
  upgradePktHeader ++ [0x08, 0x03, b0, b1, b2, b3, packetTail]

theorem generateAckFrame_eq (ack : Word) : generateAckFrame ack =
    ackMessage (ack.extractLsb' 0 8) (ack.extractLsb' 8 8) (ack.extractLsb' 16 8) (ack.extractLsb' 24 8) := by
  have htype : (uHtons ackFrame).bytes = [0x08, 0x03] := by decide
  rw [generateAckFrame, htype]
  rfl

theorem ackOf_ackMessage (b0 b1 b2 b3 : Byte) : ackOf (ackMessage b0 b1 b2 b3) = some [b0, b1, b2, b3] := rfl

theorem messageReceived_ackMessage (a : Activity) (b0 b1 b2 b3 : Byte) :
    a.messageReceived (ackMessage b0 b1 b2 b3) = some (acked a b0 b1 b2 b3) :=
  messageReceived_ackOf a (ackOf_ackMessage b0 b1 b2 b3)

-- ---------------------------------------------------------------------------
-- Statuses and values
-- ---------------------------------------------------------------------------

/-- The app compares the value with `mFileCRC` when it waits for a CRC. -/
def TakenAsCrc (message : List Byte) (crc : Word) : Prop :=
  ∀ a : Activity, a.bCommandSend = true → ∃ a' posts, a.messageReceived message = some (a', posts) ∧
    (.transfer2NewFirmware ∈ posts ↔ a.mFileCRC = crc)

theorem takenAsCrc_ackMessage (b0 b1 b2 b3 : Byte) :
    TakenAsCrc (ackMessage b0 b1 b2 b3) (ackValue b0 b1 b2 b3) ↔ ¬ (b0 = 0xFF ∧ b1 = 0xFF) := by
  constructor
  · intro h hstatus
    let a := { Activity.onCreate with bCommandSend := true, mFileCRC := ackValue b0 b1 b2 b3 }
    obtain ⟨a', posts, hreceived, htransfer⟩ := h a rfl
    rw [messageReceived_ackMessage, acked, if_pos hstatus] at hreceived
    have hposts := htransfer.mpr rfl
    -- a status posts no comparison
    split at hreceived
    · obtain ⟨-, rfl⟩ := Prod.mk.inj (Option.some.inj hreceived)
      exact absurd (List.mem_singleton.mp hposts) (by simp [a])
    · obtain ⟨-, rfl⟩ := Prod.mk.inj (Option.some.inj hreceived)
      exact absurd hposts List.not_mem_nil
  · intro hvalue a hcommand
    refine ⟨(acked a b0 b1 b2 b3).1, (acked a b0 b1 b2 b3).2, messageReceived_ackMessage a b0 b1 b2 b3, ?_⟩
    simp only [acked, if_neg hvalue, hcommand, true_and]
    by_cases hcrc : a.mFileCRC = ackValue b0 b1 b2 b3
    · simp [hcrc]
    · cases a.bDataSend <;> cases a.bCommandGetverison <;> simp [hcrc]

end EthernetOta.System
