import EthernetOta.App.UpdateGateway

/-!
# How the activity reads an ack

`messageReceived` looks at ten bytes to see that a message is an ack and takes
the four bytes after them. Two of these tell a status from a value: a status
starts with 0xFF, 0xFF.
-/

namespace EthernetOta.App

def ackValue (b0 b1 b2 b3 : Byte) : Word := (b0 ++ b1) ++ (b2 ++ b3)

def acked (a : Activity) (b0 b1 b2 b3 : Byte) : Activity × List Msg :=
  if b0 = 0xFF ∧ b1 = 0xFF then
    if b2 = 0 ∧ b3 = 0 then
      (a, [if a.bCommandSend then .updateOver else if a.bUpdate then .sendDataFrame else .sendGetVersion])
    else (if 0x01 ≤ b3 ∧ b3 ≤ 0x08 ∧ a.bDataSend then { a with bDataAckError := true } else a, [])
  else
    (if a.bCommandGetverison then { a with bCommandGetverison := false, version := (b0 ++ b1, b2 ++ b3) } else a,
      (if a.bDataSend then [.continueData] else []) ++
        (if a.bCommandSend ∧ a.mFileCRC = ackValue b0 b1 b2 b3 then [.transfer2NewFirmware] else []) ++
        if a.bCommandGetverison then [.displayVersion] else [])

theorem matchesAt_two {m : List Byte} (hc : m[i]? = some c) (hd : m[i + 1]? = some d) (x y : Byte) :
    Activity.matchesAt m i [x, y] = some (decide (c = x ∧ d = y)) := by
  by_cases h : c = x <;> by_cases h' : d = y <;> simp [Activity.matchesAt, hc, hd, h, h']

/-- The bytes of a message that `messageReceived` takes for those of an ack. -/
def ackOf (message : List Byte) : Option (List Byte) :=
  if Activity.matchesAt message 0 [0x74, 0x69, 0x6d, 0x65] = some false ∧
      Activity.matchesAt message 8 [0x08, 0x03] = some true then some ((message.drop 10).take 4)
  else none

theorem getElem?_take_drop {m : List Byte} (h : (m.drop k).take n = l) (hi : i < n) :
    m[k + i]? = l[i]? := by
  rw [← h, List.getElem?_take_of_lt hi, List.getElem?_drop]

theorem messageReceived_ackOf (a : Activity) (h : ackOf message = some [b0, b1, b2, b3]) :
    a.messageReceived message = some (acked a b0 b1 b2 b3) := by
  unfold ackOf at h
  split at h
  case isFalse => exact nomatch h
  case isTrue hack =>
  have hbytes := Option.some.inj h
  have h10 : message[10]? = some b0 := getElem?_take_drop (i := 0) hbytes (by decide)
  have h11 : message[11]? = some b1 := getElem?_take_drop (i := 1) hbytes (by decide)
  have h12 : message[12]? = some b2 := getElem?_take_drop (i := 2) hbytes (by decide)
  have h13 : message[13]? = some b3 := getElem?_take_drop (i := 3) hbytes (by decide)
  rw [Activity.messageReceived, hack.1, hack.2]
  simp only [Option.bind_eq_bind, Option.bind_some, Bool.false_eq_true, ↓reduceIte, Activity.ackReceived,
    matchesAt_two h10 h11, matchesAt_two h12 h13, h10, h11, h12, h13, decide_eq_true_eq, acked, ackValue]
  by_cases hstatus : b0 = 0xFF ∧ b1 = 0xFF
  · simp only [if_pos hstatus]
    by_cases hpass : b2 = 0 ∧ b3 = 0
    · simp only [if_pos hpass]
    · simp only [if_neg hpass]
      split <;> rfl
  · simp only [if_neg hstatus]
    cases a.bDataSend <;> cases a.bCommandSend <;> cases a.bCommandGetverison <;> simp

-- ---------------------------------------------------------------------------
-- What a message can do
-- ---------------------------------------------------------------------------

theorem matchesAt_pair {m : List Byte} : Activity.matchesAt m i [x, y] = some true ↔
    m[i]? = some x ∧ m[i + 1]? = some y := by
  cases hx : m[i]? with
  | none => simp [Activity.matchesAt, hx]
  | some c => cases hy : m[i + 1]? <;> by_cases h : c = x <;> simp [Activity.matchesAt, hx, hy, h]

theorem matchesAt_pair_false {m : List Byte} (h : Activity.matchesAt m i [x, y] = some false) :
    ∃ b, m[i]? = some b ∧ (b = x → ∃ d, m[i + 1]? = some d ∧ d ≠ y) := by
  cases hx : m[i]? with
  | none => simp [Activity.matchesAt, hx] at h
  | some b =>
    refine ⟨b, rfl, ?_⟩
    rintro rfl
    cases hy : m[i + 1]? with
    | none => simp [Activity.matchesAt, hx, hy] at h
    | some d => exact ⟨d, rfl, by simpa [Activity.matchesAt, hx, hy] using h⟩

theorem ackReceived_status (hstatus : Activity.matchesAt m 10 [0xFF, 0xFF] = some true)
    (h : Activity.ackReceived a m = some r) : ∃ b2 b3, r = acked a 0xFF 0xFF b2 b3 := by
  rw [Activity.ackReceived, hstatus] at h
  simp only [Option.bind_eq_bind, Option.bind_some, ↓reduceIte] at h
  obtain ⟨zero, hzero, h⟩ := Option.bind_eq_some_iff.mp h
  cases zero with
  | true => exact ⟨0, 0, (Option.some.inj h).symm⟩
  | false =>
    simp only [Bool.false_eq_true, ↓reduceIte] at h
    obtain ⟨code, -, h⟩ := Option.bind_eq_some_iff.mp h
    refine ⟨1, code, ?_⟩
    have hne : ¬ ((1 : Byte) = 0 ∧ code = 0) := fun hzero => absurd hzero.1 (by decide)
    rw [acked, if_pos ⟨rfl, rfl⟩, if_neg hne]
    by_cases hdata : 0x01 ≤ code ∧ code ≤ 0x08 ∧ a.bDataSend
    · rw [if_pos hdata] at h ⊢
      exact (Option.some.inj h).symm
    · rw [if_neg hdata] at h ⊢
      exact (Option.some.inj h).symm

theorem ackReceived_value (hvalue : Activity.matchesAt m 10 [0xFF, 0xFF] = some false)
    (h : Activity.ackReceived a m = some r) : ∃ b0 b1 b2 b3, r = acked a b0 b1 b2 b3 := by
  obtain ⟨b0, h10, hne⟩ := matchesAt_pair_false hvalue
  have hvalue' : ¬ (b0 = 0xFF ∧ m[11]?.getD 0 = 0xFF) := by
    rintro ⟨h0, h1⟩
    obtain ⟨d, hd, hdne⟩ := hne h0
    rw [hd] at h1
    exact hdne h1
  refine ⟨b0, m[11]?.getD 0, m[12]?.getD 0, m[13]?.getD 0, ?_⟩
  rw [Activity.ackReceived, hvalue] at h
  simp only [Option.bind_eq_bind, Option.bind_some, Bool.false_eq_true, ↓reduceIte, h10] at h
  rw [acked, if_neg hvalue', ackValue]
  cases hd : a.bDataSend <;> cases hc : a.bCommandSend <;> cases hv : a.bCommandGetverison <;>
    simp only [hd, hc, hv, Bool.false_eq_true, ↓reduceIte, Option.bind_eq_some_iff] at h
  all_goals grind

/-- A message that does not throw is a timeout, or of no interest, or read like an
ack with some four bytes. -/
theorem messageReceived_cases {a : Activity} {m : List Byte} (h : a.messageReceived m = some r) :
    r = (a, []) ∨ r = (a, [.connectionLost]) ∨ ∃ b0 b1 b2 b3, r = acked a b0 b1 b2 b3 := by
  obtain ⟨time, -, h⟩ := Option.bind_eq_some_iff.mp h
  cases time with
  | true =>
    simp only [↓reduceIte] at h
    split at h
    · exact .inr (.inl (Option.some.inj h).symm)
    · exact .inl (Option.some.inj h).symm
  | false =>
    simp only [Bool.false_eq_true, ↓reduceIte] at h
    obtain ⟨isAck, -, h⟩ := Option.bind_eq_some_iff.mp h
    cases isAck with
    | false => exact .inl (Option.some.inj h).symm
    | true =>
      simp only [↓reduceIte] at h
      have hread := h
      obtain ⟨status, hstatus, -⟩ := Option.bind_eq_some_iff.mp hread
      cases status with
      | true =>
        obtain ⟨b2, b3, hr⟩ := ackReceived_status hstatus h
        exact .inr (.inr ⟨_, _, b2, b3, hr⟩)
      | false => exact .inr (.inr (ackReceived_value hstatus h))

theorem acked_fields (a : Activity) (b0 b1 b2 b3 : Byte) : ∃ e g v, (a.bDataAckError = true → e = true) ∧
    (acked a b0 b1 b2 b3).1 = { a with bDataAckError := e, bCommandGetverison := g, version := v } := by
  unfold acked
  split
  · split
    · exact ⟨a.bDataAckError, a.bCommandGetverison, a.version, id, rfl⟩
    · by_cases h : 0x01 ≤ b3 ∧ b3 ≤ 0x08 ∧ a.bDataSend
      · exact ⟨true, a.bCommandGetverison, a.version, fun _ => rfl, if_pos h⟩
      · exact ⟨a.bDataAckError, a.bCommandGetverison, a.version, id, if_neg h⟩
  · cases h : a.bCommandGetverison with
    | true => exact ⟨a.bDataAckError, false, (b0 ++ b1, b2 ++ b3), id, rfl⟩
    | false => exact ⟨a.bDataAckError, false, a.version, id, by simp [← h]⟩

theorem messageReceived_fields (h : Activity.messageReceived a m = some (a', posts)) : ∃ e g v,
    (a.bDataAckError = true → e = true) ∧
      a' = { a with bDataAckError := e, bCommandGetverison := g, version := v } := by
  rcases messageReceived_cases h with hr | hr | ⟨b0, b1, b2, b3, hr⟩
  · exact ⟨a.bDataAckError, a.bCommandGetverison, a.version, id, congrArg Prod.fst hr⟩
  · exact ⟨a.bDataAckError, a.bCommandGetverison, a.version, id, congrArg Prod.fst hr⟩
  · obtain ⟨e, g, v, herr, hfields⟩ := acked_fields a b0 b1 b2 b3
    exact ⟨e, g, v, herr, (congrArg Prod.fst hr).trans hfields⟩

theorem acked_sendDataFrame (h : .sendDataFrame ∈ (acked a b0 b1 b2 b3).2) :
    a.bUpdate = true ∧ a.bCommandSend = false := by
  unfold acked at h
  split at h
  · split at h
    · cases hc : a.bCommandSend <;> cases hu : a.bUpdate <;> simp [hc, hu] at h ⊢
    · cases h
  · cases hd : a.bDataSend <;> cases hc : a.bCommandSend <;> cases hv : a.bCommandGetverison <;>
      simp [hd, hc, hv] at h

theorem messageReceived_sendDataFrame (h : Activity.messageReceived a m = some (a', posts))
    (hm : .sendDataFrame ∈ posts) : a.bUpdate = true := by
  rcases messageReceived_cases h with hr | hr | ⟨b0, b1, b2, b3, hr⟩
  · obtain ⟨-, rfl⟩ := Prod.mk.inj hr
    cases hm
  · obtain ⟨-, rfl⟩ := Prod.mk.inj hr
    cases List.mem_singleton.mp hm
  · have hposts : posts = (acked a b0 b1 b2 b3).2 := congrArg Prod.snd hr
    rw [hposts] at hm
    exact (acked_sendDataFrame hm).1

end EthernetOta.App
