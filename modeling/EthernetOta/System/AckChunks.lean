import EthernetOta.System.AckFrames

/-!
# The acks as the socket hands them over

`TCPClient.run` calls `messageReceived` once for each read, whatever a read gives
of the stream. The app hears the acks the device sent just when every read gives
one whole frame.
-/

namespace EthernetOta.System

open Firmware App

/-- The app takes what the reads gave for these acks, and no call throws,
whatever the flags are by then. -/
structure Heard (chunks : List (List Byte)) (acks : List Word) : Prop where
  caught : ∀ (a : Activity), ∀ c ∈ chunks, a.messageReceived c ≠ none
  taken : chunks.filterMap ackOf = acks.map Word.bytes

-- ---------------------------------------------------------------------------
-- The stream
-- ---------------------------------------------------------------------------

def ackStream (acks : List Word) : List Byte := (acks.map generateAckFrame).flatten

theorem length_generateAckFrame (ack : Word) : (generateAckFrame ack).length = 15 := by
  rw [generateAckFrame_eq]
  rfl

theorem length_ackStream (acks : List Word) : (ackStream acks).length = 15 * acks.length := by
  induction acks with
  | nil => rfl
  | cons ack acks ih =>
    simp only [ackStream, List.map_cons, List.flatten_cons, List.length_append] at ih ⊢
    rw [ih, length_generateAckFrame, List.length_cons]
    omega

theorem ackStream_at (h : (ackStream acks)[k]? = some b) : ∃ ack, (generateAckFrame ack)[k % 15]? = some b := by
  induction acks generalizing k with
  | nil => exact nomatch h
  | cons ack acks ih =>
    have hlen := length_generateAckFrame ack
    simp only [ackStream, List.map_cons, List.flatten_cons] at h
    by_cases hk : k < 15
    · rw [List.getElem?_append_left (by omega)] at h
      exact ⟨ack, by rwa [Nat.mod_eq_of_lt hk]⟩
    · rw [List.getElem?_append_right (by omega), hlen] at h
      rw [Nat.mod_eq_sub_mod (by omega)]
      exact ih h

theorem frame_fixed (ack : Word) (hi : i < 10 ∨ i = 14) :
    (generateAckFrame ack)[i]? = (ackMessage 0 0 0 0)[i]? := by
  rw [generateAckFrame_eq]
  rcases hi with hi | rfl
  · have hhead : ∀ l, (upgradePktHeader ++ (0x08 :: 0x03 :: l))[i]? = (upgradePktHeader ++ [0x08, 0x03])[i]? := by
      intro l
      rw [show upgradePktHeader ++ (0x08 :: 0x03 :: l) = (upgradePktHeader ++ [0x08, 0x03]) ++ l from rfl]
      exact List.getElem?_append_left hi
    exact (hhead _).trans (hhead _).symm
  · rfl

theorem ackStream_fixed (h : (ackStream acks)[k]? = some b) (hk : k % 15 < 10 ∨ k % 15 = 14) :
    (ackMessage 0 0 0 0)[k % 15]? = some b := by
  obtain ⟨ack, hb⟩ := ackStream_at h
  rwa [frame_fixed ack hk] at hb

-- ---------------------------------------------------------------------------
-- A read
-- ---------------------------------------------------------------------------

theorem matchesAt_ne (h : m[i]? = some c) (hne : c ≠ b) : Activity.matchesAt m i (b :: l) = some false := by
  rw [Activity.matchesAt, h]
  exact if_neg hne

theorem ackOf_some (h : ackOf m = some v) :
    m[8]? = some 0x08 ∧ m[9]? = some 0x03 ∧ v = (m.drop 10).take 4 := by
  unfold ackOf at h
  split at h
  case isFalse => exact nomatch h
  case isTrue hack =>
  obtain ⟨h8, h9⟩ := matchesAt_pair.mp hack.2
  exact ⟨h8, h9, (Option.some.inj h).symm⟩

theorem length_of_ackOf (h : ackOf m = some v) (hv : v.length = 4) : 14 ≤ m.length := by
  obtain ⟨-, -, rfl⟩ := ackOf_some h
  rw [List.length_take, List.length_drop] at hv
  omega

theorem received_reads {m : List Byte} (h : Activity.onCreate.messageReceived m ≠ none)
    (h0 : m[0]? = some b) (hb : b ≠ 0x74) :
    8 < m.length ∧ (m[8]? = some 0x08 → 9 < m.length ∧
      (m[9]? = some 0x03 → ackOf m = some ((m.drop 10).take 4))) := by
  have htime := matchesAt_ne (l := [0x69, 0x6d, 0x65]) h0 hb
  have hread : Activity.matchesAt m 8 [0x08, 0x03] ≠ none := by
    intro hnone
    rw [Activity.messageReceived, htime, hnone] at h
    exact h rfl
  refine ⟨Nat.lt_of_not_le fun hlen => ?_, fun h8 => ⟨Nat.lt_of_not_le fun hlen => ?_, fun h9 => ?_⟩⟩
  · rw [Activity.matchesAt, List.getElem?_eq_none hlen] at hread
    exact hread rfl
  · rw [Activity.matchesAt, h8] at hread
    simp only [Option.bind_eq_bind, Option.bind_some, ↓reduceIte, Activity.matchesAt,
      List.getElem?_eq_none hlen] at hread
    exact hread rfl
  · exact if_pos ⟨htime, matchesAt_pair.mpr ⟨h8, h9⟩⟩

-- ---------------------------------------------------------------------------
-- The reads
-- ---------------------------------------------------------------------------

theorem chunk_at {s : List Byte} (hcut : (m :: rest).flatten = s.drop o) (hi : i < m.length) :
    m[i]? = s[o + i]? := by
  rw [← List.getElem?_drop, ← hcut, List.flatten_cons, List.getElem?_append_left hi]

theorem chunk_fixed (hcut : (m :: rest).flatten = (ackStream acks).drop o) (hi : i < m.length)
    (hk : (o + i) % 15 = k) (fixed : k < 10 ∨ k = 14) : m[i]? = (ackMessage 0 0 0 0)[k]? := by
  have hat := List.getElem?_eq_getElem hi
  rw [chunk_at hcut hi] at hat
  rw [chunk_at hcut hi, hat, ← ackStream_fixed hat (hk ▸ fixed), hk]

theorem drop_chunk {s : List Byte} (hcut : (m :: rest).flatten = s.drop o) :
    rest.flatten = s.drop (o + m.length) := by
  rw [← List.drop_drop, ← hcut, List.flatten_cons, List.drop_left]

/-- Reads from `o` on give no more acks than there are frames left: a read that
is taken for an ack without being as long as one would start behind the first
byte of a frame, and those are not taken for acks. -/
theorem count_le (acks : List Word) (chunks : List (List Byte)) {o : Nat} (ho : o ≤ 15 * acks.length)
    (hcut : chunks.flatten = (ackStream acks).drop o)
    (hlen : ∀ m ∈ chunks, ∀ v, ackOf m = some v → v.length = 4) :
    15 * (chunks.filterMap ackOf).length + o ≤ 15 * acks.length := by
  induction chunks generalizing o with
  | nil => simpa using ho
  | cons m rest ih =>
    have hstream := length_ackStream acks
    have hfit : m.length ≤ 15 * acks.length - o := by
      rw [← hstream, ← List.length_drop, ← hcut, List.flatten_cons, List.length_append]
      omega
    have hrest := ih (by omega) (drop_chunk hcut) fun m' hc' => hlen m' (List.mem_cons_of_mem _ hc')
    cases hack : ackOf m with
    | none =>
      rw [List.filterMap_cons_none hack]
      omega
    | some v =>
      have h14 := length_of_ackOf hack (hlen m List.mem_cons_self v hack)
      rw [List.filterMap_cons_some hack, List.length_cons]
      by_cases hmod : o % 15 = 1
      · -- its byte 8 would be byte 9 of a frame
        have h9 : m[8]? = some 0x03 := chunk_fixed hcut (k := 9) (by omega) (by omega) (by decide)
        have h8 := (ackOf_some hack).1
        exact absurd (h8.symm.trans h9) (by decide)
      · omega

theorem Heard.length {chunks : List (List Byte)} (h : Heard chunks acks) :
    ∀ m ∈ chunks, ∀ v, ackOf m = some v → v.length = 4 := by
  intro m hc v hv
  have hmem := List.mem_filterMap.mpr ⟨m, hc, hv⟩
  rw [h.taken] at hmem
  obtain ⟨ack, -, rfl⟩ := List.mem_map.mp hmem
  rfl

theorem Heard.tail {ack : Word} (h : Heard (m :: rest) (ack :: acks)) (hack : ackOf m = some v) : Heard rest acks where
  caught a m' hc' := h.caught a m' (List.mem_cons_of_mem _ hc')
  taken := by
    have hacks := h.taken
    rw [List.filterMap_cons_some hack, List.map_cons] at hacks
    exact (List.cons.inj hacks).2

theorem first_read {m : List Byte} (hne : m ≠ []) (hcut : (m :: rest).flatten = ackStream acks)
    (h : Heard (m :: rest) acks) : ackOf m = some ((m.drop 10).take 4) ∧ 14 ≤ m.length := by
  have hcut : (m :: rest).flatten = (ackStream acks).drop 0 := hcut
  have hpos := List.length_pos_of_ne_nil hne
  have h0 : m[0]? = some 0x5B := chunk_fixed hcut (k := 0) hpos rfl (by decide)
  obtain ⟨hlen8, hread⟩ := received_reads (h.caught _ m List.mem_cons_self) h0 (by decide)
  have h8 : m[8]? = some 0x08 := chunk_fixed hcut (k := 8) hlen8 rfl (by decide)
  obtain ⟨hlen9, hread⟩ := hread h8
  have h9 : m[9]? = some 0x03 := chunk_fixed hcut (k := 9) hlen9 rfl (by decide)
  exact ⟨hread h9, length_of_ackOf (hread h9) (h.length m List.mem_cons_self _ (hread h9))⟩

/-- A read from the last byte of the first frame on throws, or is no ack and takes
so much that too little is left. -/
theorem no_late_read {ack : Word} {rest : List (List Byte)} (hne : ∀ m ∈ rest, m ≠ [])
    (hcut : rest.flatten = (ackStream (ack :: acks)).drop 14) (h : Heard rest acks) : False := by
  have hstream := length_ackStream (ack :: acks)
  rw [List.length_cons] at hstream
  cases rest with
  | nil =>
    have hlen := congrArg List.length hcut
    rw [List.length_drop, hstream, List.flatten_nil, List.length_nil] at hlen
    omega
  | cons m rest =>
    have hpos := List.length_pos_of_ne_nil (hne m List.mem_cons_self)
    have h0 : m[0]? = some 0x5D := chunk_fixed hcut (k := 14) hpos rfl (by decide)
    obtain ⟨hlen8, -⟩ := received_reads (h.caught _ m List.mem_cons_self) h0 (by decide)
    have h8 : m[8]? = some 0x45 := chunk_fixed hcut (k := 7) hlen8 rfl (by decide)
    have hnone : ackOf m = none := by
      cases hack : ackOf m with
      | none => rfl
      | some v => exact absurd ((ackOf_some hack).1.symm.trans h8) (by decide)
    have hlen := congrArg List.length hcut
    rw [List.length_drop, hstream, List.flatten_cons, List.length_append] at hlen
    have hcount := count_le (ack :: acks) rest (by rw [List.length_cons]; omega) (drop_chunk hcut)
      fun m' hc' => h.length m' (List.mem_cons_of_mem _ hc')
    have hacks := h.taken
    rw [List.filterMap_cons_none hnone] at hacks
    rw [hacks, List.length_map, List.length_cons] at hcount
    omega

theorem heard_frames {chunks : List (List Byte)} (hne : ∀ m ∈ chunks, m ≠ [])
    (hcut : chunks.flatten = ackStream acks) (h : Heard chunks acks) :
    chunks = acks.map generateAckFrame := by
  induction acks generalizing chunks with
  | nil =>
    cases chunks with
    | nil => rfl
    | cons m rest =>
      have hnil := List.append_eq_nil_iff.mp (List.flatten_cons ▸ hcut)
      exact absurd hnil.1 (hne m List.mem_cons_self)
  | cons ack acks ih =>
    cases chunks with
    | nil => exact nomatch h.taken
    | cons m rest =>
      have hstream := length_ackStream (ack :: acks)
      have hframe := length_generateAckFrame ack
      have hrest : ∀ m' ∈ rest, m' ≠ [] := fun m' hc' => hne m' (List.mem_cons_of_mem _ hc')
      obtain ⟨hack, h14⟩ := first_read (hne m List.mem_cons_self) hcut h
      have htail := h.tail hack
      have hdrop : rest.flatten = (ackStream (ack :: acks)).drop (0 + m.length) := drop_chunk hcut
      rw [Nat.zero_add] at hdrop
      have hlen := congrArg List.length hcut
      rw [List.flatten_cons, List.length_append, hstream] at hlen
      have hcount := count_le (ack :: acks) rest (by omega) hdrop htail.length
      rw [htail.taken, List.length_map, List.length_cons] at hcount
      -- there is room for the other acks behind 14 or 15 bytes
      rcases (show m.length = 14 ∨ m.length = 15 by omega) with hlen | hlen
      · rw [hlen] at hdrop
        exact (no_late_read hrest hdrop htail).elim
      · have hsplit : m ++ rest.flatten = generateAckFrame ack ++ ackStream acks := hcut
        obtain ⟨rfl, hflat⟩ := List.append_inj hsplit (hlen.trans hframe.symm)
        rw [List.map_cons, ih hrest hflat htail]

/-- However the stream of the device's acks is cut into reads, the app hears the
acks just when each read gives one of them. -/
theorem acks_heard (chunks : List (List Byte)) (acks : List Word) (hne : ∀ m ∈ chunks, m ≠ [])
    (hcut : chunks.flatten = ackStream acks) :
    Heard chunks acks ↔ chunks = acks.map generateAckFrame := by
  refine ⟨heard_frames hne hcut, ?_⟩
  rintro rfl
  refine ⟨fun a m hc => ?_, ?_⟩
  · obtain ⟨ack, -, rfl⟩ := List.mem_map.mp hc
    rw [generateAckFrame_eq, messageReceived_ackMessage]
    exact nofun
  · have hack : ackOf ∘ generateAckFrame = some ∘ Word.bytes := by
      funext ack
      rw [Function.comp, generateAckFrame_eq]
      exact ackOf_ackMessage _ _ _ _
    rw [List.filterMap_map, hack, List.filterMap_eq_map]

/-- Two acks, each in a read of its own. -/
theorem acks_heard_apart :
    Heard [generateAckFrame (uHtonl authenticatedPass), generateAckFrame (uHtonl appVersion)]
      [uHtonl authenticatedPass, uHtonl appVersion] :=
  (acks_heard [generateAckFrame (uHtonl authenticatedPass), generateAckFrame (uHtonl appVersion)]
    [uHtonl authenticatedPass, uHtonl appVersion] (by decide) rfl).mpr rfl

/-- Two acks in one read are taken for the first of them. -/
theorem acks_joined :
    [generateAckFrame (uHtonl authenticatedPass) ++ generateAckFrame (uHtonl appVersion)].flatten =
        ackStream [uHtonl authenticatedPass, uHtonl appVersion] ∧
      ¬ Heard [generateAckFrame (uHtonl authenticatedPass) ++ generateAckFrame (uHtonl appVersion)]
        [uHtonl authenticatedPass, uHtonl appVersion] := by
  refine ⟨rfl, fun h => ?_⟩
  have hone : [generateAckFrame (uHtonl authenticatedPass) ++ generateAckFrame (uHtonl appVersion)].filterMap
      ackOf = [Word.bytes (uHtonl authenticatedPass)] := by decide
  rw [h.taken] at hone
  exact absurd hone (by decide)

end EthernetOta.System
