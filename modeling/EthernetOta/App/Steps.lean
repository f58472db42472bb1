import EthernetOta.App.UpdateGateway

/-!
# What handling a message can do

`SENDDATAFRAME` and `CONTINUEDATA` read a block and send it, unless the file is at
its end, was closed, or an earlier block was short or refused.
-/

namespace EthernetOta.App.Activity

variable {a : Activity} {c : List Byte} {rest : List (List Byte)}

def padded (c : List Byte) : List Byte := c ++ List.replicate (1024 - c.length) 0xff

theorem length_padded (h : c.length ≤ 1024) : (padded c).length = 1024 := by
  rw [padded, List.length_append, List.length_replicate, Nat.add_sub_cancel' h]

theorem sendBlock_none (h : a.fis = none) : a.sendBlock = (a, []) := by
  unfold sendBlock
  rw [h]

theorem sendBlock_nil (h : a.fis = some []) : a.sendBlock = (a, []) := by
  unfold sendBlock
  rw [h]

theorem sendBlock_stopped (h : a.fis = some (c :: rest)) (stop : (a.bDataAckError || a.bFileReadOver) = true) :
    a.sendBlock = ({ a with fis := some rest }, []) := by
  unfold sendBlock
  rw [h]
  exact if_pos stop

theorem sendBlock_sends (h : a.fis = some (c :: rest)) (stop : (a.bDataAckError || a.bFileReadOver) = false) :
    a.sendBlock = ({ a with
        fis := some rest
        bFileReadOver := decide (c.length < 1024)
        frameSequence := a.frameSequence + 1
        baos := a.baos ++ padded c },
      [.sent (.data a.randomIv (padded c) a.frameSequence)]) := by
  unfold sendBlock
  rw [h]
  exact if_neg (Bool.not_eq_true _ ▸ stop)

theorem sendBlock_cases (a : Activity) : ∃ f b n fis effects, a.sendBlock =
      ({ a with bFileReadOver := f, baos := b, frameSequence := n, fis := fis }, effects) ∧
    (fis ≠ none → a.fis ≠ none) ∧
    (effects = [] ∨ a.fis ≠ none ∧
      ∃ iv plaintext num, effects = [GatewayEffect.sent (.data iv plaintext num)]) := by
  rcases hfis : a.fis with _ | (_ | ⟨c, rest⟩)
  · exact ⟨a.bFileReadOver, a.baos, a.frameSequence, a.fis, [], sendBlock_none hfis, fun h => absurd hfis h,
      .inl rfl⟩
  · exact ⟨a.bFileReadOver, a.baos, a.frameSequence, a.fis, [], sendBlock_nil hfis, fun _ => Option.some_ne_none _,
      .inl rfl⟩
  · cases stop : a.bDataAckError || a.bFileReadOver with
    | true =>
      exact ⟨a.bFileReadOver, a.baos, a.frameSequence, some rest, [], sendBlock_stopped hfis stop,
        fun _ => Option.some_ne_none _, .inl rfl⟩
    | false =>
      exact ⟨_, _, _, some rest, _, sendBlock_sends hfis stop, fun _ => Option.some_ne_none _,
        .inr ⟨Option.some_ne_none _, _, _, _, rfl⟩⟩

-- ---------------------------------------------------------------------------
-- handleMessage
-- ---------------------------------------------------------------------------

def filesize (f : File) : Nat :=
  if f.available % 1024 = 0 then f.available / 1024 else f.available / 1024 + 1

variable {fs : Path → Option File} {file : File}

theorem filesize_ne_zero (h : file.reads ≠ []) : filesize file ≠ 0 := by
  obtain ⟨c, rest, hreads⟩ := List.exists_cons_of_ne_nil h
  have hc : 0 < c.length := (file.bounded c (hreads ▸ List.mem_cons_self)).1
  have havailable : 0 < file.available := by
    rw [File.available, hreads, List.flatten_cons, List.length_append]
    exact Nat.add_pos_left hc _
  unfold filesize
  split
  · omega
  · exact Nat.succ_ne_zero _

theorem handle_sendDataFrame (h : fs a.mPath = some file) : a.handleMessage fs .sendDataFrame =
    some ⟨({ a with fis := some file.reads, baos := [], mFilesize := filesize file }.sendBlock).1,
      .opened a.mPath file.reads.flatten ::
        ({ a with fis := some file.reads, baos := [], mFilesize := filesize file }.sendBlock).2,
      some .dataSend⟩ := by
  rw [handleMessage, h]
  rfl

theorem handle_first (h : fs a.mPath = some file) (hreads : file.reads = c :: rest)
    (stop : (a.bDataAckError || a.bFileReadOver) = false) :
    a.handleMessage fs .sendDataFrame = some ⟨{ a with
        mFilesize := filesize file
        fis := some rest
        bFileReadOver := decide (c.length < 1024)
        frameSequence := a.frameSequence + 1
        baos := padded c },
      [.opened a.mPath file.reads.flatten, .sent (.data a.randomIv (padded c) a.frameSequence)],
      some .dataSend⟩ := by
  have hfis : { a with fis := some file.reads, baos := [], mFilesize := filesize file }.fis = some (c :: rest) :=
    congrArg some hreads
  rw [handle_sendDataFrame h, sendBlock_sends hfis stop]
  rfl

theorem handle_continueData (hsize : a.mFilesize ≠ 0) (finished : a.bFileReadOver = false) :
    a.handleMessage fs .continueData = some ⟨a.sendBlock.1, a.sendBlock.2, none⟩ := by
  simp [handleMessage, hsize, finished]

theorem handle_over (hsize : a.mFilesize ≠ 0) (finished : a.bFileReadOver = true) (err : a.bDataAckError = false) :
    a.handleMessage fs .continueData = some ⟨{ a with
        mFileCRC := Crc.crc32 a.baos
        fis := none
        bDataSend := false }, [.sent (.command .getCRC)], some .commandSend⟩ := by
  simp [handleMessage, hsize, finished, err]

end EthernetOta.App.Activity

namespace EthernetOta.App

/-- What a step of the app can do. -/
inductive Stepped (s : Gateway) : GatewayEvent → Gateway → List GatewayEffect → Prop
  | idle (e : GatewayEvent)
    (idle : ∀ fs msg queue, e = .handle fs → s.pending = none → s.queue ≠ msg :: queue) : Stepped s e s []
  | update (randomIv : List Byte) (pending : s.pending = none) (format : s.activity.bFileFormat = true) :
    Stepped s (.update randomIv) { s with activity := { s.activity with bUpdate := true, randomIv } }
      [.sent (.authentication randomIv)]
  | check (randomIv : List Byte) (pending : s.pending = none) :
    Stepped s (.check randomIv) { s with activity := { s.activity with bUpdate := false, randomIv } }
      [.sent (.authentication randomIv)]
  | choose (filePath : Path) (fs : Path → Option File) (found : Bool)
    (marked : found = true ↔ ∃ file, fs filePath = some file ∧ file.marked = true) :
    Stepped s (.choose filePath fs)
      { s with activity := { s.activity with mPath := filePath, bFileFormat := s.activity.bFileFormat || found } }
      [.checked filePath found]
  | handle (fs : Path → Option File) (msg : Msg) (queue : List Msg) (r : Activity.Handled) (pending : s.pending = none)
    (next : s.queue = msg :: queue) (handled : s.activity.handleMessage fs msg = some r) :
    Stepped s (.handle fs) ⟨r.activity, queue, r.flag⟩ r.effects
  | flag (f : Flag) (pending : s.pending = some f) :
    Stepped s .flag { s with activity := s.activity.set f, pending := none } []
  | received (message : List Byte) (a : Activity) (posts : List Msg)
    (received : s.activity.messageReceived message = some (a, posts)) :
    Stepped s (.received message) { s with activity := a, queue := s.queue ++ posts } (posts.map .posted)

theorem onActivityResult_found (a : Activity) (filePath : Path) (fs : Path → Option File) : ∃ found,
    (found = true ↔ ∃ file, fs filePath = some file ∧ file.marked = true) ∧
    a.onActivityResult filePath fs =
      ({ a with mPath := filePath, bFileFormat := a.bFileFormat || found }, [.checked filePath found]) := by
  simp only [Activity.onActivityResult, Activity.preCheckVersion]
  cases hfile : fs filePath with
  | none => exact ⟨false, by simp, by simp⟩
  | some file =>
    cases hmarked : file.marked with
    | true => exact ⟨true, by simp [hmarked], by simp [hmarked]⟩
    | false => exact ⟨false, by simp [hmarked], by simp [hmarked]⟩

theorem step_cases {s : Gateway} (h : s.step e = some (s', effects)) : Stepped s e s' effects := by
  cases e with
  | update randomIv =>
    simp only [Gateway.step] at h
    split at h
    · obtain ⟨rfl, rfl⟩ := Prod.mk.inj (Option.some.inj h)
      exact .idle _ fun _ _ _ he => by cases he
    · rename_i hpending
      cases hformat : s.activity.bFileFormat with
      | true =>
        simp only [Activity.onClickUpdate, hformat, ↓reduceIte] at h
        obtain ⟨rfl, rfl⟩ := Prod.mk.inj (Option.some.inj h)
        exact hformat ▸ .update randomIv (by simpa using hpending) hformat
      | false =>
        simp only [Activity.onClickUpdate, hformat, Bool.false_eq_true, ↓reduceIte] at h
        obtain ⟨rfl, rfl⟩ := Prod.mk.inj (Option.some.inj h)
        exact .idle _ fun _ _ _ he => by cases he
  | check randomIv =>
    simp only [Gateway.step] at h
    split at h
    · obtain ⟨rfl, rfl⟩ := Prod.mk.inj (Option.some.inj h)
      exact .idle _ fun _ _ _ he => by cases he
    · rename_i hpending
      obtain ⟨rfl, rfl⟩ := Prod.mk.inj (Option.some.inj h)
      exact .check randomIv (by simpa using hpending)
  | choose filePath fs =>
    simp only [Gateway.step] at h
    split at h
    · obtain ⟨rfl, rfl⟩ := Prod.mk.inj (Option.some.inj h)
      exact .idle _ fun _ _ _ he => by cases he
    · obtain ⟨found, marked, hresult⟩ := onActivityResult_found s.activity filePath fs
      rw [hresult] at h
      obtain ⟨rfl, rfl⟩ := Prod.mk.inj (Option.some.inj h)
      exact .choose filePath fs found marked
  | handle fs =>
    simp only [Gateway.step] at h
    split at h
    · rename_i msg queue hpending hqueue
      obtain ⟨r, hr, h⟩ := Option.bind_eq_some_iff.mp h
      obtain ⟨rfl, rfl⟩ := Prod.mk.inj (Option.some.inj h)
      exact .handle fs msg queue r hpending hqueue hr
    · rename_i hidle
      obtain ⟨rfl, rfl⟩ := Prod.mk.inj (Option.some.inj h)
      exact .idle _ fun _ msg queue _ => hidle msg queue
  | flag =>
    simp only [Gateway.step] at h
    split at h
    · obtain ⟨rfl, rfl⟩ := Prod.mk.inj (Option.some.inj h)
      exact .idle _ fun _ _ _ he => by cases he
    · rename_i f hpending
      obtain ⟨rfl, rfl⟩ := Prod.mk.inj (Option.some.inj h)
      exact .flag f hpending
  | received message =>
    obtain ⟨⟨a, posts⟩, hr, h⟩ := Option.bind_eq_some_iff.mp h
    obtain ⟨rfl, rfl⟩ := Prod.mk.inj (Option.some.inj h)
    exact .received message a posts hr

end EthernetOta.App
