import EthernetOta.App.Acks
import EthernetOta.App.Steps
import EthernetOta.Lib.Machine

/-!
# What may be sent was checked

`PreCheckVersion` leaves its result in `bFileFormat`, which nothing clears, and the
path it looked at in a field that the next choice overwrites. What is sent was
checked as long as no file without the marker is chosen after one with it.
-/

namespace EthernetOta.App

def IsChecked : GatewayEffect → Prop
  | .checked _ _ => True
  | _ => False

def IsOpened : GatewayEffect → Prop
  | .opened _ _ => True
  | _ => False

/-- The file that was opened last is one whose check, when it was chosen, found the marker. -/
def SourceChecked (effects : List GatewayEffect) : Prop :=
  ∃ path content before after, effects = before ++ .opened path content :: after ∧ (∀ e ∈ after, ¬ IsOpened e) ∧
    Since (· = .checked path true) IsChecked before

/-- Every block that an event sends is one of a checked file. -/
def SendsChecked (past : List GatewayEffect) (s : Gateway) (e : GatewayEvent) : Prop :=
  ∀ s' effects, s.step e = some (s', effects) → ∀ before after iv plaintext num,
    effects = before ++ .sent (.data iv plaintext num) :: after → SourceChecked (past ++ before)

/-- No file without the marker is chosen once a file with it has been. -/
def KeepsMarked (_ : List GatewayEffect) (s : Gateway) : GatewayEvent → Prop
  | .choose path fs => s.activity.bFileFormat = true → ∃ file, fs path = some file ∧ file.marked = true
  | _ => True

-- ---------------------------------------------------------------------------
-- Trails
-- ---------------------------------------------------------------------------

theorem SourceChecked.append (h : SourceChecked past) (ho : ∀ e ∈ effects, ¬ IsOpened e) :
    SourceChecked (past ++ effects) := by
  obtain ⟨path, content, before, after, rfl, hafter, hsince⟩ := h
  refine ⟨path, content, before, after ++ effects, by simp, ?_, hsince⟩
  intro e he
  rcases List.mem_append.mp he with he | he
  · exact hafter e he
  · exact ho e he

theorem SourceChecked.opened (h : Since (· = .checked path true) IsChecked past) (content : List Byte) :
    SourceChecked (past ++ [.opened path content]) :=
  ⟨path, content, past, [], rfl, fun _ he => absurd he List.not_mem_nil, h⟩

structure Trail (past : List GatewayEffect) (s : Gateway) : Prop where
  format : s.activity.bFileFormat = true → Since (· = .checked s.activity.mPath true) IsChecked past
  update : s.activity.bUpdate = true → s.activity.bFileFormat = true
  queued : .sendDataFrame ∈ s.queue → s.activity.bFileFormat = true
  file : s.activity.fis ≠ none → SourceChecked past

theorem trail_onCreate : Trail [] .onCreate where
  format h := by cases h
  update h := by cases h
  queued h := absurd h List.not_mem_nil
  file h := absurd rfl h

theorem Trail.kept (h : Trail past s) (hc : ∀ e ∈ effects, ¬ IsChecked e ∧ ¬ IsOpened e)
    (hformat : s'.activity.bFileFormat = s.activity.bFileFormat)
    (hpath : s'.activity.mPath = s.activity.mPath)
    (hupdate : s'.activity.bUpdate = true → s.activity.bFileFormat = true)
    (hqueue : .sendDataFrame ∈ s'.queue → s.activity.bFileFormat = true)
    (hfis : s'.activity.fis ≠ none → s.activity.fis ≠ none) : Trail (past ++ effects) s' where
  format ht := by
    rw [hpath]
    exact (h.format (hformat.symm.trans ht)).append fun e he => (hc e he).1
  update ht := hformat.trans (hupdate ht)
  queued ht := hformat.trans (hqueue ht)
  file hf := (h.file (hfis hf)).append fun e he => (hc e he).2

-- ---------------------------------------------------------------------------
-- Steps
-- ---------------------------------------------------------------------------

structure Good (past : List GatewayEffect) (s' : Gateway) (effects : List GatewayEffect) : Prop where
  trail : Trail (past ++ effects) s'
  sends : ∀ before after iv plaintext num, effects = before ++ .sent (.data iv plaintext num) :: after →
    SourceChecked (past ++ before)

theorem Good.of_quiet (h : Trail (past ++ effects) s')
    (hq : ∀ iv plaintext num, .sent (.data iv plaintext num) ∉ effects) : Good past s' effects where
  trail := h
  sends := by
    rintro before after iv plaintext num rfl
    exact absurd (List.mem_append_right _ List.mem_cons_self) (hq iv plaintext num)

theorem Good.idle (h : Trail past s) : Good past s [] :=
  .of_quiet (by rwa [List.append_nil]) fun _ _ _ => List.not_mem_nil

theorem Good.block (opening : List GatewayEffect) {block : List GatewayEffect} (h : Trail (past ++ opening ++ block) s') (hopening : ∀ iv plaintext num,
      .sent (.data iv plaintext num) ∉ opening)
    (hblock : block = [] ∨ SourceChecked (past ++ opening) ∧
      ∃ iv plaintext num, block = [.sent (.data iv plaintext num)]) : Good past s' (opening ++ block) := by
  refine ⟨by rwa [← List.append_assoc], ?_⟩
  intro before after iv plaintext num heq
  rcases hblock with rfl | ⟨hsource, iv', plaintext', num', rfl⟩
  · rw [List.append_nil] at heq
    exact absurd (heq ▸ List.mem_append_right _ List.mem_cons_self) (hopening iv plaintext num)
  · rcases List.append_eq_append_iff.mp heq with ⟨l, rfl, hl⟩ | ⟨l, rfl, hl⟩
    · cases l with
      | nil => rwa [List.append_nil]
      | cons x l => cases l <;> cases hl
    · cases l with
      | nil => rwa [List.append_nil] at hsource
      | cons x l =>
        obtain ⟨rfl, -⟩ := List.cons.inj hl
        exact absurd (List.mem_append_right _ List.mem_cons_self) (hopening iv plaintext num)

section
variable {past : List GatewayEffect} {s : Gateway}

theorem good_choose (h : Trail past s) {found : Bool} (path : Path)
    (hkeeps : s.activity.bFileFormat = true → found = true) :
    Good past { s with activity := { s.activity with mPath := path, bFileFormat := s.activity.bFileFormat || found } }
      [.checked path found] := by
  refine .of_quiet ?_ (by simp)
  cases found with
  | true =>
    rw [Bool.or_true]
    exact ⟨fun _ => .last rfl, fun _ => rfl, fun _ => rfl, fun hf => (h.file hf).append (by simp [IsOpened])⟩
  | false =>
    rw [Bool.or_false]
    exact ⟨fun hformat => absurd (hkeeps hformat) Bool.false_ne_true, h.update, h.queued,
      fun hf => (h.file hf).append (by simp [IsOpened])⟩

theorem good_received (h : Trail past s) (hr : s.activity.messageReceived m = some (a', posts)) :
    Good past { s with activity := a', queue := s.queue ++ posts } (posts.map .posted) := by
  obtain ⟨e, g, v, -, rfl⟩ := messageReceived_fields hr
  refine .of_quiet (h.kept ?_ rfl rfl h.update ?_ id) (by simp)
  · intro e he
    obtain ⟨msg, -, rfl⟩ := List.mem_map.mp he
    exact ⟨id, id⟩
  · intro hq
    rcases List.mem_append.mp hq with hq | hq
    · exact h.queued hq
    · exact h.update (messageReceived_sendDataFrame hr hq)

theorem block_quiet {block : List GatewayEffect}
    (h : block = [] ∨ ∃ iv plaintext num, block = [.sent (.data iv plaintext num)]) :
    ∀ e ∈ block, ¬ IsChecked e ∧ ¬ IsOpened e := by
  intro e he
  rcases h with rfl | ⟨iv, plaintext, num, rfl⟩
  · exact absurd he List.not_mem_nil
  · rw [List.mem_singleton.mp he]
    exact ⟨id, id⟩

theorem Trail.rest (h : Trail past s) (hq : s.queue = msg :: queue) :
    .sendDataFrame ∈ queue → s.activity.bFileFormat = true :=
  fun hm => h.queued (hq ▸ List.mem_cons_of_mem _ hm)

theorem good_sendDataFrame (h : Trail past s) {fs : Path → Option File} (hq : s.queue = .sendDataFrame :: queue)
    (hr : s.activity.handleMessage fs .sendDataFrame = some r) : Good past ⟨r.activity, queue, r.flag⟩ r.effects := by
  have hformat := h.queued (hq ▸ List.mem_cons_self)
  simp only [Activity.handleMessage] at hr
  split at hr
  · obtain rfl := Option.some.inj hr
    exact .of_quiet (h.kept (by simp) rfl rfl h.update (h.rest hq) id) (by simp)
  · rename_i file hfile
    obtain rfl := Option.some.inj hr
    obtain ⟨f, b, n, fis, effects, heq, -, heffects⟩ := Activity.sendBlock_cases { s.activity with
      fis := some file.reads
      baos := []
      mFilesize := if file.available % 1024 = 0 then file.available / 1024 else file.available / 1024 + 1 }
    have hnot := block_quiet (heffects.imp_right And.right)
    have hsince := h.format hformat
    have hsource := SourceChecked.opened hsince file.reads.flatten
    have htrail : Since (· = .checked s.activity.mPath true) IsChecked
        (past ++ [.opened s.activity.mPath file.reads.flatten] ++ effects) :=
      (hsince.snoc (x := .opened s.activity.mPath file.reads.flatten) id).append fun e he => (hnot e he).1
    simp only [heq]
    refine Good.block [.opened s.activity.mPath file.reads.flatten] ?_ (by simp) (heffects.imp_right fun hb => ⟨hsource, hb.2⟩)
    exact ⟨fun _ => htrail, fun _ => hformat, fun _ => hformat,
      fun _ => hsource.append fun e he => (hnot e he).2⟩

theorem good_continueData (h : Trail past s) {fs : Path → Option File} (hq : s.queue = .continueData :: queue)
    (hr : s.activity.handleMessage fs .continueData = some r) : Good past ⟨r.activity, queue, r.flag⟩ r.effects := by
  simp only [Activity.handleMessage] at hr
  split at hr
  · cases hr
  split at hr
  · split at hr
    · obtain rfl := Option.some.inj hr
      exact .of_quiet (h.kept (by simp) rfl rfl h.update (h.rest hq) id) (by simp)
    · obtain rfl := Option.some.inj hr
      exact .of_quiet (h.kept (by simp [IsChecked, IsOpened]) rfl rfl h.update (h.rest hq) fun hf => absurd rfl hf)
        (by simp)
  · obtain rfl := Option.some.inj hr
    obtain ⟨f, b, n, fis, effects, heq, hfis, heffects⟩ := s.activity.sendBlock_cases
    have hnot := block_quiet (heffects.imp_right And.right)
    have htrail : Trail (past ++ effects) ⟨{ s.activity with
        bFileReadOver := f, baos := b, frameSequence := n, fis := fis }, queue, none⟩ :=
      h.kept hnot rfl rfl h.update (h.rest hq) hfis
    simp only [heq]
    exact Good.block [] (by rwa [List.append_nil]) (fun _ _ _ => List.not_mem_nil)
      (heffects.imp_right fun hb => ⟨by rw [List.append_nil]; exact h.file hb.1, hb.2⟩)

theorem good_handle (h : Trail past s) {fs : Path → Option File} (hq : s.queue = msg :: queue)
    (hr : s.activity.handleMessage fs msg = some r) : Good past ⟨r.activity, queue, r.flag⟩ r.effects := by
  have hquiet : ∀ flag, r = ⟨s.activity, r.effects, flag⟩ →
      (∀ e ∈ r.effects, ¬ IsChecked e ∧ ¬ IsOpened e) →
      (∀ iv plaintext num, .sent (.data iv plaintext num) ∉ r.effects) →
      Good past ⟨r.activity, queue, r.flag⟩ r.effects := by
    intro flag hr hc hd
    have hactivity : r.activity = s.activity := congrArg Activity.Handled.activity hr
    rw [hactivity]
    exact .of_quiet (h.kept hc rfl rfl h.update (h.rest hq) id) hd
  cases msg with
  | sendDataFrame => exact good_sendDataFrame h hq hr
  | continueData => exact good_continueData h hq hr
  | sendGetVersion =>
    obtain rfl := Option.some.inj hr
    exact hquiet _ rfl (by simp [IsChecked, IsOpened]) (by simp)
  | transfer2NewFirmware =>
    obtain rfl := Option.some.inj hr
    exact hquiet _ rfl (by simp [IsChecked, IsOpened]) (by simp)
  | updateOver =>
    obtain rfl := Option.some.inj hr
    exact hquiet _ rfl (by simp) (by simp)
  | displayVersion =>
    obtain rfl := Option.some.inj hr
    exact hquiet _ rfl (by simp) (by simp)
  | connectionLost =>
    obtain rfl := Option.some.inj hr
    exact hquiet _ rfl (by simp) (by simp)

end

theorem good_step (h : Trail past s) (hc : KeepsMarked past s e) (hs : s.step e = some (s', effects)) :
    Good past s' effects := by
  cases step_cases hs with
  | idle => exact .idle h
  | update randomIv _ format =>
    exact .of_quiet (h.kept (by simp [IsChecked, IsOpened]) rfl rfl (fun _ => format) h.queued id) (by simp)
  | check randomIv =>
    refine .of_quiet (h.kept (by simp [IsChecked, IsOpened]) rfl rfl ?_ h.queued id) (by simp)
    intro hu
    cases hu
  | choose path fs found marked => exact good_choose h path fun format => marked.mpr (hc format)
  | handle fs msg queue r _ next handled => exact good_handle h next handled
  | flag f =>
    cases f <;> exact .of_quiet (h.kept (fun _ he => absurd he List.not_mem_nil) rfl rfl h.update h.queued id)
      fun _ _ _ => List.not_mem_nil
  | received m a posts hr => exact good_received h hr

/-- In a run in which no file without the marker is chosen after one with it, every
block that is sent is one of a file whose check found the marker. -/
theorem checked_image (events : List GatewayEvent)
    (hm : updateGateway.Meets KeepsMarked [] .onCreate events) :
    updateGateway.Meets SendsChecked [] .onCreate events := by
  refine Faulting.Meets.of_history (R := Trail) ?_ trail_onCreate hm
  intro past s e h hc
  exact ⟨fun s' effects hs => (good_step h hc hs).sends, fun s' effects hs => (good_step h hc hs).trail⟩

-- ---------------------------------------------------------------------------
-- Two runs
-- ---------------------------------------------------------------------------

def markedFile : File := ⟨[List.replicate 28 0 ++ [0x41, 0x54]], by decide⟩

def plainFile : File := ⟨[[0x00]], by decide⟩

def folder (path : Path) : Option File :=
  if path = "firmware" then some markedFile else if path = "other" then some plainFile else none

def passed : List Byte := header ++ [0x08, 0x03, 0xFF, 0xFF, 0x00, 0x00] ++ tail

/-- The same file chosen twice, and sent. -/
theorem checked_image_twice : updateGateway.Meets SendsChecked [] .onCreate [.choose "firmware" folder,
    .choose "firmware" folder, .update [], .received passed, .handle folder] := by
  refine checked_image _ ⟨fun h => ?_, fun _ _ _ => ⟨fun _ => ?_, fun _ _ _ => ⟨trivial, fun _ _ _ =>
    ⟨trivial, fun _ _ _ => ⟨trivial, fun _ _ _ => trivial⟩⟩⟩⟩⟩
  · cases h
  · exact ⟨markedFile, rfl, by decide⟩

/-- The check of the first file lets a second one through that has no marker. -/
theorem unchecked_sent : ¬ updateGateway.Meets SendsChecked [] .onCreate [.choose "firmware" folder,
    .choose "other" folder, .update [], .received passed, .handle folder] := by
  intro h
  have hrun : updateGateway.run .onCreate [.choose "firmware" folder, .choose "other" folder, .update [],
      .received passed] = some (⟨{ Activity.onCreate with bFileFormat := true, mPath := "other", bUpdate := true },
        [.sendDataFrame], none⟩, [.checked "firmware" true, .checked "other" false, .sent (.authentication []),
          .posted .sendDataFrame]) := rfl
  have hlast := Faulting.Meets.last (show updateGateway.Meets SendsChecked [] .onCreate ([.choose "firmware" folder,
    .choose "other" folder, .update [], .received passed] ++ [.handle folder]) from h) hrun
  obtain ⟨path, content, before, after, heq, -, l, x, l', rfl, rfl, -⟩ :=
    hlast _ _ rfl [.opened "other" [0x00]] [] _ _ _ rfl
  -- the file that was opened is not the one whose check found the marker
  have hopened : .opened path content ∈ l ++ .checked path true :: l' ++ .opened path content :: after := by simp
  have hchecked : .checked path true ∈ l ++ .checked path true :: l' ++ .opened path content :: after := by simp
  rw [← heq] at hopened hchecked
  simp only [List.nil_append, List.cons_append, List.mem_cons, reduceCtorEq, false_or, or_false,
    List.not_mem_nil, GatewayEffect.opened.injEq, GatewayEffect.checked.injEq, and_true, Bool.true_eq_false,
    and_false] at hopened hchecked
  exact absurd (hopened.1.symm.trans hchecked) (by decide)

end EthernetOta.App
