import EthernetOta.System.Complete

/-!
# One session after another

Update and Check are pressed at any time, files are chosen, acks come. What the
activity keeps of one session (the number of the next frame, that the file is read to
its end, that a block was refused, that a command was sent) is still there in the next
one.
-/

namespace EthernetOta.System

open Firmware App
open Activity (padded)

-- ---------------------------------------------------------------------------
-- What has happened
-- ---------------------------------------------------------------------------

def LinkEffect.isData : LinkEffect → Bool
  | .app (.sent (.data _ _ _)) => true
  | _ => false

def LinkEffect.content : LinkEffect → Option (List Byte)
  | .app (.opened _ content) => some content
  | _ => none

def dataSent (past : List LinkEffect) : Nat := past.countP LinkEffect.isData

/-- The content of the file that is sent, the one that was opened last. -/
def beingSent (past : List LinkEffect) : Option (List Byte) := (past.filterMap LinkEffect.content).getLast?

def fileBlock (content : List Byte) (k : Nat) : List Byte := padded ((content.drop (1024 * k)).take 1024)

theorem dataSent_append (past effects : List LinkEffect) : dataSent (past ++ effects) = dataSent past + dataSent effects :=
  List.countP_append

theorem dataSent_data (iv block : List Byte) (num : Half) (after : List LinkEffect) :
    dataSent (.app (.sent (.data iv block num)) :: after) = dataSent after + 1 :=
  List.countP_cons_of_pos rfl

theorem beingSent_append {effects : List LinkEffect} (h : effects.filterMap LinkEffect.content = []) :
    beingSent (past ++ effects) = beingSent past := by
  rw [beingSent, List.filterMap_append, h, List.append_nil, beingSent]

-- ---------------------------------------------------------------------------
-- Sessions
-- ---------------------------------------------------------------------------

/-- A data frame that is sent after an authentication passed, with no authentication
frame since: it has the number of the data frames since, and the block of that number. -/
def InOrder (past : List LinkEffect) (block : List Byte) (num : Half) : Prop :=
  ∀ before iv out since, past = before ++ .taken (.authentication iv) out :: since → out.ret = success →
    (∀ iv', .app (.sent (.authentication iv')) ∉ since) →
    num.toNat = dataSent since ∧ ∃ content, beingSent past = some content ∧ block = fileBlock content (dataSent since)

/-- When an authentication for an update has passed, the first block is asked for, and
when it is asked for it is sent. -/
def FirstBlock (s : Link) (effects : List LinkEffect) : LinkEvent → Prop
  | .reply => ∀ iv out replies, s.replies = ⟨.authentication iv, out⟩ :: replies → out.ret = success →
      s.gateway.activity.bUpdate = true → .app (.posted .sendDataFrame) ∈ effects
  | .handle fs => ∀ queue file, s.gateway.pending = none → s.gateway.queue = .sendDataFrame :: queue →
      fs s.gateway.activity.mPath = some file → file.reads ≠ [] →
      ∃ iv block num, .app (.sent (.data iv block num)) ∈ effects
  | _ => True

def Ordered (past effects : List LinkEffect) : Prop :=
  ∀ before iv block num after, effects = before ++ .app (.sent (.data iv block num)) :: after →
    InOrder (past ++ before) block num

/-- A step that begins or continues a session as if it were the first one. -/
def Afresh (lib : GcmLib) (cipher : Cipher) (past : List LinkEffect) (s : Link) (e : LinkEvent) : Prop :=
  ∀ s' effects, s.step lib cipher e = some (s', effects) → Ordered past effects ∧ FirstBlock s effects e

structure HalfSent (a : Activity) : Prop where
  err : a.bDataAckError = false
  finished : a.bFileReadOver = false
  fis : ∃ c rest, a.fis = some (c :: rest)

/-- The next read fills the buffer, or it is the last one. -/
def Fills (reads : List (List Byte)) : Prop := ∀ c rest, reads = c :: rest → rest ≠ [] → c.length = 1024

/-- No block was sent, short or refused yet when a file is opened. -/
def Opens (past : List LinkEffect) (fs : Path → Option File) (a : Activity) : Prop :=
  ∀ file, fs a.mPath = some file → file.reads ≠ [] →
    dataSent past = 0 ∧ a.bFileReadOver = false ∧ a.bDataAckError = false ∧ Fills file.reads

/-- The next block has a number of 16 bits. -/
def Continues (past : List LinkEffect) (a : Activity) : Prop :=
  HalfSent a → dataSent past < 65536 ∧ ∀ reads, a.fis = some reads → Fills reads

/-- Nor is a file half sent when an authentication passes, and none passes for an update
once a command was sent. -/
def Unspent (past : List LinkEffect) (s : Link) : LinkEvent → Prop
  | .reply => ∀ iv out replies, s.replies = ⟨.authentication iv, out⟩ :: replies → out.ret = success →
      ¬ HalfSent s.gateway.activity ∧
        (s.gateway.activity.bUpdate = true → s.gateway.activity.bCommandSend = false)
  | .handle fs => s.gateway.pending = none → ∀ queue,
      (s.gateway.queue = .sendDataFrame :: queue → Opens past fs s.gateway.activity) ∧
      (s.gateway.queue = .continueData :: queue → Continues past s.gateway.activity)
  | _ => True

-- ---------------------------------------------------------------------------
-- Blocks
-- ---------------------------------------------------------------------------

section
variable {file : File} {full rest : List (List Byte)} {c : List Byte}

theorem fileBlock_next (reads : file.reads = full ++ c :: rest) (whole : ∀ b ∈ full, b.length = 1024)
    (fills : Fills (c :: rest)) : fileBlock file.reads.flatten full.length = padded c := by
  have hlen : full.flatten.length = 1024 * full.length := length_flatten_whole whole
  have hc : c.length ≤ 1024 := by
    refine (file.bounded c ?_).2
    rw [reads]
    exact List.mem_append_right _ List.mem_cons_self
  have htake : (c ++ rest.flatten).take 1024 = c := by
    cases rest with
    | nil => rw [List.flatten_nil, List.append_nil, List.take_of_length_le hc]
    | cons d rest => exact List.take_left' (fills c (d :: rest) rfl (List.cons_ne_nil _ _))
  rw [fileBlock, reads, List.flatten_append, List.flatten_cons, List.drop_left' hlen, htake]

def PassedFirst (past : List LinkEffect) : Prop :=
  ∀ before iv out since, past = before ++ .taken (.authentication iv) out :: since → out.ret = success →
    dataSent before = 0

theorem PassedFirst.of_none (h : dataSent past = 0) : PassedFirst past := by
  rintro before iv out since rfl -
  rw [dataSent_append] at h
  exact Nat.eq_zero_of_add_eq_zero_right h

theorem PassedFirst.append {effects : List LinkEffect} (h : PassedFirst past)
    (none : ∀ iv out, .taken (.authentication iv) out ∈ effects → out.ret ≠ success) : PassedFirst (past ++ effects) := by
  intro before iv out since heq ret
  rcases List.append_eq_append_iff.mp heq with ⟨l, -, rfl⟩ | ⟨l, hpast, hsince⟩
  · exact absurd ret (none iv out (List.mem_append_right _ List.mem_cons_self))
  · cases l with
    | nil =>
      obtain rfl : .taken (.authentication iv) out :: since = effects := hsince
      exact absurd ret (none iv out List.mem_cons_self)
    | cons e l =>
      obtain ⟨rfl, -⟩ := List.cons.inj hsince
      exact h before iv out l hpast ret

/-- The next block of a file whose first block was sent after every authentication. -/
theorem inOrder {past : List LinkEffect} (reads : file.reads = full ++ c :: rest)
    (whole : ∀ b ∈ full, b.length = 1024) (fills : Fills (c :: rest)) (count : dataSent past = full.length)
    (small : dataSent past < 65536) (content : beingSent past = some file.reads.flatten) (passed : PassedFirst past) :
    InOrder past (padded c) (BitVec.ofNat 16 full.length) := by
  rintro before iv out since rfl ret -
  have hnone := passed before iv out since rfl ret
  have hsince : dataSent since = full.length := by
    rw [← count, dataSent_append, hnone, Nat.zero_add]
    rfl
  have hnum : (BitVec.ofNat 16 full.length).toNat = full.length := by
    rw [BitVec.toNat_ofNat, Nat.mod_eq_of_lt (count ▸ small)]
  rw [hsince]
  exact ⟨hnum, _, content, (fileBlock_next reads whole fills).symm⟩

end

-- ---------------------------------------------------------------------------
-- What the activity keeps
-- ---------------------------------------------------------------------------

inductive Told (past : List LinkEffect) (a : Activity) : Prop
  | fresh (none : dataSent past = 0) (seq : a.frameSequence = 0) (fis : ∀ c rest, a.fis ≠ some (c :: rest))
  | sending (file : File) (full rest : List (List Byte)) (reads : file.reads = full ++ rest)
    (whole : rest ≠ [] → ∀ b ∈ full, b.length = 1024) (some : full ≠ []) (count : dataSent past = full.length)
    (seq : a.frameSequence = BitVec.ofNat 16 full.length)
    (half : HalfSent a → a.fis = .some rest ∧ beingSent past = .some file.reads.flatten ∧ PassedFirst past)

structure Kept (a a' : Activity) : Prop where
  seq : a'.frameSequence = a.frameSequence
  finished : a'.bFileReadOver = a.bFileReadOver
  fis : a'.fis = a.fis
  err : a.bDataAckError = true → a'.bDataAckError = true

theorem Kept.refl (a : Activity) : Kept a a := ⟨rfl, rfl, rfl, id⟩

theorem Kept.half {a a' : Activity} (u : Kept a a') (h : HalfSent a') : HalfSent a := by
  refine ⟨?_, u.finished.symm.trans h.finished, u.fis ▸ h.fis⟩
  cases herr : a.bDataAckError with
  | false => rfl
  | true => exact absurd ((u.err herr).symm.trans h.err) (by decide)

section
variable {past effects : List LinkEffect} {a a' : Activity}

theorem Told.keep (h : Told past a) (seq : a'.frameSequence = a.frameSequence) (data : dataSent effects = 0)
    (fis : ∀ c rest, a'.fis = some (c :: rest) → ∃ c rest, a.fis = some (c :: rest))
    (half : HalfSent a' → HalfSent a ∧ a'.fis = a.fis ∧ effects.filterMap LinkEffect.content = [] ∧
      ∀ iv out, .taken (.authentication iv) out ∈ effects → out.ret ≠ success) : Told (past ++ effects) a' := by
  have hcount : dataSent (past ++ effects) = dataSent past := by rw [dataSent_append, data, Nat.add_zero]
  cases h with
  | fresh none seq' fis' =>
    refine .fresh (hcount.trans none) (seq.trans seq') fun c rest h => ?_
    obtain ⟨c', rest', h'⟩ := fis c rest h
    exact fis' c' rest' h'
  | sending file full rest reads whole some count seq' half' =>
    refine .sending file full rest reads whole some (hcount.trans count) (seq.trans seq') fun h => ?_
    obtain ⟨hhalf, hfis, hcontent, hpass⟩ := half h
    obtain ⟨hrest, hsent, passed⟩ := half' hhalf
    exact ⟨hfis.trans hrest, (beingSent_append hcontent).trans hsent, passed.append hpass⟩

theorem Told.of_kept (h : Told past a) (u : Kept a a') (data : dataSent effects = 0)
    (content : effects.filterMap LinkEffect.content = [])
    (pass : HalfSent a → ∀ iv out, .taken (.authentication iv) out ∈ effects → out.ret ≠ success) :
    Told (past ++ effects) a' :=
  h.keep u.seq data (fun c rest hfis => ⟨c, rest, u.fis.symm.trans hfis⟩) fun hhalf =>
    ⟨u.half hhalf, u.fis, content, pass (u.half hhalf)⟩

theorem Told.next (h : Told past a) (hfis : a.fis = some (c :: rest)) (half : HalfSent a) (continues : Continues past a) :
    InOrder past (padded c) a.frameSequence ∧
      Told (past ++ [.app (.sent (.data a.randomIv (padded c) a.frameSequence))]) { a with
        fis := some rest
        bFileReadOver := decide (c.length < 1024)
        frameSequence := a.frameSequence + 1
        baos := a.baos ++ padded c } := by
  obtain ⟨small, fills⟩ := continues half
  cases h with
  | fresh none seq fis => exact absurd hfis (fis c rest)
  | sending file full rest' reads whole some count seq half' =>
    obtain ⟨hrest, content, passed⟩ := half' half
    obtain rfl : c :: rest = rest' := Option.some.inj (hfis.symm.trans hrest)
    have hwhole := whole (List.cons_ne_nil c rest)
    refine ⟨seq ▸ inOrder reads hwhole (fills _ hfis) count small content passed, ?_⟩
    refine .sending file (full ++ [c]) rest (by rw [reads, List.append_assoc]; rfl) (fun hne => ?_) (by simp) ?_ ?_ ?_
    · intro b hb
      rcases List.mem_append.mp hb with hb | hb
      · exact hwhole b hb
      · obtain rfl := List.mem_singleton.mp hb
        exact fills _ hfis b rest rfl hne
    · rw [dataSent_append, count, List.length_append]
      rfl
    · rw [List.length_append, List.length_singleton, BitVec.ofNat_add, ← seq]
      rfl
    · exact fun _ => ⟨rfl, (beingSent_append rfl).trans content, passed.append (by simp)⟩

theorem Told.first {file : File} (h : Told past a) (reads : file.reads = c :: rest) (fills : Fills file.reads)
    (path : Path) (none : dataSent past = 0) :
    InOrder (past ++ [.app (.opened path file.reads.flatten)]) (padded c) a.frameSequence ∧
      Told (past ++ [.app (.opened path file.reads.flatten), .app (.sent (.data a.randomIv (padded c) a.frameSequence))])
        { a with
          mFilesize := Activity.filesize file
          fis := some rest
          bFileReadOver := decide (c.length < 1024)
          frameSequence := a.frameSequence + 1
          baos := padded c } := by
  have seq : a.frameSequence = 0 := by
    cases h with
    | fresh _ seq => exact seq
    | sending _ full _ _ _ some count => exact absurd (List.eq_nil_of_length_eq_zero (count.symm.trans none)) some
  have hnone : dataSent (past ++ [.app (.opened path file.reads.flatten)]) = 0 := by
    rw [dataSent_append, none]
    rfl
  have content : beingSent (past ++ [.app (.opened path file.reads.flatten)]) = some file.reads.flatten := by
    rw [beingSent, List.filterMap_append]
    exact List.getLast?_concat
  have split : file.reads = [] ++ c :: rest := reads
  have order := inOrder split (fun _ h => absurd h List.not_mem_nil) (reads ▸ fills) hnone (hnone ▸ by decide) content
    (.of_none hnone)
  refine ⟨seq ▸ order, .sending file [c] rest reads (fun hne b hb => ?_) (List.cons_ne_nil _ _) ?_ ?_
    fun _ => ⟨rfl, ?_, ?_⟩⟩
  · obtain rfl := List.mem_singleton.mp hb
    exact fills b rest reads hne
  · rw [dataSent_append, none]
    rfl
  · rw [seq]
    rfl
  · rw [List.append_cons, beingSent_append rfl, content]
  · rw [List.append_cons]
    exact (PassedFirst.of_none hnone).append (by simp)

-- ---------------------------------------------------------------------------
-- Messages
-- ---------------------------------------------------------------------------

theorem Ordered.of_none (h : dataSent effects = 0) : Ordered past effects := by
  rintro before iv block num after rfl
  rw [dataSent_append, dataSent_data] at h
  exact absurd (Nat.eq_zero_of_add_eq_zero_left h) (Nat.succ_ne_zero _)

theorem Ordered.last {l : List LinkEffect} (none : dataSent l = 0) (h : InOrder (past ++ l) block num) :
    Ordered past (l ++ [.app (.sent (.data iv block num))]) := by
  intro before iv' block' num' after heq
  rcases List.append_eq_append_iff.mp heq with ⟨m, rfl, hlast⟩ | ⟨m, rfl, hlast⟩
  · cases m with
    | nil =>
      obtain ⟨hdata, -⟩ := List.cons.inj hlast
      cases hdata
      rwa [List.append_nil]
    | cons e m => exact absurd (List.cons.inj hlast).2.symm (List.append_ne_nil_of_right_ne_nil m (List.cons_ne_nil _ _))
  · cases m with
    | nil =>
      obtain ⟨hdata, -⟩ := List.cons.inj hlast
      cases hdata
      rwa [List.append_nil] at h
    | cons e m =>
      obtain ⟨rfl, -⟩ := List.cons.inj hlast
      rw [dataSent_append, dataSent_data] at none
      exact absurd (Nat.eq_zero_of_add_eq_zero_left none) (Nat.succ_ne_zero _)

theorem told_continueData {fs : Path → Option File} (h : Told past a) (continues : Continues past a)
    (hr : a.handleMessage fs .continueData = some r) :
    Ordered past (r.effects.map .app) ∧ Told (past ++ r.effects.map .app) r.activity := by
  have hsize : a.mFilesize ≠ 0 := by
    intro hzero
    simp [Activity.handleMessage, hzero] at hr
  cases finished : a.bFileReadOver with
  | true =>
    cases err : a.bDataAckError with
    | true =>
      simp only [Activity.handleMessage, hsize, finished, err, ↓reduceIte] at hr
      obtain rfl := Option.some.inj hr
      exact ⟨.of_none rfl, h.of_kept ⟨rfl, finished.symm, rfl, fun _ => rfl⟩ rfl rfl (by simp)⟩
    | false =>
      rw [Activity.handle_over hsize finished err] at hr
      obtain rfl := Option.some.inj hr
      refine ⟨.of_none rfl, h.keep rfl rfl (fun c rest hfis => by cases hfis) fun half => ?_⟩
      obtain ⟨c, rest, hfis⟩ := half.fis
      cases hfis
  | false =>
    rw [Activity.handle_continueData hsize finished] at hr
    obtain rfl := Option.some.inj hr
    rcases hfis : a.fis with _ | (_ | ⟨c, rest⟩)
    · rw [Activity.sendBlock_none hfis]
      exact ⟨.of_none rfl, h.of_kept (.refl a) rfl rfl (by simp)⟩
    · rw [Activity.sendBlock_nil hfis]
      exact ⟨.of_none rfl, h.of_kept (.refl a) rfl rfl (by simp)⟩
    · cases err : a.bDataAckError with
      | true =>
        rw [Activity.sendBlock_stopped hfis (by simp [err])]
        refine ⟨.of_none rfl, h.keep rfl rfl (fun _ _ _ => ⟨c, rest, hfis⟩) fun half => ?_⟩
        exact absurd (err.symm.trans half.err) (by decide)
      | false =>
        rw [Activity.sendBlock_sends hfis (by simp [err, finished])]
        obtain ⟨order, told⟩ := h.next hfis ⟨err, finished, c, rest, hfis⟩ continues
        rw [← List.append_nil past] at order
        exact ⟨.last rfl order, told⟩

theorem told_sendDataFrame {fs : Path → Option File} (h : Told past a) (opens : Opens past fs a)
    (hr : a.handleMessage fs .sendDataFrame = some r) :
    (Ordered past (r.effects.map .app) ∧ Told (past ++ r.effects.map .app) r.activity) ∧
      ∀ file, fs a.mPath = some file → file.reads ≠ [] →
        ∃ iv block num, .app (.sent (.data iv block num)) ∈ r.effects.map LinkEffect.app := by
  cases hfile : fs a.mPath with
  | none =>
    simp only [Activity.handleMessage, hfile] at hr
    obtain rfl := Option.some.inj hr
    exact ⟨⟨.of_none rfl, h.of_kept (.refl a) rfl rfl (by simp)⟩, fun _ h => absurd h.symm (Option.some_ne_none _)⟩
  | some file =>
    cases hreads : file.reads with
    | nil =>
      rw [Activity.handle_sendDataFrame hfile, Activity.sendBlock_nil (congrArg some hreads)] at hr
      obtain rfl := Option.some.inj hr
      refine ⟨⟨.of_none rfl, h.keep rfl rfl (fun c rest hfis => ?_) fun half => ?_⟩, ?_⟩
      · exact absurd (hreads.symm.trans (Option.some.inj hfis)).symm (List.cons_ne_nil _ _)
      · obtain ⟨c, rest, hfis⟩ := half.fis
        exact absurd (hreads.symm.trans (Option.some.inj hfis)).symm (List.cons_ne_nil _ _)
      · intro file' hfile' hne
        obtain rfl := Option.some.inj hfile'
        exact absurd hreads hne
    | cons c rest =>
      have hne : file.reads ≠ [] := hreads ▸ List.cons_ne_nil c rest
      obtain ⟨none, finished, err, fills⟩ := opens file hfile hne
      rw [Activity.handle_first hfile hreads (by simp [finished, err])] at hr
      obtain rfl := Option.some.inj hr
      obtain ⟨order, told⟩ := h.first hreads fills a.mPath none
      refine ⟨⟨.last (l := [_]) rfl order, told⟩, fun _ _ _ => ⟨_, _, _, List.mem_cons_of_mem _ List.mem_cons_self⟩⟩

end

-- ---------------------------------------------------------------------------
-- Steps
-- ---------------------------------------------------------------------------

theorem posted_none (posts : List Msg) :
    dataSent (posts.map fun msg => .app (.posted msg)) = 0 ∧
      (posts.map fun msg => LinkEffect.app (.posted msg)).filterMap LinkEffect.content = [] := by
  induction posts with
  | nil => exact ⟨rfl, rfl⟩
  | cons msg posts ih =>
    obtain ⟨hdata, hcontent⟩ := ih
    exact ⟨(List.countP_cons_of_neg Bool.false_ne_true).trans hdata, hcontent⟩

structure Aside (e : LinkEvent) (s s' : Link) (effects : List LinkEffect) : Prop where
  kept : Kept s.gateway.activity s'.gateway.activity
  data : dataSent effects = 0
  content : effects.filterMap LinkEffect.content = []
  taken : ∀ iv out, .taken (.authentication iv) out ∈ effects →
    e = .reply ∧ ∃ replies, s.replies = ⟨.authentication iv, out⟩ :: replies

section
variable {lib : GcmLib} {cipher : Cipher} {past : List LinkEffect} {s s' : Link}

theorem aside_app {ge : GatewayEvent} (hs : s.app ge = some (s', effects)) (he : ∀ fs, ge ≠ .handle fs) :
    Aside e s s' effects := by
  obtain ⟨g, effects, hg, rfl, rfl⟩ := link_app hs
  have taken : ∀ iv out, LinkEffect.taken (.authentication iv) out ∉ effects.map .app := by simp
  cases step_cases hg with
  | idle => exact ⟨.refl _, rfl, rfl, fun iv out h => absurd h (taken iv out)⟩
  | update => exact ⟨⟨rfl, rfl, rfl, id⟩, rfl, rfl, fun iv out h => absurd h (taken iv out)⟩
  | check => exact ⟨⟨rfl, rfl, rfl, id⟩, rfl, rfl, fun iv out h => absurd h (taken iv out)⟩
  | choose => exact ⟨⟨rfl, rfl, rfl, id⟩, rfl, rfl, fun iv out h => absurd h (taken iv out)⟩
  | handle fs => exact absurd rfl (he fs)
  | flag f => cases f <;> exact ⟨⟨rfl, rfl, rfl, id⟩, rfl, rfl, fun iv out h => absurd h (taken iv out)⟩
  | received message a posts hr =>
    obtain ⟨e, g, v, herr, rfl⟩ := messageReceived_fields hr
    have hposted := posted_none posts
    rw [← Function.comp_def, ← List.map_map] at hposted
    exact ⟨⟨rfl, rfl, rfl, herr⟩, hposted.1, hposted.2, fun iv out h => absurd h (taken iv out)⟩

theorem link_aside (hs : s.step lib cipher e = some (s', effects)) (he : ∀ fs, e ≠ .handle fs) :
    Aside e s s' effects := by
  cases e with
  | handle fs => exact absurd rfl (he fs)
  | update iv => exact aside_app hs fun _ h => by cases h
  | check iv => exact aside_app hs fun _ h => by cases h
  | choose filePath fs => exact aside_app hs fun _ h => by cases h
  | flag => exact aside_app hs fun _ h => by cases h
  | timeout => exact aside_app hs fun _ h => by cases h
  | device env rest =>
    rcases device_cases hs with ⟨-, rfl, rfl⟩ | ⟨r, requests, -, rfl, rfl⟩
    · exact ⟨.refl _, rfl, rfl, by simp⟩
    · exact ⟨.refl _, rfl, rfl, by simp⟩
  | reply =>
    rcases reply_cases hs with ⟨-, rfl, rfl⟩ | ⟨p, replies, a, posts, hreplies, hr, rfl, rfl⟩
    · exact ⟨.refl _, rfl, rfl, by simp⟩
    · obtain ⟨e, g, v, herr, rfl⟩ := messageReceived_fields hr
      obtain ⟨hdata, hcontent⟩ := posted_none posts
      refine ⟨⟨rfl, rfl, rfl, herr⟩, (List.countP_cons_of_neg Bool.false_ne_true).trans hdata, hcontent,
        fun iv out hmem => ?_⟩
      rcases List.mem_cons.mp hmem with heq | hmem
      · obtain ⟨hreq, rfl⟩ := LinkEffect.taken.inj heq
        exact ⟨rfl, replies, by rw [hreplies, hreq]⟩
      · simp at hmem

theorem firstBlock_reply (h : Genuine past s) (unspent : Unspent past s .reply)
    (hs : s.step lib cipher .reply = some (s', effects)) : FirstBlock s effects .reply := by
  intro iv out replies hreplies ret update
  obtain ⟨a, posts, hr, rfl, rfl⟩ := link_reply hreplies hs
  have hmem : ⟨.authentication iv, out⟩ ∈ s.replies := by
    rw [hreplies]
    exact List.mem_cons_self
  have hanswered := (h _ hmem).1
  cases hanswered with
  | refused _ _ _ _ hret => exact absurd (hret.symm.trans ret) (by decide)
  | passed =>
    obtain ⟨-, rfl⟩ := Prod.mk.inj (Option.some.inj ((received_pass s.gateway.activity).symm.trans hr))
    have command := (unspent iv _ replies hreplies ret).2 update
    simp [passMsg, command, update]

theorem told_other {a : Activity} {fs : Path → Option File} (h : Told past a) (hopen : msg ≠ .sendDataFrame)
    (hnext : msg ≠ .continueData) (hr : a.handleMessage fs msg = some r) :
    Ordered past (r.effects.map .app) ∧ Told (past ++ r.effects.map .app) r.activity := by
  cases msg with
  | sendDataFrame => exact absurd rfl hopen
  | continueData => exact absurd rfl hnext
  | _ =>
    obtain rfl := Option.some.inj hr
    exact ⟨.of_none rfl, h.of_kept (.refl a) rfl rfl (by simp)⟩

theorem told_handle {fs : Path → Option File} (h : Told past s.gateway.activity) (unspent : Unspent past s (.handle fs))
    (hs : s.app (.handle fs) = some (s', effects)) :
    (Ordered past effects ∧ FirstBlock s effects (.handle fs)) ∧ Told (past ++ effects) s'.gateway.activity := by
  obtain ⟨g, ge, hg, rfl, rfl⟩ := link_app hs
  cases step_cases hg with
  | idle _ hidle =>
    refine ⟨⟨.of_none rfl, fun queue _ hpending hqueue => ?_⟩, h.of_kept (.refl _) rfl rfl (by simp)⟩
    exact absurd hqueue (hidle fs _ queue rfl hpending)
  | handle _ msg queue r hpending hqueue hr =>
    by_cases hopen : msg = .sendDataFrame
    · subst hopen
      obtain ⟨⟨order, told⟩, first⟩ := told_sendDataFrame h ((unspent hpending queue).1 hqueue) hr
      exact ⟨⟨order, fun _ file _ _ => first file⟩, told⟩
    · have silent : FirstBlock s (r.effects.map .app) (.handle fs) := by
        intro queue' _ _ hqueue'
        exact absurd (List.cons.inj (hqueue.symm.trans hqueue')).1 hopen
      by_cases hnext : msg = .continueData
      · subst hnext
        obtain ⟨order, told⟩ := told_continueData h ((unspent hpending queue).2 hqueue) hr
        exact ⟨⟨order, silent⟩, told⟩
      · obtain ⟨order, told⟩ := told_other h hopen hnext hr
        exact ⟨⟨order, silent⟩, told⟩

theorem told_step (genuine : Genuine past s) (h : Told past s.gateway.activity) (unspent : Unspent past s e)
    (hs : s.step lib cipher e = some (s', effects)) :
    (Ordered past effects ∧ FirstBlock s effects e) ∧ Told (past ++ effects) s'.gateway.activity := by
  by_cases he : ∃ fs, e = .handle fs
  · obtain ⟨fs, rfl⟩ := he
    exact told_handle h unspent hs
  · have aside := link_aside hs fun fs hfs => he ⟨fs, hfs⟩
    refine ⟨⟨.of_none aside.data, ?_⟩, h.of_kept aside.kept aside.data aside.content ?_⟩
    · cases e with
      | reply => exact firstBlock_reply genuine unspent hs
      | handle fs => exact absurd ⟨fs, rfl⟩ he
      | _ => trivial
    · intro half iv out hmem ret
      obtain ⟨rfl, replies, hreplies⟩ := aside.taken iv out hmem
      exact (unspent iv out replies hreplies ret).1 half

end

/-- Whatever the device is, and over every interleaving of it and the app: a session
starts afresh in every run in which no file is half sent when an authentication passes,
none passes for an update once a command was sent, and no file is opened once a block
was sent, short or refused. -/
theorem sessions_afresh (lib : GcmLib) (cipher : Cipher) (d : Dev) (events : List LinkEvent)
    (unspent : (link lib cipher).Meets Unspent [] ⟨.onCreate, [], [], d⟩ events) :
    (link lib cipher).Meets (Afresh lib cipher) [] ⟨.onCreate, [], [], d⟩ events := by
  refine Faulting.Meets.of_history (R := fun past s => Genuine past s ∧ Told past s.gateway.activity) ?_ ⟨?_, ?_⟩ unspent
  · rintro past s e ⟨genuine, told⟩ hcond
    refine ⟨fun s' effects hs => (told_step genuine told hcond hs).1, fun s' effects hs => ?_⟩
    exact ⟨genuine_step genuine hs, (told_step genuine told hcond hs).2⟩
  · exact fun p hp => absurd hp List.not_mem_nil
  · exact .fresh rfl rfl fun _ _ h => absurd h.symm (Option.some_ne_none _)

def checkThenUpdate : List LinkEvent :=
  versionAsked ++ [.flag, .device sampleEnv fun _ => 0, .reply, .handle markedFs, .choose "" markedFs,
    .update ⟨sampleIv, sampleIv_length⟩, .device sampleEnv fun _ => 0, .reply, .handle markedFs]

theorem Unspent.of_closed {s : Link} (hfis : s.gateway.activity.fis = none)
    (hcommand : s.gateway.activity.bCommandSend = false) : Unspent past s .reply := by
  intro _ _ _ _ _
  refine ⟨fun half => ?_, fun _ => hcommand⟩
  obtain ⟨c, rest, hopen⟩ := half.fis
  exact Option.some_ne_none _ (hopen.symm.trans hfis)

theorem Unspent.of_other {s : Link} {fs : Path → Option File} (hqueue : s.gateway.queue = [msg])
    (hopen : msg ≠ .sendDataFrame) (hnext : msg ≠ .continueData) : Unspent past s (.handle fs) := by
  intro _ queue
  exact ⟨fun h => absurd (List.cons.inj (hqueue.symm.trans h)).1 hopen,
    fun h => absurd (List.cons.inj (hqueue.symm.trans h)).1 hnext⟩

/-- Two sessions, up to the first block of the second. -/
theorem sessions_afresh_checked : (link gcmMemory aesGcmNoPadding).Meets (Afresh gcmMemory aesGcmNoPadding) [] started
    checkThenUpdate := by
  obtain ⟨d, hrun, auth, idx⟩ := run_versionAsked
  let asked : Activity := { Activity.onCreate with randomIv := sampleIv, bCommandGetverison := true }
  obtain ⟨version, hversion⟩ : ∃ version, asked.messageReceived (generateAckFrame (uHtonl appVersion)) =
      some ({ Activity.onCreate with randomIv := sampleIv, version }, [.displayVersion]) := ⟨_, rfl⟩
  let shown : Activity := { Activity.onCreate with randomIv := sampleIv, version }
  let chosen : Activity := { shown with bFileFormat := true }
  let pressed : Activity := { chosen with bUpdate := true }
  have h1 : Link.step gcmMemory aesGcmNoPadding ⟨checking [] (some .commandGetverison), [.command .getVersion], [], d⟩
      .flag = some (⟨⟨asked, [], none⟩, [.command .getVersion], [], d⟩, []) := rfl
  have h2 := link_device (s := ⟨⟨asked, [], none⟩, [.command .getVersion], [], d⟩) sampleEnv (fun _ => 0) gcmMemory
    aesGcmNoPadding rfl (handle_generateCommandFrame gcmMemory sampleEnv (fun _ => 0) .getVersion auth)
  have h3 := link_taken (s := ⟨⟨asked, [], none⟩, [], [⟨.command .getVersion, ⟨success, uHtonl appVersion, []⟩⟩], d⟩)
    gcmMemory aesGcmNoPadding rfl hversion
  have h4 : Link.step gcmMemory aesGcmNoPadding ⟨⟨shown, [.displayVersion], none⟩, [], [], d⟩ (.handle markedFs) =
      some (⟨⟨shown, [], none⟩, [], [], d⟩, []) := rfl
  have h5 : Link.step gcmMemory aesGcmNoPadding ⟨⟨shown, [], none⟩, [], [], d⟩ (.choose "" markedFs) =
      some (⟨⟨chosen, [], none⟩, [], [], d⟩, [.app (.checked "" true)]) :=
    link_choose gcmMemory aesGcmNoPadding rfl rfl markedFile_marked
  have h6 : Link.step gcmMemory aesGcmNoPadding ⟨⟨chosen, [], none⟩, [], [], d⟩ (.update ⟨sampleIv, rfl⟩) =
      some (⟨⟨pressed, [], none⟩, [.authentication sampleIv], [], d⟩, [.app (.sent (.authentication sampleIv))]) := rfl
  obtain ⟨p, g, h7⟩ := link_authentication (s := ⟨⟨pressed, [], none⟩, [.authentication sampleIv], [], d⟩) sampleEnv
    (fun _ => 0) aesGcm_sameTag ⟨sampleIv, rfl⟩ idx rfl rfl
  generalize upgradeStart { d.scratch p g with cryptoIv := sampleIv } = d' at h7
  have h8 := link_taken (s := ⟨⟨pressed, [], none⟩, [], [⟨.authentication sampleIv,
    ⟨success, uHtonl authenticatedPass, []⟩⟩], d'⟩) gcmMemory aesGcmNoPadding rfl (received_pass pressed)
  have asking : (link gcmMemory aesGcmNoPadding).Meets Unspent [] started versionAsked :=
    meets_versionAsked trivial (fun _ _ _ _ => trivial) (fun _ _ => .of_closed rfl rfl) fun _ _ _ =>
      .of_other rfl (by decide) (by decide)
  refine sessions_afresh gcmMemory aesGcmNoPadding (boot 0 blankFlash) _ (.append asking hrun (.cons trivial h1
    (.cons trivial h2 (.cons (.of_closed rfl rfl) h3 (.cons (.of_other rfl (by decide) (by decide)) h4 (.cons trivial h5
      (.cons trivial h6 (.cons trivial h7 (.cons (.of_closed rfl rfl) h8 ⟨?_, fun _ _ _ => trivial⟩)))))))))
  refine fun _ queue => ⟨fun _ file hfile _ => ⟨rfl, rfl, rfl, fun c rest hreads hne => ?_⟩, fun hqueue => ?_⟩
  · obtain rfl := Option.some.inj hfile
    exact absurd (List.cons.inj hreads).2.symm hne
  · cases hqueue

-- ---------------------------------------------------------------------------
-- A second session
-- ---------------------------------------------------------------------------

def pressedAgain (file : File) : List LinkEvent :=
  firstBlock (fun _ => some file) ++ [.handle fun _ => some file] ++
    [.update ⟨sampleIv, sampleIv_length⟩, .device sampleEnv fun _ => 0, .reply] ++ [.handle fun _ => some file]

theorem pressedAgain_continues {file : File} (marked : file.marked = true) (hreads : file.reads = [c])
    (full : c.length = 1024) :
    ¬ (link gcmMemory aesGcmNoPadding).Meets (Afresh gcmMemory aesGcmNoPadding) [] started (pressedAgain file) := by
  obtain ⟨d, effects, hrun, hidx, -, -⟩ := run_fullBlock marked hreads full
  let a := blockTaken file c
  have h1 : Link.step gcmMemory aesGcmNoPadding ⟨⟨a, [], none⟩, [], [], d⟩ (.update ⟨sampleIv, rfl⟩) =
      some (⟨⟨a, [], none⟩, [.authentication sampleIv], [], d⟩, [.app (.sent (.authentication sampleIv))]) := rfl
  obtain ⟨p, g, h2⟩ := link_authentication (s := ⟨⟨a, [], none⟩, [.authentication sampleIv], [], d⟩) sampleEnv
    (fun _ => 0) aesGcm_sameTag ⟨sampleIv, rfl⟩ hidx rfl rfl
  generalize upgradeStart { d.scratch p g with cryptoIv := sampleIv } = d' at h2
  let pass : Reply := ⟨.authentication sampleIv, ⟨success, uHtonl authenticatedPass, []⟩⟩
  have h3 := link_taken (s := ⟨⟨a, [], none⟩, [], [pass], d'⟩) gcmMemory aesGcmNoPadding rfl (received_pass a)
  have hpost : passMsg a = .sendDataFrame := rfl
  rw [hpost] at h3
  have hstop : (a.bDataAckError || a.bFileReadOver) = false := decide_eq_false (full ▸ Nat.lt_irrefl _)
  have hfirst : a.handleMessage (fun _ => some file) .sendDataFrame = _ := Activity.handle_first rfl hreads hstop
  have h4 := link_handle (s := ⟨⟨a, [.sendDataFrame], none⟩, [], [], d'⟩) gcmMemory aesGcmNoPadding rfl rfl hfirst
  intro hmeets
  have hlast := hmeets.last (Faulting.run_append hrun (Faulting.run_cons h1 (Faulting.run_cons h2
    (Faulting.run_cons h3 rfl))))
  have horder := (hlast _ _ h4).1 [.app (.opened a.mPath file.reads.flatten)] sampleIv (padded c) 1 [] rfl
  obtain ⟨hnum, -⟩ := horder (effects ++ [.app (.sent (.authentication sampleIv)),
      .answered (.authentication sampleIv) pass.out]) sampleIv pass.out
    [.app (.posted .sendDataFrame), .app (.opened a.mPath file.reads.flatten)] (by simp [pass]) rfl (by simp)
  exact Nat.one_ne_zero hnum

/-- The block is sent once more, as the block with number 1. -/
theorem second_session_continues : ¬ (link gcmMemory aesGcmNoPadding).Meets (Afresh gcmMemory aesGcmNoPadding) []
    started (pressedAgain fullFile) :=
  pressedAgain_continues fullFile_marked rfl fullBlock_length

end EthernetOta.System
