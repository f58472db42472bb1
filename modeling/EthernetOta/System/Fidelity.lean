import EthernetOta.System.Report
import EthernetOta.System.Upload

/-!
# The image that is switched to

Whatever the file, the IV and the flash are: when the app sends `EXEC`, what the
device has in bank 1 is the file, filled up with 0xFF to whole blocks.
-/

namespace EthernetOta.System

open Firmware App
open Activity (padded)

-- ---------------------------------------------------------------------------
-- Files as `FileInputStream` reads them
-- ---------------------------------------------------------------------------

/-- What successive calls of `read` with a buffer of 1024 bytes give: as much as fits. -/
def chunks (f : List Byte) : List (List Byte) :=
  (List.range ((f.length + 1023) / 1024)).map fun i => (f.drop (1024 * i)).take 1024

def fileOf (f : List Byte) : File where
  reads := chunks f
  bounded := by
    intro c hc
    obtain ⟨i, hi, rfl⟩ := List.mem_map.mp hc
    have hlt := List.mem_range.mp hi
    rw [List.length_take, List.length_drop]
    omega

def padFile (f : List Byte) : List Byte := f ++ List.replicate ((1024 - f.length % 1024) % 1024) 0xff

theorem flatten_slices (f : List Byte) (n : Nat) :
    ((List.range n).map fun i => (f.drop (1024 * i)).take 1024).flatten = f.take (1024 * n) := by
  induction n with
  | zero => rfl
  | succ n ih =>
    rw [List.range_succ, List.map_append, List.flatten_append, ih, Nat.mul_succ, List.take_add, List.map_singleton,
      List.flatten_singleton]

theorem flatten_chunks (f : List Byte) : (chunks f).flatten = f := by
  rw [chunks, flatten_slices, List.take_of_length_le]
  omega

theorem fileOf_short {f : List Byte} (p : Position (fileOf f)) (short : p.c.length < 1024) : p.rest = [] := by
  have hreads : chunks f = p.full ++ p.c :: p.rest := p.reads
  have hlen := congrArg List.length hreads
  have hget := congrArg (·[p.full.length]?) hreads
  rw [chunks, List.length_map, List.length_range, List.length_append, List.length_cons] at hlen
  have hlt : p.full.length < (f.length + 1023) / 1024 := by omega
  simp only [chunks, List.getElem?_map, List.getElem?_range hlt, Option.map_some, List.getElem?_append_right (Nat.le_refl _),
    Nat.sub_self, List.getElem?_cons_zero] at hget
  have hc : p.c.length = min 1024 (f.length - 1024 * p.full.length) := by
    rw [← Option.some.inj hget, List.length_take, List.length_drop]
  apply List.eq_nil_of_length_eq_zero
  omega

theorem length_flatten_whole {l : List (List Byte)} (h : ∀ b ∈ l, b.length = 1024) :
    l.flatten.length = 1024 * l.length := by
  induction l with
  | nil => rfl
  | cons b l ih =>
    rw [List.flatten_cons, List.length_append, h b List.mem_cons_self, ih fun x hx => h x (List.mem_cons_of_mem _ hx),
      List.length_cons]
    omega

theorem fileOf_blocks {f : List Byte} (p : Position (fileOf f)) (short : p.c.length < 1024) :
    p.blocks.flatten = padFile f := by
  have hreads : chunks f = p.full ++ p.c :: p.rest := p.reads
  rw [fileOf_short p short] at hreads
  have hall : (chunks f).flatten = p.full.flatten ++ p.c := by
    rw [hreads, List.flatten_append, List.flatten_singleton]
  have hf : f = p.full.flatten ++ p.c := (flatten_chunks f).symm.trans hall
  have hpos : 0 < p.c.length := ((fileOf f).bounded p.c (p.reads ▸ List.mem_append_right _ List.mem_cons_self)).1
  have hlen := congrArg List.length hf
  rw [List.length_append, length_flatten_whole p.whole] at hlen
  have hpad : 1024 - p.c.length = (1024 - f.length % 1024) % 1024 := by omega
  rw [Position.blocks, List.flatten_append, List.flatten_singleton, padded, ← List.append_assoc]
  exact congrArg₂ (· ++ ·) hf.symm (congrArg (List.replicate · 0xff) hpad)

-- ---------------------------------------------------------------------------
-- The switch
-- ---------------------------------------------------------------------------

/-- When `EXEC` is sent, the session is open and the file is in bank 1. -/
def ExecSound (lib : GcmLib) (cipher : Cipher) (f : List Byte) (_ : List LinkEffect) (s : Link) (e : LinkEvent) : Prop :=
  ∀ s' effects, s.step lib cipher e = some (s', effects) → .app (.sent (.command .exeFirmware)) ∈ effects →
    s'.dev.isAuthenticated = true ∧ Mem.slice s'.dev.flash.bank1 0 (padFile f).length = padFile f

section
variable {lib : GcmLib} {cipher : Cipher} {s s' : Link} {file : File}

theorem sent_requests (hs : s.step lib cipher e = some (s', effects)) (hmem : .app (.sent r) ∈ effects) :
    r ∈ s'.requests := by
  have happ : ∀ {ge effects} {s s' : Link}, s.app ge = some (s', effects) → .app (.sent r) ∈ effects →
      r ∈ s'.requests := by
    intro ge effects s s' hs hmem
    obtain ⟨g, ge, -, rfl, rfl⟩ := link_app hs
    have hsent : r ∈ sentOf (ge.map .app) := List.mem_filterMap.mpr ⟨_, hmem, rfl⟩
    rw [sentOf_app] at hsent
    exact List.mem_append_right _ hsent
  cases e with
  | update iv => exact happ hs hmem
  | check iv => exact happ hs hmem
  | choose filePath fs => exact happ hs hmem
  | handle fs => exact happ hs hmem
  | flag => exact happ hs hmem
  | timeout => exact happ hs hmem
  | device env rest =>
    rcases device_cases hs with ⟨-, -, rfl⟩ | ⟨r, requests, -, -, rfl⟩
    · exact absurd hmem List.not_mem_nil
    · cases List.mem_singleton.mp hmem
  | reply =>
    rcases reply_cases hs with ⟨-, -, rfl⟩ | ⟨p, replies, a, posts, -, -, -, rfl⟩
    · exact absurd hmem List.not_mem_nil
    · simp at hmem

/-- While `EXEC` is on its way, the device holds all the blocks of the file. -/
theorem stage_exec {late : Prop} (h : Stage lib file late True past s) (hmem : .command .exeFirmware ∈ s.requests) :
    ∃ (iv : Iv) (p : Position file), p.c.length < 1024 ∧ Holds lib iv p.blocks s.dev := by
  cases h with
  | asking iv part way during dev =>
    rw [way.requests] at hmem
    cases part with
    | exec p short => exact ⟨iv, p, short, dev trivial⟩
    | auth => cases List.mem_singleton.mp hmem
    | block p => cases List.mem_singleton.mp hmem
    | crc p short => cases List.mem_singleton.mp hmem
  | idle way => exact absurd (way.requests ▸ hmem) List.not_mem_nil
  | answered _ _ _ way => exact absurd (way.requests ▸ hmem) List.not_mem_nil
  | taken _ _ way => exact absurd (way.requests ▸ hmem) List.not_mem_nil
  | reopened way => exact absurd (way.requests ▸ hmem) List.not_mem_nil
  | ended way => exact absurd (way.requests ▸ hmem) List.not_mem_nil

end

/-- For every file, every IV, every device and whatever its flash does, over every
interleaving of the app and the device: when the app sends `EXEC`, bank 1 begins with
the file, filled up with 0xFF to whole blocks, and the session is still open. -/
theorem exec_image (lib : GcmLib) (cipher : Cipher) (undoes : Undoes lib cipher) (d : Dev) (f : List Byte)
    (events : List LinkEvent)
    (one : (link lib cipher).Meets (OneUpdate (fileOf f)) [] ⟨.onCreate, [], [], d⟩ events) :
    (link lib cipher).Meets (ExecSound lib cipher f) [] ⟨.onCreate, [], [], d⟩ events := by
  refine Faulting.Meets.of_history (R := Stage lib (fileOf f) True True) ?_ (stage_start d) one
  intro past s e h hone
  have next : ∀ s' effects, s.step lib cipher e = some (s', effects) → Stage lib (fileOf f) True True (past ++ effects) s' :=
    fun s' effects hs => stage_step (fun _ => undoes) h hone (fun hnot => absurd trivial hnot) hs
  refine ⟨fun s' effects hs hmem => ?_, next⟩
  obtain ⟨iv, p, short, holds⟩ := stage_exec (next s' effects hs) (sent_requests hs hmem)
  have hbank := holds.bank1 p.length_block
  rw [← length_flatten_whole p.length_block, fileOf_blocks p short] at hbank
  exact ⟨holds.auth, hbank⟩

theorem markedFile_eq : markedFile = fileOf markedBlock := by
  have hreads : chunks markedBlock = [markedBlock] := by decide
  rw [markedFile, fileOf, File.mk.injEq, hreads]

/-- A file of one block, up to the command after its CRC. -/
theorem exec_image_marked : (link gcmMemory aesGcmNoPadding).Meets (ExecSound gcmMemory aesGcmNoPadding markedBlock) []
    started (crcAsked ++ [.device sampleEnv fun _ => 0, .reply, .handle markedFs]) := by
  have hopens : ∀ path, markedFs path = some (fileOf markedBlock) := fun _ => congrArg some markedFile_eq
  have hcalm : ∀ e ∈ crcAsked.drop 2 ++ [.device sampleEnv fun _ => 0, .reply, .handle markedFs],
      Unpressed (fileOf markedBlock) e := by
    simp [crcAsked, firstBlock, Unpressed, hopens]
  exact exec_image gcmMemory aesGcmNoPadding aesGcm_undoes (boot 0 blankFlash) markedBlock _ (oneUpdate_chosen hcalm)

end EthernetOta.System
