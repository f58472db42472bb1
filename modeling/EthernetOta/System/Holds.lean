import EthernetOta.Firmware.Image
import EthernetOta.System.Answers
import EthernetOta.System.Wire

/-!
# What the device holds during an upload

Each request of the app is answered by a refusal, or it does to the device what it
is for: an authentication opens a session with nothing stored, a block goes behind
those stored before it, and a command leaves all that as it is.
-/

namespace EthernetOta.System

open Firmware App

structure Holds (lib : GcmLib) (iv : List Byte) (blocks : List (List Byte)) (d : Dev) : Prop where
  auth : d.isAuthenticated = true
  image : ∃ frames, Image lib ⟨iv, frames⟩ d ∧ frames.map (framePlain lib iv) = blocks

section
variable {lib : GcmLib} {cipher : Cipher} {env : Env} {d : Dev} {iv : List Byte} {blocks : List (List Byte)}

theorem Holds.bank1 (h : Holds lib iv blocks d) (full : ∀ b ∈ blocks, b.length = 1024) :
    Mem.slice d.flash.bank1 0 (1024 * blocks.length) = blocks.flatten := by
  obtain ⟨frames, image, rfl⟩ := h.image
  refine Mem.slice_flatten fun i hi => ?_
  have hframe : i < frames.length := by rwa [List.length_map] at hi
  have hlen : (framePlain lib iv frames[i]).length = 1024 := full _ (List.mem_map_of_mem (List.getElem_mem hframe))
  rw [List.getElem_map, Nat.zero_add]
  apply List.ext_getElem
  · rw [Mem.length_slice, hlen]
  · intro j _ hj
    rw [Mem.getElem_slice]
    exact (image.stored i hframe).data j hj

theorem length_authenticationTag (cipher : Cipher) (iv : List Byte) : (authenticationTag cipher iv).length = 16 := by
  rw [authenticationTag, List.length_drop, cipher.length_encrypt]
  rfl

theorem holds_authentication {rest : Mem} (hiv : iv.length = 16)
    (ret : (handleUpgradePacket lib env d (.ofList (Request.bytes cipher (.authentication iv)) rest)).2.ret = success) :
    Holds lib iv [] (handleUpgradePacket lib env d (.ofList (Request.bytes cipher (.authentication iv)) rest)).1 := by
  have htype := authenticationFrame_type iv (authenticationTag cipher iv) rest
  have hread : authIv (.ofList (Request.bytes cipher (.authentication iv)) rest) = iv :=
    authenticationFrame_iv hiv (length_authenticationTag cipher iv)
  have hdata : authenticatedFrame ≠ Firmware.dataFrame := by decide
  have hcommand : authenticatedFrame ≠ commandFrame := by decide
  have hfail : failure ≠ success := by decide
  have h := handled lib env d (.ofList (Request.bytes cipher (.authentication iv)) rest)
  generalize handleUpgradePacket lib env d (.ofList (Request.bytes cipher (.authentication iv)) rest) = r at h ret ⊢
  cases h with
  | authPass =>
    rw [hread]
    exact ⟨rfl, [], ⟨rfl, rfl, rfl, fun _ h => absurd h List.not_mem_nil, fun _ h => absurd h (Nat.not_lt_zero _),
      fun h => absurd (Nat.zero_mod _) h⟩, rfl⟩
  | stored writes => exact absurd (htype.symm.trans writes.type) hdata
  | version command => exact absurd (htype.symm.trans command.type) hcommand
  | crc command => exact absurd (htype.symm.trans command.type) hcommand
  | exec command => exact absurd (htype.symm.trans command.type) hcommand
  | _ => exact absurd ret hfail

theorem Holds.data {block : List Byte} {rest : Mem} (h : Holds lib iv blocks d) (undoes : Undoes lib cipher)
    (hblock : block.length = 1024)
    (ret : (handleUpgradePacket lib env d (.ofList (Request.bytes cipher
      (.data iv block (BitVec.ofNat 16 blocks.length))) rest)).2.ret = success) :
    Holds lib iv (blocks ++ [block]) (handleUpgradePacket lib env d (.ofList (Request.bytes cipher
      (.data iv block (BitVec.ofNat 16 blocks.length))) rest)).1 := by
  obtain ⟨frames, image, rfl⟩ := h.image
  have htype : frameType (.ofList (Request.bytes cipher (.data iv block (BitVec.ofNat 16
      (frames.map (framePlain lib iv)).length))) rest) = Firmware.dataFrame := dataFrame_type _ _ _
  have hplain : framePlain lib iv (.ofList (Request.bytes cipher (.data iv block (BitVec.ofNat 16
      (frames.map (framePlain lib iv)).length))) rest) = block := generateDataFrame_plain _ undoes hblock iv rest
  have hauth : Firmware.dataFrame ≠ authenticatedFrame := by decide
  have hcommand : Firmware.dataFrame ≠ commandFrame := by decide
  have hfail : failure ≠ success := by decide
  generalize Mem.ofList (Request.bytes cipher (.data iv block (BitVec.ofNat 16
    (frames.map (framePlain lib iv)).length))) rest = buffer at htype hplain ret ⊢
  have hr := handled lib env d buffer
  generalize handleUpgradePacket lib env d buffer = r at hr ret ⊢
  cases hr with
  | stored writes w write rc back p g =>
    have hnext := image.next writes.toNext
    have happended := frameWrite_appended writes write rc (image.room writes.toNext)
    rw [hnext] at happended
    exact ⟨h.auth, frames ++ [buffer], image.store writes hnext rfl rfl happended, by simp [hplain]⟩
  | authPass _ type => exact absurd (htype.symm.trans type) hauth
  | version command => exact absurd (htype.symm.trans command.type) hcommand
  | crc command => exact absurd (htype.symm.trans command.type) hcommand
  | exec command => exact absurd (htype.symm.trans command.type) hcommand
  | _ => exact absurd ret hfail

theorem Holds.command (h : Holds lib iv blocks d) (env : Env) (c : CommandType) (rest : Mem) :
    Holds lib iv blocks (handleUpgradePacket lib env d (.ofList (Request.bytes cipher (.command c)) rest)).1 := by
  obtain ⟨frames, image, hblocks⟩ := h.image
  rw [show Request.bytes cipher (.command c) = generateCommandFrame c from rfl,
    handle_generateCommandFrame lib env rest c h.auth]
  cases c with
  | getVersion => exact h
  | getCRC => exact h
  | exeFirmware => exact ⟨h.auth, frames, image.congr rfl rfl rfl, hblocks⟩

end

end EthernetOta.System
