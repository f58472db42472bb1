import EthernetOta.System.Crypto
import EthernetOta.Tomcrypt.Stream

/-!
# The library as the firmware uses it

`upgrade_init` registers AES and looks it up; from then on every call of the library gives
what the standards say, and what the app at the other end computes.
-/

namespace EthernetOta.Tomcrypt

/-- `cipher_descriptor` after `register_cipher(&aes_desc)`. -/
def aesTable : CipherTable RijndaelKey := (registerCipher (cipherDescriptor RijndaelKey) aesDesc).1

def cryptoIdx : Int := findCipher aesTable "aes"

theorem cipherIsValid_aes : cipherIsValid aesTable cryptoIdx = .ok aesDesc := rfl

section
variable {key : List Byte}

theorem gcmInit_aes (hkey : key.length = 16 ∨ key.length = 24 ∨ key.length = 32) (Y Y_0 : Block) :
    ∃ gcm, gcmInit aesTable cryptoIdx key Y Y_0 = .ok gcm ∧
      IvState (Aes.encrypt key) aesTable aesDesc [] gcm := by
  obtain ⟨eK, hsetup, hschedule, hlength⟩ := rijndaelSetup_schedule hkey
  refine ⟨{
    K := ⟨eK, key.length / 4 + 6⟩, H := rijndaelEcbEncrypt .zero ⟨eK, key.length / 4 + 6⟩, X := .zero, Y, Y_0
    buf := .zero, cipher := cryptoIdx, ivmode := false, mode := .iv, buflen := 0, totlen := 0, pttotlen := 0
    PC := gcmTable (rijndaelEcbEncrypt .zero ⟨eK, key.length / 4 + 6⟩) }, ?_, ?_⟩
  · have hset : aesDesc.setup key 0 = .ok ⟨eK, key.length / 4 + 6⟩ := hsetup
    have hlen : ¬ aesDesc.blockLength ≠ 16 := by decide
    simp only [gcmInit, cipherIsValid_aes, ok_bind, hlen, if_false, hset]
    rfl
  · refine ⟨⟨⟨cipherIsValid_aes, fun block => rijndaelEcbEncrypt_toList hschedule hlength block, rfl⟩, rfl, rfl,
      [], [], rfl, rfl, rfl, Nat.zero_lt_succ 15, Block.val_zero, fun i hi => absurd hi (Nat.not_lt_zero i), rfl⟩, rfl⟩

/-- However a caller cuts the IV, the additional data and the text into pieces, and whatever it
calls out of order, the calls give what the standard gives for all of it, and so does the tag. -/
theorem gcmCalls_standard (hkey : key.length = 16 ∨ key.length = 24 ∨ key.length = 32) (Y Y_0 : Block)
    (calls : List GcmCall) (hlen : (calls.map GcmCall.ivLength).sum + 15 < 2 ^ 32) (taglen : Nat) :
    ∃ gcm, gcmInit aesTable cryptoIdx key Y Y_0 = .ok gcm ∧
      (gcmCalls aesTable gcm calls).2 = (Given.calls (Aes.encrypt key) (.iv []) calls).2 ∧
      (gcmDone aesTable (gcmCalls aesTable gcm calls).1 taglen).map Prod.snd =
        ((Given.calls (Aes.encrypt key) (.iv []) calls).1.tag (Aes.encrypt key)).map (List.take taglen) := by
  obtain ⟨gcm, hinit, hstate⟩ := gcmInit_aes hkey Y Y_0
  have hholds : (Given.iv []).Holds (Aes.encrypt key) aesTable aesDesc gcm := hstate
  obtain ⟨hresults, hlast⟩ := gcmCalls_spec hholds calls (by simpa [Given.ivLength] using hlen)
  exact ⟨gcm, hinit, hresults, gcmDone_given hlast taglen⟩

/-- The IV in two pieces, text before its time, then text in two pieces. -/
theorem gcmCalls_standard_pieces : ∃ gcm, gcmInit aesTable cryptoIdx (List.replicate 16 7) .zero .zero = .ok gcm ∧
    (gcmCalls aesTable gcm [.addIv [1, 2, 3], .process .encrypt [9], .addIv [4], .addAad [], .process .encrypt [5],
      .process .encrypt [6, 7]]).2 =
      (Given.calls (Aes.encrypt (List.replicate 16 7)) (.iv []) [.addIv [1, 2, 3], .process .encrypt [9], .addIv [4],
        .addAad [], .process .encrypt [5], .process .encrypt [6, 7]]).2 ∧
    (gcmDone aesTable (gcmCalls aesTable gcm [.addIv [1, 2, 3], .process .encrypt [9], .addIv [4], .addAad [],
      .process .encrypt [5], .process .encrypt [6, 7]]).1 16).map Prod.snd =
      ((Given.calls (Aes.encrypt (List.replicate 16 7)) (.iv []) [.addIv [1, 2, 3], .process .encrypt [9], .addIv [4],
        .addAad [], .process .encrypt [5], .process .encrypt [6, 7]]).1.tag
          (Aes.encrypt (List.replicate 16 7))).map (List.take 16) :=
  gcmCalls_standard (.inl rfl) .zero .zero _ (by decide) 16

-- ---------------------------------------------------------------------------
-- In one call
-- ---------------------------------------------------------------------------

theorem gcmMemory_aes (hkey : key.length = 16 ∨ key.length = 24 ∨ key.length = 32) {IV : List Byte}
    (hIV : IV.length + 15 < 2 ^ 32) (Y Y_0 : Block) (adata input : List Byte) (taglen : Nat) (direction : Direction) :
    gcmMemory aesTable (some (Y, Y_0)) cryptoIdx key IV adata input taglen direction =
      .ok (Gcm.crypt (Aes.encrypt key) IV input, (Gcm.tagWith (Aes.encrypt key) IV adata
        (if direction = .encrypt then Gcm.crypt (Aes.encrypt key) IV input else input)).take taglen) := by
  obtain ⟨gcm, hinit, hstate⟩ := gcmInit_aes hkey Y Y_0
  obtain ⟨hasIv, hiv, hstate⟩ : ∃ next, gcmAddIv aesTable gcm IV = .ok next ∧
      IvState (Aes.encrypt key) aesTable aesDesc IV next := gcmAddIv_spec hstate (by rwa [List.length_nil, Nat.zero_add])
  obtain ⟨hasAad, haad, hstate⟩ := gcmAddAad_iv hstate (by omega) adata
  obtain ⟨hasText, htext, hstate⟩ := gcmProcess_aad hstate direction input
  have hdone := gcmDone_spec hstate taglen
  rw [List.nil_append, Gcm.cryptFrom_zero] at hdone
  rw [Gcm.cryptFrom_zero] at htext
  cases hlast : gcmDone aesTable hasText taglen with
  | error err =>
    rw [hlast] at hdone
    cases hdone
  | ok last =>
    rw [hlast] at hdone
    have htag := Except.ok.inj hdone
    simp only [gcmMemory, cipherIsValid_aes, ok_bind, hinit, hiv, haad, htext, hlast]
    rw [htag]

/-- `gcm_memory` encrypts and decrypts as the standard says, with keys of all three lengths;
any other key is refused, and so is a call that gets no memory. -/
theorem gcmMemory_standard (malloc : Option (Block × Block)) {IV : List Byte} (hIV : IV.length + 15 < 2 ^ 32)
    (key adata input : List Byte) (taglen : Nat) (direction : Direction) :
    gcmMemory aesTable malloc cryptoIdx key IV adata input taglen direction =
      if malloc.isNone then .error .mem
      else if key.length ∉ [16, 24, 32] then .error .invalidKeysize
      else .ok (Gcm.crypt (Aes.encrypt key) IV input, (Gcm.tagWith (Aes.encrypt key) IV adata
        (if direction = .encrypt then Gcm.crypt (Aes.encrypt key) IV input else input)).take taglen) := by
  cases malloc with
  | none => simp [gcmMemory, cipherIsValid_aes]
  | some memory =>
    obtain ⟨Y, Y_0⟩ := memory
    rw [if_neg (by simp)]
    by_cases hkey : key.length = 16 ∨ key.length = 24 ∨ key.length = 32
    · have hmem : key.length ∈ [16, 24, 32] := by simpa using hkey
      rw [if_neg (not_not.mpr hmem)]
      exact gcmMemory_aes hkey hIV Y Y_0 adata input taglen direction
    · have hsetup : aesDesc.setup key 0 = .error .invalidKeysize := by
        show rijndaelSetup key 0 = _
        rw [rijndaelSetup, if_pos (by omega)]
      have hlen : ¬ aesDesc.blockLength ≠ 16 := by decide
      rw [if_pos (by simpa using hkey)]
      simp only [gcmMemory, gcmInit, cipherIsValid_aes, ok_bind, hlen, if_false, hsetup]
      rfl

theorem gcmMemory_standard_short :
    gcmMemory aesTable (some (.zero, .zero)) cryptoIdx Firmware.cryptoKey Firmware.cryptoIvInit [] [1, 2, 3] 16 .decrypt =
      if (some (Block.zero, Block.zero)).isNone then .error .mem
      else if Firmware.cryptoKey.length ∉ [16, 24, 32] then .error .invalidKeysize
      else .ok (Gcm.crypt (Aes.encrypt Firmware.cryptoKey) Firmware.cryptoIvInit [1, 2, 3],
        (Gcm.tagWith (Aes.encrypt Firmware.cryptoKey) Firmware.cryptoIvInit []
          (if Direction.decrypt = .encrypt then
            Gcm.crypt (Aes.encrypt Firmware.cryptoKey) Firmware.cryptoIvInit [1, 2, 3]
          else [1, 2, 3])).take 16) :=
  gcmMemory_standard (some (.zero, .zero)) (by decide) Firmware.cryptoKey [] [1, 2, 3] 16 .decrypt

-- ---------------------------------------------------------------------------
-- With the app
-- ---------------------------------------------------------------------------

theorem encryptBlock_encrypt (hkey : key.length = 16) : Aes.encrypt key = Aes.encryptBlock key :=
  funext fun block => (Aes.encryptBlock_eq hkey block).symm

theorem gcmMemory_firmware (hkey : key.length = 16) {iv : List Byte} (hiv : iv.length + 15 < 2 ^ 32)
    {input : List Byte} (hinput : input.length < 2 ^ 61) (Y Y_0 : Block) (direction : Direction) :
    gcmMemory aesTable (some (Y, Y_0)) cryptoIdx key iv [] input Firmware.gcmTagLen direction =
      .ok (System.gcmMemory.run (if direction = .encrypt then .encrypt else .decrypt) key iv input) := by
  have htake : ∀ l : List Byte, l.length < 2 ^ 61 → (Gcm.tagWith (Aes.encryptBlock key) iv [] l).take Firmware.gcmTagLen =
      Gcm.tag (Aes.encryptBlock key) iv l := by
    intro l hl
    rw [Gcm.tagWith_nil hl]
    exact List.take_of_length_le (Nat.le_of_eq (Gcm.length_tag _ _))
  rw [gcmMemory_aes (.inl hkey) hiv, encryptBlock_encrypt hkey]
  cases direction with
  | encrypt =>
    rw [if_pos rfl, htake _ (by rwa [Gcm.length_crypt])]
    rfl
  | decrypt =>
    rw [if_neg (by decide), htake _ hinput]
    rfl

/-- The vendored library turns back what the app encrypts and finds its tag, and encrypts to
the same ciphertext itself. -/
theorem gcmMemory_app (hkey : key.length = 16) {iv : List Byte} (hiv : iv.length + 15 < 2 ^ 32)
    {plaintext : List Byte} (hlen : plaintext.length < 2 ^ 61) (Y Y_0 : Block) :
    let sent := System.aesGcmNoPadding.encryptWithAesGcm plaintext key iv
    let ciphertext := sent.take plaintext.length
    let tag := sent.drop plaintext.length
    gcmMemory aesTable (some (Y, Y_0)) cryptoIdx key iv [] ciphertext Firmware.gcmTagLen .decrypt = .ok (plaintext, tag) ∧
      gcmMemory aesTable (some (Y, Y_0)) cryptoIdx key iv [] plaintext Firmware.gcmTagLen .encrypt =
        .ok (ciphertext, tag) := by
  have hcrypt : (Gcm.crypt (Aes.encryptBlock key) iv plaintext).length = plaintext.length := Gcm.length_crypt _ _
  have htake : (System.aesGcmNoPadding.encryptWithAesGcm plaintext key iv).take plaintext.length =
      Gcm.crypt (Aes.encryptBlock key) iv plaintext := List.take_left' hcrypt
  have hdrop : (System.aesGcmNoPadding.encryptWithAesGcm plaintext key iv).drop plaintext.length =
      Gcm.tag (Aes.encryptBlock key) iv (Gcm.crypt (Aes.encryptBlock key) iv plaintext) := List.drop_left' hcrypt
  intro sent ciphertext tag
  have hciphertext : ciphertext = Gcm.crypt (Aes.encryptBlock key) iv plaintext := htake
  have htag : tag = Gcm.tag (Aes.encryptBlock key) iv (Gcm.crypt (Aes.encryptBlock key) iv plaintext) := hdrop
  rw [hciphertext, htag, gcmMemory_firmware hkey hiv (by rwa [hcrypt]), gcmMemory_firmware hkey hiv hlen]
  refine ⟨congrArg Except.ok (Prod.ext (Gcm.crypt_crypt iv plaintext) rfl), rfl⟩

theorem gcmMemory_app_firmware :
    let sent := System.aesGcmNoPadding.encryptWithAesGcm App.cryptoAad Firmware.cryptoKey Firmware.cryptoIvInit
    let ciphertext := sent.take App.cryptoAad.length
    let tag := sent.drop App.cryptoAad.length
    gcmMemory aesTable (some (.zero, .zero)) cryptoIdx Firmware.cryptoKey Firmware.cryptoIvInit [] ciphertext
        Firmware.gcmTagLen .decrypt = .ok (App.cryptoAad, tag) ∧
      gcmMemory aesTable (some (.zero, .zero)) cryptoIdx Firmware.cryptoKey Firmware.cryptoIvInit [] App.cryptoAad
        Firmware.gcmTagLen .encrypt = .ok (ciphertext, tag) :=
  gcmMemory_app rfl (by decide) (by decide) .zero .zero

end

end EthernetOta.Tomcrypt
