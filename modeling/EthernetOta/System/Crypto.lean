import EthernetOta.Lib.Gcm
import EthernetOta.App.Frames
import EthernetOta.Firmware.Branches

/-!
# AES-GCM at both ends

What the two ends need of each other's AES-GCM, and that AES-GCM has it.
-/

namespace EthernetOta.System

open Firmware

/-- Decryption undoes the encryption of a block: the device gets back what the
app put into a data frame. -/
def Undoes (lib : GcmLib) (cipher : App.Cipher) : Prop :=
  ∀ iv plaintext, plaintext.length = 1024 →
    (lib.run .decrypt Firmware.cryptoKey iv
      ((cipher.encryptWithAesGcm plaintext App.cryptoKey iv).take 1024)).1 = plaintext

def SameTag (lib : GcmLib) (cipher : App.Cipher) : Prop :=
  ∀ iv, aadTag lib iv = App.authenticationTag cipher iv

def gcmMemory : GcmLib where
  run dir key iv input :=
    let output := Gcm.crypt (Aes.encryptBlock key) iv input
    (output, Gcm.tag (Aes.encryptBlock key) iv (if dir = .encrypt then output else input))
  length_output _ _ _ _ := Gcm.length_crypt _ _
  length_tag _ _ _ _ := Gcm.length_tag _ _

/-- AES/GCM/NoPadding, with the tag behind the ciphertext. -/
def aesGcmNoPadding : App.Cipher where
  encryptWithAesGcm plaintext key iv :=
    let output := Gcm.crypt (Aes.encryptBlock key) iv plaintext
    output ++ Gcm.tag (Aes.encryptBlock key) iv output
  length_encrypt _ _ _ := by simp

theorem aesGcm_undoes : Undoes gcmMemory aesGcmNoPadding := by
  intro iv plaintext hlen
  have hkey : Firmware.cryptoKey = App.cryptoKey := rfl
  simp only [gcmMemory, aesGcmNoPadding, hkey]
  rw [List.take_left' ((Gcm.length_crypt _ _).trans hlen), Gcm.crypt_crypt]

theorem aesGcm_sameTag : SameTag gcmMemory aesGcmNoPadding := by
  intro iv
  have hkey : Firmware.cryptoKey = App.cryptoKey := rfl
  have haad : Firmware.cryptoAad = App.cryptoAad := rfl
  have hlen : App.cryptoAad.length = 32 := rfl
  simp only [aadTag, App.authenticationTag, gcmMemory, aesGcmNoPadding, hkey, haad, if_true]
  rw [List.drop_left' ((Gcm.length_crypt _ _).trans hlen)]

end EthernetOta.System
