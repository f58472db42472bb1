import EthernetOta.Lib.Bytes
import EthernetOta.Lib.Crc

/-!
# The frames the app sends

The frame builders of `UpdateGateway.java`. `Cipher` stands for
`encryptWithAesGcm`, the provider's AES/GCM/NoPadding: the ciphertext with the
16 bytes of the tag after it. `CRC32` is `java.util.zip.CRC32`, the standard one.
-/

namespace EthernetOta.App

structure Cipher where
  encryptWithAesGcm : (plaintext key iv : List Byte) → List Byte
  length_encrypt : ∀ plaintext key iv,
    (encryptWithAesGcm plaintext key iv).length = plaintext.length + 16

def cryptoKey : List Byte :=
  [0xfe, 0xff, 0xe9, 0x92, 0x86, 0x65, 0x73, 0x1c, 0x6d, 0x6a, 0x8f, 0x94, 0x67, 0x30, 0x83, 0x08]

def cryptoAad : List Byte :=
  [0xab, 0x6e, 0x47, 0xd4, 0x2c, 0xec, 0x13, 0xbd, 0xf5, 0x3a, 0x67, 0xb2, 0x12, 0x57, 0xbd, 0xdf,
   0x58, 0xe2, 0xfc, 0xce, 0xfa, 0x7e, 0x30, 0x61, 0x36, 0x7f, 0x1d, 0x57, 0xa4, 0xe7, 0x45, 0x5a]

inductive CommandType
  | getVersion
  | getCRC
  | exeFirmware
  deriving DecidableEq, Repr

/-- `[UPGRADE` -/
def header : List Byte := [0x5B, 0x55, 0x50, 0x47, 0x52, 0x41, 0x44, 0x45]

def tail : List Byte := [0x5D]

def authenticationTag (cipher : Cipher) (randomIv : List Byte) : List Byte :=
  (cipher.encryptWithAesGcm cryptoAad cryptoKey randomIv).drop 32

def authenticationFrame (randomIv tag : List Byte) : List Byte :=
  header ++ [0x08, 0x00] ++ randomIv ++ tag ++ tail

def shortToByteArray (a : Half) : List Byte := [(a >>> 8).setWidth 8, a.setWidth 8]

/-- The low four bytes of a long, the highest first. -/
def crcBytes (crc : Word) : List Byte :=
  [(crc >>> 24).setWidth 8, (crc >>> 16).setWidth 8, (crc >>> 8).setWidth 8, crc.setWidth 8]

def dataFrame (ciphertext : List Byte) (num : Half) : List Byte :=
  let bos := header ++ [0x08, 0x01] ++ shortToByteArray num ++ [0x04, 0x00] ++ ciphertext
  bos ++ crcBytes (Crc.crc32 bos) ++ tail

/-- The tag is cut off: just 1024 bytes are copied. -/
def generateDataFrame (cipher : Cipher) (randomIv plaintext : List Byte) (num : Half) : List Byte :=
  dataFrame ((cipher.encryptWithAesGcm plaintext cryptoKey randomIv).take 1024) num

def generateCommandFrame (commandType : CommandType) : List Byte :=
  let last : Byte :=
    match commandType with
    | .getVersion => 0x00
    | .getCRC => 0x01
    | .exeFirmware => 0x02
  header ++ [0x08, 0x02] ++ [0x55, 0xAA, 0x04, last] ++ tail

end EthernetOta.App
