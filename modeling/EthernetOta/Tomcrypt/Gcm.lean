import EthernetOta.Tomcrypt.Aes

/-!
# GCM

The `gcm_*.c` files, as `LTC_GCM_TABLES` compiles them without `LTC_FAST`, and the table
of ciphers. A cipher encrypts a block without an error, as `aes_desc` does. The memory
that `gcm_memory` asks for comes or it does not; nothing in it is read before it is
written.
-/

namespace EthernetOta.Tomcrypt

-- ---------------------------------------------------------------------------
-- The table of ciphers
-- ---------------------------------------------------------------------------

structure CipherDescriptor (κ : Type) where
  name : String
  id : Nat
  blockLength : Nat
  setup : (key : List Byte) → (numRounds : Nat) → Except Crypt κ
  ecbEncrypt : Block → κ → Block

def aesDesc : CipherDescriptor RijndaelKey where
  name := "aes"
  id := 6
  blockLength := 16
  setup := rijndaelSetup
  ecbEncrypt := rijndaelEcbEncrypt

def tabSize : Nat := 2

/-- `cipher_descriptor`; an entry without a name is none. -/
abbrev CipherTable (κ : Type) := List (Option (CipherDescriptor κ))

def cipherDescriptor (κ : Type) : CipherTable κ := List.replicate tabSize none

section
variable {κ : Type} (table : CipherTable κ)

def registerCipher (cipher : CipherDescriptor κ) : CipherTable κ × Int :=
  match table.findIdx? fun d => d.any fun d => d.id == cipher.id with
  | some x => (table, x)
  | none =>
    match table.findIdx? Option.isNone with
    | some x => (table.set x (some cipher), x)
    | none => (table, -1)

def findCipher (name : String) : Int :=
  match table.findIdx? fun d => d.any fun d => d.name == name with
  | some x => x
  | none => -1

/-- `cipher_is_valid`, with the entry that makes it so. -/
def cipherIsValid (idx : Int) : Except Crypt (CipherDescriptor κ) :=
  if idx < 0 then .error .invalidCipher
  else
    match table[idx.toNat]? with
    | some (some d) => .ok d
    | _ => .error .invalidCipher

end

-- ---------------------------------------------------------------------------
-- gcm_gf_mult.c
-- ---------------------------------------------------------------------------

def gcmShiftTable : List Byte :=
  [0x00, 0x00, 0x01, 0xc2, 0x03, 0x84, 0x02, 0x46, 0x07, 0x08, 0x06, 0xca, 0x04, 0x8c, 0x05, 0x4e,
   0x0e, 0x10, 0x0f, 0xd2, 0x0d, 0x94, 0x0c, 0x56, 0x09, 0x18, 0x08, 0xda, 0x0a, 0x9c, 0x0b, 0x5e,
   0x1c, 0x20, 0x1d, 0xe2, 0x1f, 0xa4, 0x1e, 0x66, 0x1b, 0x28, 0x1a, 0xea, 0x18, 0xac, 0x19, 0x6e,
   0x12, 0x30, 0x13, 0xf2, 0x11, 0xb4, 0x10, 0x76, 0x15, 0x38, 0x14, 0xfa, 0x16, 0xbc, 0x17, 0x7e,
   0x38, 0x40, 0x39, 0x82, 0x3b, 0xc4, 0x3a, 0x06, 0x3f, 0x48, 0x3e, 0x8a, 0x3c, 0xcc, 0x3d, 0x0e,
   0x36, 0x50, 0x37, 0x92, 0x35, 0xd4, 0x34, 0x16, 0x31, 0x58, 0x30, 0x9a, 0x32, 0xdc, 0x33, 0x1e,
   0x24, 0x60, 0x25, 0xa2, 0x27, 0xe4, 0x26, 0x26, 0x23, 0x68, 0x22, 0xaa, 0x20, 0xec, 0x21, 0x2e,
   0x2a, 0x70, 0x2b, 0xb2, 0x29, 0xf4, 0x28, 0x36, 0x2d, 0x78, 0x2c, 0xba, 0x2e, 0xfc, 0x2f, 0x3e,
   0x70, 0x80, 0x71, 0x42, 0x73, 0x04, 0x72, 0xc6, 0x77, 0x88, 0x76, 0x4a, 0x74, 0x0c, 0x75, 0xce,
   0x7e, 0x90, 0x7f, 0x52, 0x7d, 0x14, 0x7c, 0xd6, 0x79, 0x98, 0x78, 0x5a, 0x7a, 0x1c, 0x7b, 0xde,
   0x6c, 0xa0, 0x6d, 0x62, 0x6f, 0x24, 0x6e, 0xe6, 0x6b, 0xa8, 0x6a, 0x6a, 0x68, 0x2c, 0x69, 0xee,
   0x62, 0xb0, 0x63, 0x72, 0x61, 0x34, 0x60, 0xf6, 0x65, 0xb8, 0x64, 0x7a, 0x66, 0x3c, 0x67, 0xfe,
   0x48, 0xc0, 0x49, 0x02, 0x4b, 0x44, 0x4a, 0x86, 0x4f, 0xc8, 0x4e, 0x0a, 0x4c, 0x4c, 0x4d, 0x8e,
   0x46, 0xd0, 0x47, 0x12, 0x45, 0x54, 0x44, 0x96, 0x41, 0xd8, 0x40, 0x1a, 0x42, 0x5c, 0x43, 0x9e,
   0x54, 0xe0, 0x55, 0x22, 0x57, 0x64, 0x56, 0xa6, 0x53, 0xe8, 0x52, 0x2a, 0x50, 0x6c, 0x51, 0xae,
   0x5a, 0xf0, 0x5b, 0x32, 0x59, 0x74, 0x58, 0xb6, 0x5d, 0xf8, 0x5c, 0x3a, 0x5e, 0x7c, 0x5f, 0xbe,
   0xe1, 0x00, 0xe0, 0xc2, 0xe2, 0x84, 0xe3, 0x46, 0xe6, 0x08, 0xe7, 0xca, 0xe5, 0x8c, 0xe4, 0x4e,
   0xef, 0x10, 0xee, 0xd2, 0xec, 0x94, 0xed, 0x56, 0xe8, 0x18, 0xe9, 0xda, 0xeb, 0x9c, 0xea, 0x5e,
   0xfd, 0x20, 0xfc, 0xe2, 0xfe, 0xa4, 0xff, 0x66, 0xfa, 0x28, 0xfb, 0xea, 0xf9, 0xac, 0xf8, 0x6e,
   0xf3, 0x30, 0xf2, 0xf2, 0xf0, 0xb4, 0xf1, 0x76, 0xf4, 0x38, 0xf5, 0xfa, 0xf7, 0xbc, 0xf6, 0x7e,
   0xd9, 0x40, 0xd8, 0x82, 0xda, 0xc4, 0xdb, 0x06, 0xde, 0x48, 0xdf, 0x8a, 0xdd, 0xcc, 0xdc, 0x0e,
   0xd7, 0x50, 0xd6, 0x92, 0xd4, 0xd4, 0xd5, 0x16, 0xd0, 0x58, 0xd1, 0x9a, 0xd3, 0xdc, 0xd2, 0x1e,
   0xc5, 0x60, 0xc4, 0xa2, 0xc6, 0xe4, 0xc7, 0x26, 0xc2, 0x68, 0xc3, 0xaa, 0xc1, 0xec, 0xc0, 0x2e,
   0xcb, 0x70, 0xca, 0xb2, 0xc8, 0xf4, 0xc9, 0x36, 0xcc, 0x78, 0xcd, 0xba, 0xcf, 0xfc, 0xce, 0x3e,
   0x91, 0x80, 0x90, 0x42, 0x92, 0x04, 0x93, 0xc6, 0x96, 0x88, 0x97, 0x4a, 0x95, 0x0c, 0x94, 0xce,
   0x9f, 0x90, 0x9e, 0x52, 0x9c, 0x14, 0x9d, 0xd6, 0x98, 0x98, 0x99, 0x5a, 0x9b, 0x1c, 0x9a, 0xde,
   0x8d, 0xa0, 0x8c, 0x62, 0x8e, 0x24, 0x8f, 0xe6, 0x8a, 0xa8, 0x8b, 0x6a, 0x89, 0x2c, 0x88, 0xee,
   0x83, 0xb0, 0x82, 0x72, 0x80, 0x34, 0x81, 0xf6, 0x84, 0xb8, 0x85, 0x7a, 0x87, 0x3c, 0x86, 0xfe,
   0xa9, 0xc0, 0xa8, 0x02, 0xaa, 0x44, 0xab, 0x86, 0xae, 0xc8, 0xaf, 0x0a, 0xad, 0x4c, 0xac, 0x8e,
   0xa7, 0xd0, 0xa6, 0x12, 0xa4, 0x54, 0xa5, 0x96, 0xa0, 0xd8, 0xa1, 0x1a, 0xa3, 0x5c, 0xa2, 0x9e,
   0xb5, 0xe0, 0xb4, 0x22, 0xb6, 0x64, 0xb7, 0xa6, 0xb2, 0xe8, 0xb3, 0x2a, 0xb1, 0x6c, 0xb0, 0xae,
   0xbb, 0xf0, 0xba, 0x32, 0xb8, 0x74, 0xb9, 0xb6, 0xbc, 0xf8, 0xbd, 0x3a, 0xbf, 0x7c, 0xbe, 0xbe]

def gcmRightshift (a : Block) : Block :=
  Block.make fun x => if x = 0 then a.byte 0 >>> 1 else (a.byte x >>> 1) ||| ((a.byte (x - 1) <<< 7) &&& 0x80)

def mask : List Byte := [0x80, 0x40, 0x20, 0x10, 0x08, 0x04, 0x02, 0x01]

def poly : List Byte := [0x00, 0xE1]

def gcmGfMultTurn (b : Block) (acc : Block × Block) (x : Nat) : Block × Block :=
  let (Z, V) := acc
  let Z := if b.byte (x >>> 3) &&& mask.getD (x &&& 7) 0 ≠ 0 then Z.xor V else Z
  let z := V.byte 15 &&& 0x01
  let V := gcmRightshift V
  (Z, V.put 0 (V.byte 0 ^^^ poly.getD z.toNat 0))

def gcmGfMult (a b : Block) : Block := ((List.range 128).foldl (gcmGfMultTurn b) (.zero, a)).1

-- ---------------------------------------------------------------------------
-- gcm_init.c and gcm_mult_h.c
-- ---------------------------------------------------------------------------

/-- `PC[x][y]` -/
def gcmTable (H : Block) : Nat → Byte → Block
  | 0, y => gcmGfMult H (Block.zero.put 0 y)
  | x + 1, y =>
    let prev := gcmTable H x y
    let t := (prev.byte 15).toNat
    -- shifted right by 8 bits
    Block.make fun z =>
      if z = 0 then gcmShiftTable.getD (t <<< 1) 0
      else if z = 1 then prev.byte 0 ^^^ gcmShiftTable.getD ((t <<< 1) + 1) 0
      else prev.byte (z - 1)

inductive GcmMode
  | iv
  | aad
  | text
  deriving DecidableEq, Repr

structure GcmState (κ : Type) where
  K : κ
  H : Block
  X : Block
  Y : Block
  Y_0 : Block
  buf : Block
  cipher : Int
  ivmode : Bool
  mode : GcmMode
  buflen : Nat
  totlen : BitVec 64
  pttotlen : BitVec 64
  PC : Nat → Byte → Block

@[irreducible] def gcmMultH (PC : Nat → Byte → Block) (I : Block) : Block :=
  (List.range' 1 15).foldl (fun T x => T.xor (PC x (I.byte x))) (PC 0 (I.byte 0))

section
variable {κ : Type} (table : CipherTable κ)

/-- `gcm_init`; `Y` and `Y_0` stay what they are in the memory it is given. -/
def gcmInit (cipher : Int) (key : List Byte) (Y Y_0 : Block) : Except Crypt (GcmState κ) := do
  let d ← cipherIsValid table cipher
  if d.blockLength ≠ 16 then .error .invalidCipher
  else
    let K ← d.setup key 0
    let H := d.ecbEncrypt .zero K
    .ok {
      K, H, X := .zero, Y, Y_0, buf := .zero, cipher, ivmode := false, mode := .iv, buflen := 0
      totlen := 0, pttotlen := 0, PC := gcmTable H }

-- ---------------------------------------------------------------------------
-- gcm_add_iv.c
-- ---------------------------------------------------------------------------

def GcmState.multH (gcm : GcmState κ) : GcmState κ := { gcm with X := gcmMultH gcm.PC gcm.X }

def gcmAddIvByte (gcm : GcmState κ) (b : Byte) : GcmState κ :=
  let gcm := { gcm with buf := gcm.buf.put gcm.buflen b, buflen := gcm.buflen + 1 }
  if gcm.buflen = 16 then
    let gcm := GcmState.multH { gcm with X := gcm.X.xor gcm.buf }
    { gcm with buflen := 0, totlen := gcm.totlen + 128 }
  else gcm

def gcmAddIv (gcm : GcmState κ) (IV : List Byte) : Except Crypt (GcmState κ) := do
  if gcm.mode ≠ .iv then .error .invalidArg
  else if 16 ≤ gcm.buflen then .error .invalidArg
  else
    let _ ← cipherIsValid table gcm.cipher
    let gcm := if 12 < (IV.length + gcm.buflen) % 2 ^ 32 then { gcm with ivmode := true } else gcm
    .ok (IV.foldl gcmAddIvByte gcm)

-- ---------------------------------------------------------------------------
-- gcm_add_aad.c
-- ---------------------------------------------------------------------------

/-- `STORE64H(x, y)`, for byte `i` of the eight. -/
def store64H (x : BitVec 64) (i : Nat) : Byte := (x >>> (56 - 8 * i)).setWidth 8

/-- `gcm->X[x] ^= gcm->buf[x]` below `n`. -/
def GcmState.addBuf (gcm : GcmState κ) (n : Nat) : GcmState κ :=
  { gcm with X := Block.make fun x => if x < n then gcm.X.byte x ^^^ gcm.buf.byte x else gcm.X.byte x }

def gcmEndIv (gcm : GcmState κ) : GcmState κ :=
  let gcm :=
    if gcm.ivmode ∨ gcm.buflen ≠ 12 then
      let gcm := gcm.addBuf gcm.buflen
      let gcm :=
        if gcm.buflen ≠ 0 then
          GcmState.multH { gcm with totlen := gcm.totlen + BitVec.ofNat 64 gcm.buflen * 8 }
        else gcm
      -- mix in the length
      let gcm := { gcm with buf := Block.make fun x => if x < 8 then 0 else store64H gcm.totlen (x - 8) }
      let gcm := (gcm.addBuf 16).multH
      { gcm with Y := gcm.X, X := .zero }
    else
      { gcm with Y := Block.make fun x => if x < 12 then gcm.buf.byte x else if x = 15 then 1 else 0 }
  { gcm with Y_0 := gcm.Y, buf := .zero, buflen := 0, totlen := 0, mode := .aad }

def gcmAddAadByte (gcm : GcmState κ) (b : Byte) : GcmState κ :=
  let gcm := { gcm with X := gcm.X.put gcm.buflen (gcm.X.byte gcm.buflen ^^^ b), buflen := gcm.buflen + 1 }
  if gcm.buflen = 16 then
    let gcm := gcm.multH
    { gcm with buflen := 0, totlen := gcm.totlen + 128 }
  else gcm

def gcmAddAad (gcm : GcmState κ) (adata : List Byte) : Except Crypt (GcmState κ) := do
  if 16 < gcm.buflen then .error .invalidArg
  else
    let _ ← cipherIsValid table gcm.cipher
    let gcm := if gcm.mode = .iv then gcmEndIv gcm else gcm
    if gcm.mode ≠ .aad ∨ 16 ≤ gcm.buflen then .error .invalidArg
    else .ok (adata.foldl gcmAddAadByte gcm)

-- ---------------------------------------------------------------------------
-- gcm_process.c
-- ---------------------------------------------------------------------------

/-- `for (y = 15; y >= 12; y--) { if (++gcm->Y[y] & 255) { break; } }` -/
def incrementCounter (Y : Block) : List Nat → Block
  | [] => Y
  | y :: ys =>
    let Y := Y.put y (Y.byte y + 1)
    if Y.byte y ≠ 0 then Y else incrementCounter Y ys

def nextKeyStream (d : CipherDescriptor κ) (gcm : GcmState κ) : GcmState κ :=
  let Y := incrementCounter gcm.Y [15, 14, 13, 12]
  { gcm with Y, buf := d.ecbEncrypt Y gcm.K }

def gcmEndAad (d : CipherDescriptor κ) (gcm : GcmState κ) : GcmState κ :=
  let gcm :=
    if gcm.buflen ≠ 0 then GcmState.multH { gcm with totlen := gcm.totlen + BitVec.ofNat 64 gcm.buflen * 8 }
    else gcm
  { nextKeyStream d gcm with buflen := 0, mode := .text }

inductive Direction
  | encrypt
  | decrypt
  deriving DecidableEq, Repr

def gcmProcessByte (d : CipherDescriptor κ) (direction : Direction) (gcm : GcmState κ) (b : Byte) :
    GcmState κ × Byte :=
  let gcm :=
    if gcm.buflen = 16 then
      let gcm := GcmState.multH { gcm with pttotlen := gcm.pttotlen + 128 }
      { nextKeyStream d gcm with buflen := 0 }
    else gcm
  let output := b ^^^ gcm.buf.byte gcm.buflen
  let ct := if direction = .encrypt then output else b
  ({ gcm with X := gcm.X.put gcm.buflen (gcm.X.byte gcm.buflen ^^^ ct), buflen := gcm.buflen + 1 }, output)

def gcmProcessBytes (d : CipherDescriptor κ) (direction : Direction) :
    GcmState κ → List Byte → GcmState κ × List Byte
  | gcm, [] => (gcm, [])
  | gcm, b :: input =>
    let (gcm, output) := gcmProcessByte d direction gcm b
    let (gcm, rest) := gcmProcessBytes d direction gcm input
    (gcm, output :: rest)

def gcmProcess (gcm : GcmState κ) (direction : Direction) (input : List Byte) :
    Except Crypt (GcmState κ × List Byte) := do
  if 16 < gcm.buflen then .error .invalidArg
  else
    let d ← cipherIsValid table gcm.cipher
    let gcm := if gcm.mode = .aad then gcmEndAad d gcm else gcm
    if gcm.mode ≠ .text then .error .invalidArg
    else .ok (gcmProcessBytes d direction gcm input)

-- ---------------------------------------------------------------------------
-- gcm_done.c and gcm_memory.c
-- ---------------------------------------------------------------------------

/-- `gcm_done`; the tag has at most `taglen` bytes. -/
def gcmDone (gcm : GcmState κ) (taglen : Nat) : Except Crypt (GcmState κ × List Byte) := do
  if 16 < gcm.buflen then .error .invalidArg
  else
    let d ← cipherIsValid table gcm.cipher
    if gcm.mode ≠ .text then .error .invalidArg
    else
      let gcm :=
        if gcm.buflen ≠ 0 then
          GcmState.multH { gcm with pttotlen := gcm.pttotlen + BitVec.ofNat 64 gcm.buflen * 8 }
        else gcm
      let buf := Block.make fun x => if x < 8 then store64H gcm.totlen x else store64H gcm.pttotlen (x - 8)
      let gcm := GcmState.multH { gcm with buf, X := gcm.X.xor buf }
      let gcm := { gcm with buf := d.ecbEncrypt gcm.Y_0 gcm.K }
      .ok (gcm, ((gcm.buf.xor gcm.X).toList.take taglen))

/-- `gcm_memory`; `Y` and `Y_0` lie in the memory `XMALLOC` gives, if it gives any. -/
def gcmMemory (malloc : Option (Block × Block)) (cipher : Int) (key IV adata input : List Byte) (taglen : Nat)
    (direction : Direction) : Except Crypt (List Byte × List Byte) := do
  let _ ← cipherIsValid table cipher
  match malloc with
  | none => .error .mem
  | some (Y, Y_0) =>
    let gcm ← gcmInit table cipher key Y Y_0
    let gcm ← gcmAddIv table gcm IV
    let gcm ← gcmAddAad table gcm adata
    let (gcm, output) ← gcmProcess table gcm direction input
    let (_, tag) ← gcmDone table gcm taglen
    .ok (output, tag)

end

end EthernetOta.Tomcrypt
