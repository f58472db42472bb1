import EthernetOta.Lib.Bytes

/-!
# AES-128 in Galois/counter mode

The cipher both ends use, as the standards give it: AES on lists of 16 bytes,
and GCM over any block cipher. Encryption and decryption are one and the same
xor with a key stream, so each undoes the other and keeps every length.
-/

namespace EthernetOta

-- ---------------------------------------------------------------------------
-- AES
-- ---------------------------------------------------------------------------

namespace Aes

/-- Multiplication by `x` in GF(2^8). -/
def xtime (b : Byte) : Byte := if b.getLsbD 7 then (b <<< 1) ^^^ 0x1B#8 else b <<< 1

def mul (a b : Byte) : Byte :=
  ((List.range 8).foldl (fun (acc : Byte × Byte) i =>
    (if b.getLsbD i then acc.1 ^^^ acc.2 else acc.1, xtime acc.2)) (0, a)).1

/-- The inverse, `b ^ 254`; of 0 it is 0. -/
def inv (b : Byte) : Byte :=
  let b2 := mul b b
  let b3 := mul b2 b
  let b6 := mul b3 b3
  let b12 := mul b6 b6
  let b15 := mul b12 b3
  let b30 := mul b15 b15
  let b60 := mul b30 b30
  let b63 := mul b60 b3
  let b126 := mul b63 b63
  let b127 := mul b126 b
  mul b127 b127

def subByte (b : Byte) : Byte :=
  let i := inv b
  i ^^^ i.rotateLeft 1 ^^^ i.rotateLeft 2 ^^^ i.rotateLeft 3 ^^^ i.rotateLeft 4 ^^^ 0x63#8

def xorBytes (a b : List Byte) : List Byte := List.zipWith (· ^^^ ·) a b

/-- Byte `r` of column `c` comes from column `c + r`. -/
def shiftRows (s : List Byte) : List Byte :=
  (List.range 16).map fun i => s.getD ((i + 4 * (i % 4)) % 16) 0

def mixColumns (s : List Byte) : List Byte :=
  (List.range 16).map fun i =>
    let at' (k : Nat) := s.getD (i / 4 * 4 + (i + k) % 4) 0
    mul 2 (at' 0) ^^^ mul 3 (at' 1) ^^^ at' 2 ^^^ at' 3

def nextKey (prev : List Byte) (rcon : Byte) : List Byte :=
  let t := (prev.drop 13 ++ (prev.drop 12).take 1).map subByte
  let w0 := xorBytes (prev.take 4) (xorBytes t [rcon, 0, 0, 0])
  let w1 := xorBytes ((prev.drop 4).take 4) w0
  let w2 := xorBytes ((prev.drop 8).take 4) w1
  w0 ++ w1 ++ w2 ++ xorBytes (prev.drop 12) w2

/-- The rounds from round key `key` on; `left` of them mix the columns. -/
def rounds : Nat → Byte → (key state : List Byte) → List Byte
  | 0, rcon, key, s => xorBytes (shiftRows (s.map subByte)) (nextKey key rcon)
  | left + 1, rcon, key, s =>
    let key := nextKey key rcon
    rounds left (xtime rcon) key (xorBytes (mixColumns (shiftRows (s.map subByte))) key)

def encryptBlock (key block : List Byte) : List Byte := rounds 9 1 key (xorBytes block key)

end Aes

-- ---------------------------------------------------------------------------
-- GCM
-- ---------------------------------------------------------------------------

namespace Gcm

/-- Sixteen bytes as a number, the first the highest; missing ones are 0. -/
def toBlock (l : List Byte) : BitVec 128 :=
  (List.range 16).foldl (fun acc i => (acc <<< 8) ||| (l.getD i 0).setWidth 128) 0

def byteOf (x : BitVec 128) (i : Nat) : Byte := (x >>> (120 - 8 * i)).setWidth 8

def ofBlock (x : BitVec 128) : List Byte := (List.range 16).map (byteOf x)

def blocks (l : List Byte) : List (BitVec 128) :=
  (List.range ((l.length + 15) / 16)).map fun i => toBlock ((l.drop (16 * i)).take 16)

/-- Multiplication in GF(2^128), bits reflected. -/
def mul (x y : BitVec 128) : BitVec 128 :=
  ((List.range 128).foldl (fun (acc : BitVec 128 × BitVec 128) i =>
    (if x.getMsbD i then acc.1 ^^^ acc.2 else acc.1,
      if acc.2.getLsbD 0 then (acc.2 >>> 1) ^^^ (0xE1#128 <<< 120) else acc.2 >>> 1)) (0, y)).1

def ghash (h : BitVec 128) (l : List (BitVec 128)) : BitVec 128 :=
  l.foldl (fun y b => mul (y ^^^ b) h) 0

section
variable (cipher : List Byte → List Byte)

def encryptBlock (x : BitVec 128) : BitVec 128 := toBlock (cipher (ofBlock x))

def j0 (iv : List Byte) : BitVec 128 :=
  if iv.length = 12 then toBlock (iv ++ [0, 0, 0, 1])
  else ghash (encryptBlock cipher 0) (blocks iv ++ [BitVec.ofNat 128 (8 * iv.length)])

/-- The counter of block `k`: only its low 32 bits count. -/
def counter (y : BitVec 128) (k : Nat) : BitVec 128 :=
  y.extractLsb' 32 96 ++ (y.setWidth 32 + BitVec.ofNat 32 (k + 1))

def keyStream (iv : List Byte) (i : Nat) : Byte :=
  byteOf (encryptBlock cipher (counter (j0 cipher iv) (i / 16))) (i % 16)

def crypt (iv input : List Byte) : List Byte := input.mapIdx fun i b => b ^^^ keyStream cipher iv i

/-- The tag over a ciphertext, without additional data. -/
def tag (iv ciphertext : List Byte) : List Byte :=
  ofBlock (ghash (encryptBlock cipher 0)
      (blocks ciphertext ++ [BitVec.ofNat 128 (8 * ciphertext.length)]) ^^^
    encryptBlock cipher (j0 cipher iv))

variable {cipher : List Byte → List Byte}

@[simp] theorem length_crypt (iv input : List Byte) : (crypt cipher iv input).length = input.length :=
  List.length_mapIdx

@[simp] theorem length_tag (iv ciphertext : List Byte) : (tag cipher iv ciphertext).length = 16 := by
  simp [tag, ofBlock]

theorem crypt_crypt (iv input : List Byte) : crypt cipher iv (crypt cipher iv input) = input := by
  apply List.ext_getElem
  · simp
  · intro i h1 h2
    simp only [crypt, List.getElem_mapIdx]
    rw [BitVec.xor_assoc, BitVec.xor_self, BitVec.xor_zero]

end

end Gcm

end EthernetOta
