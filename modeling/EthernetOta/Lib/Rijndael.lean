import EthernetOta.Lib.Gcm

/-!
# AES by words

The key schedule word by word, for keys of 16, 24 and 32 bytes, and the rounds on the
columns of the state: with the multiples of each substituted byte in a table, a column
after SubBytes, ShiftRows and MixColumns is the sum of four entries.
-/

namespace EthernetOta.Aes

-- ---------------------------------------------------------------------------
-- Words
-- ---------------------------------------------------------------------------

def word (b0 b1 b2 b3 : Byte) : Word := (b0 ++ b1) ++ (b2 ++ b3)

def byte (w : Word) (n : Nat) : Byte := (w >>> (8 * n)).setWidth 8

def bytes (w : Word) : List Byte := [byte w 3, byte w 2, byte w 1, byte w 0]

@[simp] theorem byte_xor (v w : Word) (n : Nat) : byte (v ^^^ w) n = byte v n ^^^ byte w n := by
  simp [byte, BitVec.ushiftRight_xor_distrib]

theorem getLsbD_byte (w : Word) (hi : i < 8) : (byte w n).getLsbD i = w.getLsbD (8 * n + i) := by
  simp [byte, hi]

section
variable (b0 b1 b2 b3 : Byte)

theorem getLsbD_word (i : Nat) : (word b0 b1 b2 b3).getLsbD i =
    if i < 8 then b3.getLsbD i else if i < 16 then b2.getLsbD (i - 8)
      else if i < 24 then b1.getLsbD (i - 16) else b0.getLsbD (i - 24) := by
  simp only [word]
  grind

theorem byte_word (n : Nat) (h : n < 4) : byte (word b0 b1 b2 b3) n = [b3, b2, b1, b0].getD n 0 := by
  apply BitVec.eq_of_getLsbD_eq
  intro i hi
  rw [getLsbD_byte _ hi, getLsbD_word]
  match n with
  | 0 | 1 | 2 | 3 => simp; grind

@[simp] theorem byte_word_3 : byte (word b0 b1 b2 b3) 3 = b0 := byte_word b0 b1 b2 b3 3 (by decide)
@[simp] theorem byte_word_2 : byte (word b0 b1 b2 b3) 2 = b1 := byte_word b0 b1 b2 b3 2 (by decide)
@[simp] theorem byte_word_1 : byte (word b0 b1 b2 b3) 1 = b2 := byte_word b0 b1 b2 b3 1 (by decide)
@[simp] theorem byte_word_0 : byte (word b0 b1 b2 b3) 0 = b3 := byte_word b0 b1 b2 b3 0 (by decide)

theorem rotateRight_word : (word b0 b1 b2 b3).rotateRight 8 = word b3 b0 b1 b2 := by
  apply BitVec.eq_of_getLsbD_eq
  intro i hi
  rw [BitVec.getLsbD_rotateRight, getLsbD_word, getLsbD_word, getLsbD_word]
  grind

theorem rotateRight_word_16 : (word b0 b1 b2 b3).rotateRight 16 = word b2 b3 b0 b1 := by
  apply BitVec.eq_of_getLsbD_eq
  intro i hi
  rw [BitVec.getLsbD_rotateRight, getLsbD_word, getLsbD_word, getLsbD_word]
  grind

theorem rotateRight_word_24 : (word b0 b1 b2 b3).rotateRight 24 = word b1 b2 b3 b0 := by
  apply BitVec.eq_of_getLsbD_eq
  intro i hi
  rw [BitVec.getLsbD_rotateRight, getLsbD_word, getLsbD_word, getLsbD_word]
  grind
end

theorem word_byte (w : Word) : word (byte w 3) (byte w 2) (byte w 1) (byte w 0) = w := by
  apply BitVec.eq_of_getLsbD_eq
  intro i hi
  rw [getLsbD_word]
  simp only [byte, BitVec.getLsbD_setWidth, BitVec.getLsbD_ushiftRight]
  grind

theorem word_xor (a0 a1 a2 a3 b0 b1 b2 b3 : Byte) :
    word a0 a1 a2 a3 ^^^ word b0 b1 b2 b3 = word (a0 ^^^ b0) (a1 ^^^ b1) (a2 ^^^ b2) (a3 ^^^ b3) := by
  apply BitVec.eq_of_getLsbD_eq
  intro i _
  rw [BitVec.getLsbD_xor, getLsbD_word, getLsbD_word, getLsbD_word]
  grind

-- ---------------------------------------------------------------------------
-- The key schedule
-- ---------------------------------------------------------------------------

def subWord (w : Word) : Word := word (subByte (byte w 3)) (subByte (byte w 2)) (subByte (byte w 1)) (subByte (byte w 0))

def rotWord (w : Word) : Word := word (byte w 2) (byte w 1) (byte w 0) (byte w 3)

def power : Nat → Byte
  | 0 => 1
  | n + 1 => xtime (power n)

def rcon (n : Nat) : Word := word (power n) 0 0 0

def keyWord (key : List Byte) (i : Nat) : Word :=
  word (key.getD (4 * i) 0) (key.getD (4 * i + 1) 0) (key.getD (4 * i + 2) 0) (key.getD (4 * i + 3) 0)

/-- Word `i` of the schedule of a key of `nk` words. -/
def schedule (key : List Byte) (nk i : Nat) : Word :=
  if i < nk ∨ nk = 0 then keyWord key i
  else
    let prev := schedule key nk (i - 1)
    schedule key nk (i - nk) ^^^
      if i % nk = 0 then subWord (rotWord prev) ^^^ rcon (i / nk - 1)
      else if 6 < nk ∧ i % nk = 4 then subWord prev
      else prev
termination_by i

structure Columns where
  s0 : Word
  s1 : Word
  s2 : Word
  s3 : Word

def Columns.bytes (s : Columns) : List Byte := Aes.bytes s.s0 ++ Aes.bytes s.s1 ++ Aes.bytes s.s2 ++ Aes.bytes s.s3

def roundKey (w : Nat → Word) (r : Nat) : List Byte :=
  (Columns.mk (w (4 * r)) (w (4 * r + 1)) (w (4 * r + 2)) (w (4 * r + 3))).bytes

def round (s key : List Byte) : List Byte := xorBytes (mixColumns (shiftRows (s.map subByte))) key

def encryptRounds (w : Nat → Word) (nr : Nat) (block : List Byte) : List Byte :=
  let s := (List.range (nr - 1)).foldl (fun s r => round s (roundKey w (r + 1))) (xorBytes block (roundKey w 0))
  xorBytes (shiftRows (s.map subByte)) (roundKey w nr)

/-- AES with a key of 16, 24 or 32 bytes. -/
def encrypt (key block : List Byte) : List Byte :=
  encryptRounds (schedule key (key.length / 4)) (key.length / 4 + 6) block

-- ---------------------------------------------------------------------------
-- Columns
-- ---------------------------------------------------------------------------

/-- The multiples of a substituted byte that MixColumns adds up, for the first row. -/
def multiples (b : Byte) : Word := word (mul 2 (subByte b)) (subByte b) (subByte b) (mul 3 (subByte b))

/-- Four lookups in a table for the first row; the other rows are rotated. -/
def lookups (table : Byte → Word) (c0 c1 c2 c3 : Word) : Word :=
  table (byte c0 3) ^^^ (table (byte c1 2)).rotateRight 8 ^^^ (table (byte c2 1)).rotateRight 16 ^^^
    (table (byte c3 0)).rotateRight 24

def lastColumn (c0 c1 c2 c3 : Word) : Word :=
  word (subByte (byte c0 3)) (subByte (byte c1 2)) (subByte (byte c2 1)) (subByte (byte c3 0))

def mixColumn (c0 c1 c2 c3 : Byte) : List Byte :=
  [mul 2 c0 ^^^ mul 3 c1 ^^^ c2 ^^^ c3, mul 2 c1 ^^^ mul 3 c2 ^^^ c3 ^^^ c0,
   mul 2 c2 ^^^ mul 3 c3 ^^^ c0 ^^^ c1, mul 2 c3 ^^^ mul 3 c0 ^^^ c1 ^^^ c2]

theorem mixColumns_shiftRows (a0 a1 a2 a3 b0 b1 b2 b3 c0 c1 c2 c3 d0 d1 d2 d3 : Byte) :
    mixColumns (shiftRows [a0, a1, a2, a3, b0, b1, b2, b3, c0, c1, c2, c3, d0, d1, d2, d3]) =
      mixColumn a0 b1 c2 d3 ++ mixColumn b0 c1 d2 a3 ++ mixColumn c0 d1 a2 b3 ++ mixColumn d0 a1 b2 c3 := rfl

theorem round_columns (s k : Columns) : round s.bytes k.bytes =
    (Columns.mk (lookups multiples s.s0 s.s1 s.s2 s.s3 ^^^ k.s0) (lookups multiples s.s1 s.s2 s.s3 s.s0 ^^^ k.s1)
      (lookups multiples s.s2 s.s3 s.s0 s.s1 ^^^ k.s2) (lookups multiples s.s3 s.s0 s.s1 s.s2 ^^^ k.s3)).bytes := by
  simp only [round, Columns.bytes, bytes, List.cons_append, List.nil_append, List.map_cons, List.map_nil,
    mixColumns_shiftRows, mixColumn, lookups, multiples, rotateRight_word, rotateRight_word_16, rotateRight_word_24, byte_xor,
    byte_word_3, byte_word_2, byte_word_1, byte_word_0, xorBytes, List.zipWith_cons_cons, List.zipWith_nil_left]
  ac_rfl

theorem xorBytes_bytes (s k : Columns) :
    xorBytes s.bytes k.bytes = (Columns.mk (s.s0 ^^^ k.s0) (s.s1 ^^^ k.s1) (s.s2 ^^^ k.s2) (s.s3 ^^^ k.s3)).bytes := by
  simp only [Columns.bytes, bytes, List.cons_append, List.nil_append, byte_xor, xorBytes, List.zipWith_cons_cons,
    List.zipWith_nil_left]

theorem shiftRows_columns (s : Columns) : shiftRows (s.bytes.map subByte) =
    (Columns.mk (lastColumn s.s0 s.s1 s.s2 s.s3) (lastColumn s.s1 s.s2 s.s3 s.s0)
      (lastColumn s.s2 s.s3 s.s0 s.s1) (lastColumn s.s3 s.s0 s.s1 s.s2)).bytes := by
  simp only [Columns.bytes, bytes, lastColumn, byte_word_3, byte_word_2, byte_word_1, byte_word_0]
  rfl

-- ---------------------------------------------------------------------------
-- Keys of 16 bytes
-- ---------------------------------------------------------------------------

theorem schedule_lt (key : List Byte) (h : i < nk) : schedule key nk i = keyWord key i := by
  rw [schedule, if_pos (.inl h)]

theorem schedule_ge (key : List Byte) (h : nk ≤ i) (hpos : 0 < nk) : schedule key nk i =
    schedule key nk (i - nk) ^^^
      if i % nk = 0 then subWord (rotWord (schedule key nk (i - 1))) ^^^ rcon (i / nk - 1)
      else if 6 < nk ∧ i % nk = 4 then subWord (schedule key nk (i - 1))
      else schedule key nk (i - 1) := by
  rw [schedule, if_neg (by omega)]

theorem nextKey_roundKey (key : List Byte) (r : Nat) :
    nextKey (roundKey (schedule key 4) r) (power r) = roundKey (schedule key 4) (r + 1) := by
  have h0 : schedule key 4 (4 * (r + 1)) = schedule key 4 (4 * r) ^^^
      (subWord (rotWord (schedule key 4 (4 * r + 3))) ^^^ rcon r) := by
    rw [schedule_ge key (by omega) (by decide), if_pos (by omega)]
    have hdiv : 4 * (r + 1) / 4 - 1 = r := by omega
    rw [hdiv]
    rfl
  have hrest : ∀ j, 1 ≤ j → j < 4 → schedule key 4 (4 * (r + 1) + j) =
      schedule key 4 (4 * r + j) ^^^ schedule key 4 (4 * (r + 1) + (j - 1)) := by
    intro j hj hlt
    rw [schedule_ge key (by omega) (by decide), if_neg (by omega), if_neg (by omega)]
    have hprev : 4 * (r + 1) + j - 1 = 4 * (r + 1) + (j - 1) := by omega
    have hback : 4 * (r + 1) + j - 4 = 4 * r + j := by omega
    rw [hprev, hback]
  have h1 := hrest 1 (by decide) (by decide)
  have h2 := hrest 2 (by decide) (by decide)
  have h3 := hrest 3 (by decide) (by decide)
  simp only [Nat.reduceSub, Nat.add_zero] at h1 h2 h3
  simp only [roundKey, h3, h2, h1, h0]
  generalize schedule key 4 (4 * r) = w0
  generalize schedule key 4 (4 * r + 1) = w1
  generalize schedule key 4 (4 * r + 2) = w2
  generalize schedule key 4 (4 * r + 3) = w3
  simp [nextKey, Columns.bytes, bytes, xorBytes, subWord, rotWord, rcon]

theorem rounds_schedule (key : List Byte) (left r : Nat) (s : List Byte) :
    rounds left (power r) (roundKey (schedule key 4) r) s =
      let s := (List.range left).foldl (fun s i => round s (roundKey (schedule key 4) (r + i + 1))) s
      xorBytes (shiftRows (s.map subByte)) (roundKey (schedule key 4) (r + left + 1)) := by
  induction left generalizing r s with
  | zero =>
    rw [rounds, nextKey_roundKey]
    rfl
  | succ left ih =>
    have hpower : xtime (power r) = power (r + 1) := rfl
    rw [rounds, nextKey_roundKey, hpower, ih, List.range_succ_eq_map, List.foldl_cons, List.foldl_map]
    have hcount : r + 1 + left + 1 = r + (left + 1) + 1 := by omega
    rw [hcount]
    have hstep : ∀ i, r + 1 + i + 1 = r + i.succ + 1 := by omega
    simp only [hstep]
    rfl

theorem roundKey_zero {key : List Byte} (h : key.length = 16) : roundKey (schedule key 4) 0 = key := by
  simp only [roundKey, schedule_lt key (show 4 * 0 < 4 by decide), schedule_lt key (show 4 * 0 + 1 < 4 by decide),
    schedule_lt key (show 4 * 0 + 2 < 4 by decide), schedule_lt key (show 4 * 0 + 3 < 4 by decide)]
  match key, h with
  | [k0, k1, k2, k3, k4, k5, k6, k7, k8, k9, k10, k11, k12, k13, k14, k15], _ =>
    simp [keyWord, Columns.bytes, bytes]

/-- For keys of 16 bytes the round keys can be made on the way. -/
theorem encryptBlock_eq {key : List Byte} (h : key.length = 16) (block : List Byte) :
    encryptBlock key block = encrypt key block := by
  have hfirst := roundKey_zero h
  have hrounds := rounds_schedule key 9 0 (xorBytes block key)
  rw [hfirst] at hrounds
  have hnk : key.length / 4 = 4 := by rw [h]
  rw [encrypt, hnk, encryptRounds, hfirst, encryptBlock]
  simpa [power] using hrounds

end EthernetOta.Aes
