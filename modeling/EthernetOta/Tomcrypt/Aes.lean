import Mathlib.Data.List.GetD
import EthernetOta.Lib.Rijndael
import EthernetOta.Tomcrypt.AesTab
import EthernetOta.Tomcrypt.Block

/-!
# AES

`aes.c`: the key schedule and the encryption of a block, as `LTC_SMALL_CODE` compiles
them. GCM never decrypts a block, so the keys for that are left out. For every key the
tables give the AES of the standard.
-/

namespace EthernetOta.Tomcrypt

open Aes (byte Columns schedule)

inductive Crypt
  | invalidKeysize
  | invalidRounds
  | invalidCipher
  | mem
  | invalidArg
  deriving DecidableEq, Repr

def rorc (x : Word) (n : Nat) : Word := (x >>> n) ||| (x <<< (32 - n))

/-- `LOAD32H`, from `y + i` on. -/
def load32H (y : List Byte) (i : Nat) : Word :=
  ((y.getD i 0).setWidth 32 <<< 24) ||| ((y.getD (i + 1) 0).setWidth 32 <<< 16) |||
    ((y.getD (i + 2) 0).setWidth 32 <<< 8) ||| (y.getD (i + 3) 0).setWidth 32

def store32H (x : Word) : List Byte :=
  [(x >>> 24).setWidth 8, (x >>> 16).setWidth 8, (x >>> 8).setWidth 8, x.setWidth 8]

-- ---------------------------------------------------------------------------
-- The macros over the tables
-- ---------------------------------------------------------------------------

def te0 (x : Byte) : Word := TE0.getD x.toNat 0
def te1 (x : Byte) : Word := rorc (te0 x) 8
def te2 (x : Byte) : Word := rorc (te0 x) 16
def te3 (x : Byte) : Word := rorc (te0 x) 24

def te4 (x : Byte) : Word := Te4.getD x.toNat 0
def te4_0 (x : Byte) : Word := 0x000000FF#32 &&& te4 x
def te4_1 (x : Byte) : Word := 0x0000FF00#32 &&& te4 x
def te4_2 (x : Byte) : Word := 0x00FF0000#32 &&& te4 x
def te4_3 (x : Byte) : Word := 0xFF000000#32 &&& te4 x

-- ---------------------------------------------------------------------------
-- The key schedule
-- ---------------------------------------------------------------------------

structure RijndaelKey where
  eK : List Word
  Nr : Nat

def setupMix (temp : Word) : Word :=
  te4_3 (byte temp 2) ^^^ te4_2 (byte temp 1) ^^^ te4_1 (byte temp 0) ^^^ te4_0 (byte temp 3)

/-- Turn `i` of the loop for keys of 16 bytes, with `rk` at the last four words. -/
def setup16 (eK : List Word) (i : Nat) : List Word :=
  let rk (j : Nat) := eK.getD (4 * i + j) 0
  let rk4 := rk 0 ^^^ setupMix (rk 3) ^^^ rcon.getD i 0
  let rk5 := rk 1 ^^^ rk4
  let rk6 := rk 2 ^^^ rk5
  let rk7 := rk 3 ^^^ rk6
  eK ++ [rk4, rk5, rk6, rk7]

/-- The same for keys of 24 bytes; the last turn stops half-way. -/
def setup24 (eK : List Word) (i : Nat) : List Word :=
  let rk (j : Nat) := eK.getD (6 * i + j) 0
  let rk6 := rk 0 ^^^ setupMix (rk 5) ^^^ rcon.getD i 0
  let rk7 := rk 1 ^^^ rk6
  let rk8 := rk 2 ^^^ rk7
  let rk9 := rk 3 ^^^ rk8
  if i + 1 = 8 then eK ++ [rk6, rk7, rk8, rk9]
  else
    let rk10 := rk 4 ^^^ rk9
    let rk11 := rk 5 ^^^ rk10
    eK ++ [rk6, rk7, rk8, rk9, rk10, rk11]

def setup32 (eK : List Word) (i : Nat) : List Word :=
  let rk (j : Nat) := eK.getD (8 * i + j) 0
  let rk8 := rk 0 ^^^ setupMix (rk 7) ^^^ rcon.getD i 0
  let rk9 := rk 1 ^^^ rk8
  let rk10 := rk 2 ^^^ rk9
  let rk11 := rk 3 ^^^ rk10
  if i + 1 = 7 then eK ++ [rk8, rk9, rk10, rk11]
  else
    let rk12 := rk 4 ^^^ setupMix (rorc rk11 8)
    let rk13 := rk 5 ^^^ rk12
    let rk14 := rk 6 ^^^ rk13
    let rk15 := rk 7 ^^^ rk14
    eK ++ [rk8, rk9, rk10, rk11, rk12, rk13, rk14, rk15]

def setupLoad (key : List Byte) (n : Nat) : List Word := (List.range n).map fun i => load32H key (4 * i)

def rijndaelSetup (key : List Byte) (numRounds : Nat) : Except Crypt RijndaelKey :=
  let keylen := key.length
  if keylen ≠ 16 ∧ keylen ≠ 24 ∧ keylen ≠ 32 then .error .invalidKeysize
  else if numRounds ≠ 0 ∧ numRounds ≠ 10 + (keylen / 8 - 2) * 2 then .error .invalidRounds
  else
    let eK :=
      if keylen = 16 then (List.range 10).foldl setup16 (setupLoad key 4)
      else if keylen = 24 then (List.range 8).foldl setup24 (setupLoad key 6)
      else (List.range 7).foldl setup32 (setupLoad key 8)
    .ok ⟨eK, 10 + (keylen / 8 - 2) * 2⟩

-- ---------------------------------------------------------------------------
-- Encrypting a block
-- ---------------------------------------------------------------------------

/-- The body of the loop, with `rk` at word `r` of the schedule. -/
def ecbRound (rk : List Word) (r : Nat) (s : Columns) : Columns where
  s0 := te0 (byte s.s0 3) ^^^ te1 (byte s.s1 2) ^^^ te2 (byte s.s2 1) ^^^ te3 (byte s.s3 0) ^^^ rk.getD r 0
  s1 := te0 (byte s.s1 3) ^^^ te1 (byte s.s2 2) ^^^ te2 (byte s.s3 1) ^^^ te3 (byte s.s0 0) ^^^ rk.getD (r + 1) 0
  s2 := te0 (byte s.s2 3) ^^^ te1 (byte s.s3 2) ^^^ te2 (byte s.s0 1) ^^^ te3 (byte s.s1 0) ^^^ rk.getD (r + 2) 0
  s3 := te0 (byte s.s3 3) ^^^ te1 (byte s.s0 2) ^^^ te2 (byte s.s1 1) ^^^ te3 (byte s.s2 0) ^^^ rk.getD (r + 3) 0

def ecbLastRound (rk : List Word) (r : Nat) (t : Columns) : Columns where
  s0 := te4_3 (byte t.s0 3) ^^^ te4_2 (byte t.s1 2) ^^^ te4_1 (byte t.s2 1) ^^^ te4_0 (byte t.s3 0) ^^^ rk.getD r 0
  s1 := te4_3 (byte t.s1 3) ^^^ te4_2 (byte t.s2 2) ^^^ te4_1 (byte t.s3 1) ^^^ te4_0 (byte t.s0 0) ^^^
    rk.getD (r + 1) 0
  s2 := te4_3 (byte t.s2 3) ^^^ te4_2 (byte t.s3 2) ^^^ te4_1 (byte t.s0 1) ^^^ te4_0 (byte t.s1 0) ^^^
    rk.getD (r + 2) 0
  s3 := te4_3 (byte t.s3 3) ^^^ te4_2 (byte t.s0 2) ^^^ te4_1 (byte t.s1 1) ^^^ te4_0 (byte t.s2 0) ^^^
    rk.getD (r + 3) 0

def rijndaelEcbEncrypt (pt : Block) (skey : RijndaelKey) : Block :=
  let rk := skey.eK
  let s : Columns :=
    { s0 := load32H pt.toList 0 ^^^ rk.getD 0 0
      s1 := load32H pt.toList 4 ^^^ rk.getD 1 0
      s2 := load32H pt.toList 8 ^^^ rk.getD 2 0
      s3 := load32H pt.toList 12 ^^^ rk.getD 3 0 }
  -- the loop is left when `r == Nr - 2`
  let t := (List.range (skey.Nr - 1)).foldl (fun s r => ecbRound rk (4 * (r + 1)) s) s
  let s := ecbLastRound rk (4 * skey.Nr) t
  let ct := store32H s.s0 ++ store32H s.s1 ++ store32H s.s2 ++ store32H s.s3
  Block.make (ct.getD · 0)

-- ---------------------------------------------------------------------------
-- The tables
-- ---------------------------------------------------------------------------

theorem te4_table : Te4 = (List.range 256).map fun i =>
    let s := Aes.subByte (BitVec.ofNat 8 i)
    Aes.word s s s s := by
  decide +kernel

theorem te0_table : TE0 = Te4.map fun w =>
    let s := w.setWidth 8
    Aes.word (Aes.mul 2 s) s s (Aes.mul 3 s) := by
  decide +kernel

theorem te4_eq (x : Byte) : te4 x = Aes.word (Aes.subByte x) (Aes.subByte x) (Aes.subByte x) (Aes.subByte x) := by
  have hx : x.toNat < 256 := x.isLt
  rw [te4, te4_table]
  simp [hx]

theorem te0_eq (x : Byte) : te0 x = Aes.multiples x := by
  have hlow (w : Word) : w.setWidth 8 = byte w 0 := by simp [byte]
  have hmap : te0 x = (fun w : Word => Aes.word (Aes.mul 2 (w.setWidth 8)) (w.setWidth 8) (w.setWidth 8)
      (Aes.mul 3 (w.setWidth 8))) (te4 x) := by
    have hx : x.toNat < 256 := x.isLt
    rw [te0, te4, te0_table, te4_table]
    simp [hx]
  rw [hmap, te4_eq]
  simp only [hlow, Aes.byte_word_0, Aes.multiples]

theorem te1_eq (x : Byte) : te1 x = (Aes.multiples x).rotateRight 8 := congrArg (rorc · 8) (te0_eq x)
theorem te2_eq (x : Byte) : te2 x = (Aes.multiples x).rotateRight 16 := congrArg (rorc · 16) (te0_eq x)
theorem te3_eq (x : Byte) : te3 x = (Aes.multiples x).rotateRight 24 := congrArg (rorc · 24) (te0_eq x)

theorem word_and (a0 a1 a2 a3 b0 b1 b2 b3 : Byte) :
    Aes.word a0 a1 a2 a3 &&& Aes.word b0 b1 b2 b3 = Aes.word (a0 &&& b0) (a1 &&& b1) (a2 &&& b2) (a3 &&& b3) := by
  apply BitVec.eq_of_getLsbD_eq
  intro i _
  rw [BitVec.getLsbD_and, Aes.getLsbD_word, Aes.getLsbD_word, Aes.getLsbD_word]
  grind

theorem te4_word (x : Byte) : te4_3 x = Aes.word (Aes.subByte x) 0 0 0 ∧ te4_2 x = Aes.word 0 (Aes.subByte x) 0 0 ∧
    te4_1 x = Aes.word 0 0 (Aes.subByte x) 0 ∧ te4_0 x = Aes.word 0 0 0 (Aes.subByte x) := by
  have hall (b : Byte) : (0xFF : Byte) &&& b = b := BitVec.allOnes_and
  have hnone (b : Byte) : (0 : Byte) &&& b = 0 := BitVec.zero_and
  have h3 : 0xFF000000#32 = Aes.word 0xFF 0 0 0 := by decide
  have h2 : 0x00FF0000#32 = Aes.word 0 0xFF 0 0 := by decide
  have h1 : 0x0000FF00#32 = Aes.word 0 0 0xFF 0 := by decide
  have h0 : 0x000000FF#32 = Aes.word 0 0 0 0xFF := by decide
  rw [te4_3, te4_2, te4_1, te4_0, te4_eq, h3, h2, h1, h0]
  simp only [word_and]
  exact ⟨by rw [hall, hnone], by rw [hall, hnone], by rw [hall, hnone], by rw [hall, hnone]⟩

theorem masked (x y z u : Byte) : te4_3 x ^^^ te4_2 y ^^^ te4_1 z ^^^ te4_0 u =
    Aes.word (Aes.subByte x) (Aes.subByte y) (Aes.subByte z) (Aes.subByte u) := by
  rw [(te4_word x).1, (te4_word y).2.1, (te4_word z).2.2.1, (te4_word u).2.2.2]
  simp [Aes.word_xor]

theorem setupMix_eq (w : Word) : setupMix w = Aes.subWord (Aes.rotWord w) := by
  rw [setupMix, masked, Aes.subWord, Aes.rotWord]
  simp

theorem load32H_eq (y : List Byte) (i : Nat) : load32H y i =
    Aes.word (y.getD i 0) (y.getD (i + 1) 0) (y.getD (i + 2) 0) (y.getD (i + 3) 0) := by
  have hword (a b c d : Byte) : (a.setWidth 32 <<< 24) ||| (b.setWidth 32 <<< 16) ||| (c.setWidth 32 <<< 8) |||
      d.setWidth 32 = Aes.word a b c d := by
    apply BitVec.eq_of_getLsbD_eq
    intro i hi
    rw [Aes.getLsbD_word]
    simp only [BitVec.getLsbD_or, BitVec.getLsbD_shiftLeft, BitVec.getLsbD_setWidth, hi, decide_true, Bool.true_and]
    by_cases h8 : i < 8
    · have h16 : i < 16 := by omega
      have h24 : i < 24 := by omega
      simp [h8, h16, h24]
    · rw [BitVec.getLsbD_of_ge d i (by omega)]
      by_cases h16 : i < 16
      · have h24 : i < 24 := by omega
        simp [h8, h16, h24]
        omega
      · rw [BitVec.getLsbD_of_ge c (i - 8) (by omega)]
        by_cases h24 : i < 24
        · simp [h8, h16, h24]
          omega
        · rw [BitVec.getLsbD_of_ge b (i - 16) (by omega)]
          simp [h8, h16, h24]
          omega
  exact hword _ _ _ _

-- ---------------------------------------------------------------------------
-- The schedule
-- ---------------------------------------------------------------------------

def Scheduled (key : List Byte) (nk : Nat) (eK : List Word) : Prop := ∀ i, i < eK.length → eK.getD i 0 = schedule key nk i

section
variable {key : List Byte} {nk : Nat} {eK : List Word}

theorem Scheduled.append {ws : List Word} (h : Scheduled key nk eK)
    (hws : ∀ j, j < ws.length → ws.getD j 0 = schedule key nk (eK.length + j)) : Scheduled key nk (eK ++ ws) := by
  intro i hi
  rw [List.length_append] at hi
  by_cases hlt : i < eK.length
  · rw [List.getD_append _ _ _ _ hlt]
    exact h i hlt
  · have hle := Nat.not_lt.mp hlt
    rw [List.getD_append_right _ _ _ _ hle, hws _ (by omega), Nat.add_sub_cancel' hle]

theorem scheduled_load (key : List Byte) (nk : Nat) : Scheduled key nk (setupLoad key nk) := by
  intro i hi
  have hlt : i < nk := by simpa [setupLoad] using hi
  rw [Aes.schedule_lt key hlt]
  simp [setupLoad, hlt, load32H_eq, Aes.keyWord]

theorem rcon_eq (h : i < 10) : rcon.getD i 0 = Aes.rcon i := by
  have hall : ∀ i < 10, rcon.getD i 0 = Aes.rcon i := by decide
  exact hall i h

theorem schedule_first (i : Nat) (hpos : 0 < nk) : schedule key nk (nk * i + nk) =
    schedule key nk (nk * i) ^^^ setupMix (schedule key nk (nk * i + nk - 1)) ^^^ Aes.rcon i := by
  have hmod : (nk * i + nk) % nk = 0 := by simp
  have hdiv : (nk * i + nk) / nk - 1 = i := by
    rw [Nat.add_div_right _ hpos, Nat.mul_div_cancel_left _ hpos]
    rfl
  rw [Aes.schedule_ge key (Nat.le_add_left _ _) hpos, if_pos hmod, hdiv, Nat.add_sub_cancel, setupMix_eq,
    BitVec.xor_assoc]

theorem schedule_next (i : Nat) (hj : 0 < j) (hlt : j < nk) (h : ¬ (6 < nk ∧ j = 4)) :
    schedule key nk (nk * i + nk + j) = schedule key nk (nk * i + j) ^^^ schedule key nk (nk * i + nk + j - 1) := by
  have hmod : (nk * i + nk + j) % nk = j := by
    rw [Nat.add_assoc, Nat.mul_add_mod, Nat.add_mod_left, Nat.mod_eq_of_lt hlt]
  have hback : nk * i + nk + j - nk = nk * i + j := by omega
  rw [Aes.schedule_ge key (by omega) (by omega), hmod, if_neg (by omega), if_neg h, hback]

theorem Scheduled.turn (h : Scheduled key nk eK) (hlen : eK.length = nk * i + nk)
    (hturn : eK' = eK ++ (List.range n).map fun j => schedule key nk (nk * i + nk + j)) :
    Scheduled key nk eK' ∧ eK'.length = nk * i + nk + n := by
  subst hturn
  refine ⟨h.append fun j hj => ?_, by simp [hlen]⟩
  have hj : j < n := by simpa using hj
  simp [hj, hlen]

theorem setup16_eq (h : Scheduled key 4 eK) (hlen : eK.length = 4 * i + 4) (hi : i < 10) :
    setup16 eK i = eK ++ (List.range 4).map fun j => schedule key 4 (4 * i + 4 + j) := by
  have hrk0 : eK.getD (4 * i) 0 = schedule key 4 (4 * i) := h _ (by omega)
  have hrk (j : Nat) (hj : j < 4) : eK.getD (4 * i + j) 0 = schedule key 4 (4 * i + j) := h _ (by omega)
  have hnext (j : Nat) (hj : 0 < j) (hlt : j < 4) : schedule key 4 (4 * i + j) ^^^ schedule key 4 (4 * i + 4 + j - 1) =
      schedule key 4 (4 * i + 4 + j) := (schedule_next i hj hlt (by omega)).symm
  have h4 : schedule key 4 (4 * i) ^^^ setupMix (schedule key 4 (4 * i + 3)) ^^^ Aes.rcon i =
      schedule key 4 (4 * i + 4) := (schedule_first i (by decide)).symm
  have h5 := hnext 1 (by decide) (by decide)
  have h6 := hnext 2 (by decide) (by decide)
  have h7 := hnext 3 (by decide) (by decide)
  simp only [Nat.add_succ_sub_one, Nat.add_zero] at h5 h6 h7
  simp only [setup16, hrk0, hrk 1 (by decide), hrk 2 (by decide), hrk 3 (by decide), Nat.add_zero,
    rcon_eq hi, h4, h5, h6, h7]
  rfl

theorem setup24_eq (h : Scheduled key 6 eK) (hlen : eK.length = 6 * i + 6) (hi : i < 8) :
    setup24 eK i = eK ++ (List.range (if i + 1 = 8 then 4 else 6)).map fun j => schedule key 6 (6 * i + 6 + j) := by
  have hrk0 : eK.getD (6 * i) 0 = schedule key 6 (6 * i) := h _ (by omega)
  have hrk (j : Nat) (hj : j < 6) : eK.getD (6 * i + j) 0 = schedule key 6 (6 * i + j) := h _ (by omega)
  have hnext (j : Nat) (hj : 0 < j) (hlt : j < 6) : schedule key 6 (6 * i + j) ^^^ schedule key 6 (6 * i + 6 + j - 1) =
      schedule key 6 (6 * i + 6 + j) := (schedule_next i hj hlt (by omega)).symm
  have h6 : schedule key 6 (6 * i) ^^^ setupMix (schedule key 6 (6 * i + 5)) ^^^ Aes.rcon i =
      schedule key 6 (6 * i + 6) := (schedule_first i (by decide)).symm
  have h7 := hnext 1 (by decide) (by decide)
  have h8 := hnext 2 (by decide) (by decide)
  have h9 := hnext 3 (by decide) (by decide)
  have h10 := hnext 4 (by decide) (by decide)
  have h11 := hnext 5 (by decide) (by decide)
  simp only [Nat.add_succ_sub_one, Nat.add_zero] at h7 h8 h9 h10 h11
  simp only [setup24, hrk0, hrk 1 (by decide), hrk 2 (by decide), hrk 3 (by decide), hrk 4 (by decide),
    hrk 5 (by decide), Nat.add_zero, rcon_eq (Nat.lt_trans hi (by decide)), h6, h7, h8, h9, h10, h11]
  split <;> rfl

theorem setupMix_rorc (w : Word) : setupMix (rorc w 8) = Aes.subWord w := by
  have hrot : Aes.rotWord (rorc w 8) = w := by
    have hw : rorc w 8 = (Aes.word (byte w 3) (byte w 2) (byte w 1) (byte w 0)).rotateRight 8 := by
      rw [Aes.word_byte]
      rfl
    rw [hw, Aes.rotateRight_word, Aes.rotWord]
    simp [Aes.word_byte]
  rw [setupMix_eq, hrot]

theorem setup32_eq (h : Scheduled key 8 eK) (hlen : eK.length = 8 * i + 8) (hi : i < 7) :
    setup32 eK i = eK ++ (List.range (if i + 1 = 7 then 4 else 8)).map fun j => schedule key 8 (8 * i + 8 + j) := by
  have hrk0 : eK.getD (8 * i) 0 = schedule key 8 (8 * i) := h _ (by omega)
  have hrk (j : Nat) (hj : j < 8) : eK.getD (8 * i + j) 0 = schedule key 8 (8 * i + j) := h _ (by omega)
  have hnext (j : Nat) (hj : 0 < j) (hlt : j < 8) (hne : j ≠ 4) :
      schedule key 8 (8 * i + j) ^^^ schedule key 8 (8 * i + 8 + j - 1) = schedule key 8 (8 * i + 8 + j) :=
    (schedule_next i hj hlt (by omega)).symm
  have h8 : schedule key 8 (8 * i) ^^^ setupMix (schedule key 8 (8 * i + 7)) ^^^ Aes.rcon i =
      schedule key 8 (8 * i + 8) := (schedule_first i (by decide)).symm
  have h12 : schedule key 8 (8 * i + 4) ^^^ Aes.subWord (schedule key 8 (8 * i + 8 + 3)) =
      schedule key 8 (8 * i + 8 + 4) := by
    have hmod : (8 * i + 8 + 4) % 8 = 4 := by omega
    have hge : 8 ≤ 8 * i + 8 + 4 := by omega
    have hback : 8 * i + 8 + 4 - 8 = 8 * i + 4 := by omega
    rw [Aes.schedule_ge key hge (by decide), hmod, if_neg (by decide), if_pos (by decide), hback]
    rfl
  have h9 := hnext 1 (by decide) (by decide) (by decide)
  have h10 := hnext 2 (by decide) (by decide) (by decide)
  have h11 := hnext 3 (by decide) (by decide) (by decide)
  have h13 := hnext 5 (by decide) (by decide) (by decide)
  have h14 := hnext 6 (by decide) (by decide) (by decide)
  have h15 := hnext 7 (by decide) (by decide) (by decide)
  simp only [Nat.add_succ_sub_one, Nat.add_zero] at h9 h10 h11 h13 h14 h15
  simp only [setup32, setupMix_rorc, hrk0, hrk 1 (by decide), hrk 2 (by decide), hrk 3 (by decide),
    hrk 4 (by decide), hrk 5 (by decide), hrk 6 (by decide), hrk 7 (by decide), Nat.add_zero,
    rcon_eq (Nat.lt_trans hi (by decide)), h8, h9, h10, h11, h12, h13, h14, h15]
  split <;> rfl

theorem Scheduled.turns {turn : List Word → Nat → List Word} {last : Nat}
    (hturn : ∀ i eK, i < m → Scheduled key nk eK → eK.length = nk * i + nk →
      turn eK i = eK ++ (List.range (if i + 1 = m then last else nk)).map fun j => schedule key nk (nk * i + nk + j))
    (hm : 0 < m) : Scheduled key nk ((List.range m).foldl turn (setupLoad key nk)) ∧
      ((List.range m).foldl turn (setupLoad key nk)).length = nk * m + last := by
  have key : ∀ i, i < m → Scheduled key nk ((List.range i).foldl turn (setupLoad key nk)) ∧
      ((List.range i).foldl turn (setupLoad key nk)).length = nk * i + nk := by
    intro i hi
    induction i with
    | zero => exact ⟨scheduled_load key nk, by simp [setupLoad]⟩
    | succ i ih =>
      obtain ⟨hs, hlen⟩ := ih (by omega)
      have ht := hs.turn hlen (hturn i _ (by omega) hs hlen)
      rw [if_neg (by omega)] at ht
      rw [List.range_succ, List.foldl_append]
      exact ⟨ht.1, ht.2.trans (by rw [Nat.mul_succ])⟩
  obtain ⟨n, rfl⟩ : ∃ n, m = n + 1 := ⟨m - 1, by omega⟩
  obtain ⟨hs, hlen⟩ := key n (Nat.lt_succ_self n)
  have ht := hs.turn hlen (hturn n _ (Nat.lt_succ_self n) hs hlen)
  rw [if_pos rfl] at ht
  rw [List.range_succ, List.foldl_append]
  exact ⟨ht.1, ht.2.trans (by rw [Nat.mul_succ])⟩

end

/-- For each of the three lengths of a key, the schedule of the standard. -/
theorem rijndaelSetup_schedule {key : List Byte} (h : key.length = 16 ∨ key.length = 24 ∨ key.length = 32) :
    ∃ eK, rijndaelSetup key 0 = .ok ⟨eK, key.length / 4 + 6⟩ ∧ Scheduled key (key.length / 4) eK ∧
      eK.length = 4 * (key.length / 4 + 7) := by
  rcases h with h | h | h
  · obtain ⟨hs, hlen⟩ : Scheduled key 4 ((List.range 10).foldl setup16 (setupLoad key 4)) ∧ _ :=
      Scheduled.turns (fun i eK hi hs hlen => (setup16_eq hs hlen hi).trans (by rw [ite_self])) (by decide)
    refine ⟨(List.range 10).foldl setup16 (setupLoad key 4), by simp [rijndaelSetup, h], ?_⟩
    rw [h]
    exact ⟨hs, hlen⟩
  · obtain ⟨hs, hlen⟩ : Scheduled key 6 ((List.range 8).foldl setup24 (setupLoad key 6)) ∧ _ :=
      Scheduled.turns (fun i eK hi hs hlen => setup24_eq hs hlen hi) (by decide)
    refine ⟨(List.range 8).foldl setup24 (setupLoad key 6), by simp [rijndaelSetup, h], ?_⟩
    rw [h]
    exact ⟨hs, hlen⟩
  · obtain ⟨hs, hlen⟩ : Scheduled key 8 ((List.range 7).foldl setup32 (setupLoad key 8)) ∧ _ :=
      Scheduled.turns (fun i eK hi hs hlen => setup32_eq hs hlen hi) (by decide)
    refine ⟨(List.range 7).foldl setup32 (setupLoad key 8), by simp [rijndaelSetup, h], ?_⟩
    rw [h]
    exact ⟨hs, hlen⟩

-- ---------------------------------------------------------------------------
-- The rounds
-- ---------------------------------------------------------------------------

def keyColumns (rk : List Word) (r : Nat) : Columns :=
  ⟨rk.getD r 0, rk.getD (r + 1) 0, rk.getD (r + 2) 0, rk.getD (r + 3) 0⟩

theorem keyColumns_bytes {key : List Byte} {eK : List Word} (h : Scheduled key nk eK) (hr : 4 * r + 3 < eK.length) :
    (keyColumns eK (4 * r)).bytes = Aes.roundKey (schedule key nk) r := by
  rw [keyColumns, Aes.roundKey, h _ (by omega), h _ (by omega), h _ (by omega), h _ (by omega)]

theorem ecbRound_bytes (rk : List Word) (r : Nat) (s : Columns) :
    (ecbRound rk r s).bytes = Aes.round s.bytes (keyColumns rk r).bytes := by
  rw [Aes.round_columns]
  simp only [ecbRound, te0_eq, te1_eq, te2_eq, te3_eq, Aes.lookups, keyColumns]

theorem ecbLastRound_bytes (rk : List Word) (r : Nat) (t : Columns) : (ecbLastRound rk r t).bytes =
    Aes.xorBytes (Aes.shiftRows (t.bytes.map Aes.subByte)) (keyColumns rk r).bytes := by
  rw [Aes.shiftRows_columns, Aes.xorBytes_bytes]
  simp only [ecbLastRound, masked, Aes.lastColumn, keyColumns]

theorem load32H_bytes (pt : Block) :
    (Columns.mk (load32H pt.toList 0) (load32H pt.toList 4) (load32H pt.toList 8) (load32H pt.toList 12)).bytes =
      pt.toList := by
  simp only [load32H_eq]
  have hlen : pt.toList.length = 16 := pt.length_toList
  generalize pt.toList = l at hlen
  match l, hlen with
  | [k0, k1, k2, k3, k4, k5, k6, k7, k8, k9, k10, k11, k12, k13, k14, k15], _ =>
    simp [Columns.bytes, Aes.bytes]

theorem store32H_bytes (s : Columns) (h : s.bytes = l) :
    (Block.make ((store32H s.s0 ++ store32H s.s1 ++ store32H s.s2 ++ store32H s.s3).getD · 0)).toList = l := by
  subst h
  rw [Block.make]
  rfl

theorem ecbRounds_bytes {key : List Byte} {eK : List Word} (h : Scheduled key nk eK) (s : Columns) (n : Nat)
    (hn : 4 * n + 3 < eK.length) : ((List.range n).foldl (fun s r => ecbRound eK (4 * (r + 1)) s) s).bytes =
      (List.range n).foldl (fun s r => Aes.round s (Aes.roundKey (schedule key nk) (r + 1))) s.bytes := by
  induction n with
  | zero => rfl
  | succ n ih =>
    rw [List.range_succ, List.foldl_append, List.foldl_append, ← ih (by omega), List.foldl_cons, List.foldl_cons,
      ← keyColumns_bytes h hn]
    exact ecbRound_bytes _ _ _

theorem rijndaelEcbEncrypt_toList {key : List Byte} {eK : List Word} (h : Scheduled key (key.length / 4) eK)
    (hlen : eK.length = 4 * (key.length / 4 + 7)) (pt : Block) :
    (rijndaelEcbEncrypt pt ⟨eK, key.length / 4 + 6⟩).toList = Aes.encrypt key pt.toList := by
  have hround (r : Nat) (hr : r < key.length / 4 + 7) := keyColumns_bytes (r := r) h (by omega)
  have hstart : (Columns.mk (load32H pt.toList 0 ^^^ eK.getD 0 0) (load32H pt.toList 4 ^^^ eK.getD 1 0)
      (load32H pt.toList 8 ^^^ eK.getD 2 0) (load32H pt.toList 12 ^^^ eK.getD 3 0)).bytes =
      Aes.xorBytes pt.toList (Aes.roundKey (schedule key (key.length / 4)) 0) := by
    rw [← hround 0 (by omega), ← load32H_bytes pt, Aes.xorBytes_bytes, load32H_bytes]
    rfl
  have hnr : (RijndaelKey.mk eK (key.length / 4 + 6)).Nr = key.length / 4 + 6 := rfl
  refine store32H_bytes _ ?_
  rw [hnr, ecbLastRound_bytes, ecbRounds_bytes h _ _ (by omega), hstart, hround _ (by omega)]
  rfl

/-- For every key and every block, `rijndael_setup` and `rijndael_ecb_encrypt` compute AES, or
the key or the number of rounds is refused. -/
theorem rijndael_standard (key : List Byte) (numRounds : Nat) (pt : Block) :
    match rijndaelSetup key numRounds with
    | .ok skey => key.length ∈ [16, 24, 32] ∧ (numRounds = 0 ∨ numRounds = key.length / 4 + 6) ∧
        (rijndaelEcbEncrypt pt skey).toList = Aes.encrypt key pt.toList
    | .error err => err = .invalidKeysize ∧ key.length ∉ [16, 24, 32] ∨
        err = .invalidRounds ∧ key.length ∈ [16, 24, 32] ∧ numRounds ≠ 0 ∧ numRounds ≠ key.length / 4 + 6 := by
  by_cases hkey : key.length = 16 ∨ key.length = 24 ∨ key.length = 32
  · have hmem : key.length ∈ [16, 24, 32] := by simpa using hkey
    have hnr : 10 + (key.length / 8 - 2) * 2 = key.length / 4 + 6 := by omega
    obtain ⟨eK, hsetup, hs, hlen⟩ := rijndaelSetup_schedule hkey
    by_cases hrounds : numRounds = 0 ∨ numRounds = key.length / 4 + 6
    · have heq : rijndaelSetup key numRounds = rijndaelSetup key 0 := by
        have hskip : ¬ (numRounds ≠ 0 ∧ numRounds ≠ 10 + (key.length / 8 - 2) * 2) := by omega
        simp only [rijndaelSetup, hskip, if_false, ne_eq, not_true, false_and]
      rw [heq, hsetup]
      exact ⟨hmem, hrounds, rijndaelEcbEncrypt_toList hs hlen pt⟩
    · have hbad : numRounds ≠ 0 ∧ numRounds ≠ 10 + (key.length / 8 - 2) * 2 := by omega
      have herr : rijndaelSetup key numRounds = .error .invalidRounds := by
        rw [rijndaelSetup, if_neg (by omega), if_pos hbad]
      rw [herr]
      exact .inr ⟨rfl, hmem, by omega, by omega⟩
  · have herr : rijndaelSetup key numRounds = .error .invalidKeysize := by
      rw [rijndaelSetup, if_pos (by omega)]
    rw [herr]
    exact .inl ⟨rfl, by simpa using hkey⟩

end EthernetOta.Tomcrypt
