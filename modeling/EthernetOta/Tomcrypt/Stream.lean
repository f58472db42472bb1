import EthernetOta.Tomcrypt.Counter

/-!
# GCM in pieces

A caller of the `gcm_*.c` functions may give the IV, the additional data and the text in as
many pieces as it likes. What counts is only what the pieces add up to, and in which order
the three come.
-/

namespace EthernetOta.Tomcrypt

open Gcm (toBlock ofBlock blocks ghash Hashing)

-- ---------------------------------------------------------------------------
-- The calls
-- ---------------------------------------------------------------------------

inductive GcmCall
  | addIv (IV : List Byte)
  | addAad (adata : List Byte)
  | process (direction : Direction) (input : List Byte)

section
variable {κ : Type} (table : CipherTable κ)

def gcmCall (gcm : GcmState κ) : GcmCall → Except Crypt (GcmState κ × List Byte)
  | .addIv IV => (gcmAddIv table gcm IV).map fun gcm => (gcm, [])
  | .addAad adata => (gcmAddAad table gcm adata).map fun gcm => (gcm, [])
  | .process direction input => gcmProcess table gcm direction input

/-- One call after the other; one that fails leaves the state as it is. -/
def gcmCalls : GcmState κ → List GcmCall → GcmState κ × List (Except Crypt (List Byte))
  | gcm, [] => (gcm, [])
  | gcm, call :: calls =>
    match gcmCall table gcm call with
    | .ok (next, output) =>
      let (last, results) := gcmCalls next calls
      (last, .ok output :: results)
    | .error err =>
      let (last, results) := gcmCalls gcm calls
      (last, .error err :: results)

end

inductive Given
  | iv (iv : List Byte)
  | aad (iv aad : List Byte)
  | text (iv aad ciphertext : List Byte)

section
variable (cipher : List Byte → List Byte)

def Given.addText (IV adata ciphertext : List Byte) (direction : Direction) (input : List Byte) : Given × List Byte :=
  let output := Gcm.cryptFrom cipher IV ciphertext.length input
  (.text IV adata (ciphertext ++ if direction = .encrypt then output else input), output)

/-- The IV comes first, then the additional data, which may be none, then the text. -/
def Given.call : Given → GcmCall → Except Crypt (Given × List Byte)
  | .iv IV, .addIv more => .ok (.iv (IV ++ more), [])
  | .iv IV, .addAad adata => .ok (.aad IV adata, [])
  | .aad IV adata, .addAad more => .ok (.aad IV (adata ++ more), [])
  | .aad IV adata, .process direction input => .ok (addText cipher IV adata [] direction input)
  | .text IV adata ciphertext, .process direction input => .ok (addText cipher IV adata ciphertext direction input)
  | _, _ => .error .invalidArg

def Given.calls : Given → List GcmCall → Given × List (Except Crypt (List Byte))
  | given, [] => (given, [])
  | given, c :: rest =>
    match Given.call cipher given c with
    | .ok (next, output) =>
      let (last, results) := Given.calls next rest
      (last, .ok output :: results)
    | .error err =>
      let (last, results) := Given.calls given rest
      (last, .error err :: results)

def Given.tag : Given → Except Crypt (List Byte)
  | .text IV adata ciphertext => .ok (Gcm.tagWith cipher IV adata ciphertext)
  | _ => .error .invalidArg

end

-- ---------------------------------------------------------------------------
-- What the state holds
-- ---------------------------------------------------------------------------

section
variable {κ : Type} (cipher : List Byte → List Byte) (table : CipherTable κ) (d : CipherDescriptor κ)

abbrev hashKey : BitVec 128 := Gcm.encryptBlock cipher 0

/-- What `gcm_init` has set up, and no call changes. -/
structure Keyed (gcm : GcmState κ) : Prop where
  valid : cipherIsValid table gcm.cipher = .ok d
  encrypts : ∀ block, (d.ecbEncrypt block gcm.K).toList = cipher block.toList
  tables : gcm.PC = gcmTable (d.ecbEncrypt .zero gcm.K)

/-- The whole blocks of the IV are hashed, the rest waits in `buf`. -/
structure IvBytes (iv : List Byte) (gcm : GcmState κ) : Prop extends Keyed cipher table d gcm where
  mode : gcm.mode = .iv
  pttotlen : gcm.pttotlen = 0
  pieces : ∃ whole last, iv = whole ++ last ∧ whole.length % 16 = 0 ∧ last.length = gcm.buflen ∧ gcm.buflen < 16 ∧
    gcm.X.val = ghash (hashKey cipher) (blocks whole) ∧ (∀ i, i < gcm.buflen → gcm.buf.byte i = last.getD i 0) ∧
    gcm.totlen = BitVec.ofNat 64 (8 * whole.length)

structure IvState (iv : List Byte) (gcm : GcmState κ) : Prop extends IvBytes cipher table d iv gcm where
  ivmode : gcm.ivmode = decide (12 < iv.length)

structure AadState (iv aad : List Byte) (gcm : GcmState κ) : Prop extends Keyed cipher table d gcm where
  mode : gcm.mode = .aad
  pttotlen : gcm.pttotlen = 0
  counter : gcm.Y.val = Gcm.j0 cipher iv
  first : gcm.Y_0.val = Gcm.j0 cipher iv
  hashing : Hashing (hashKey cipher) [] aad gcm.buflen gcm.X.val
  buflen : gcm.buflen < 16
  totlen : gcm.totlen = BitVec.ofNat 64 (8 * (aad.length - gcm.buflen))

/-- The last block of text is hashed only when more comes; until then `buf` keeps its key
stream. -/
structure TextState (iv aad ciphertext : List Byte) (gcm : GcmState κ) : Prop extends Keyed cipher table d gcm where
  mode : gcm.mode = .text
  first : gcm.Y_0.val = Gcm.j0 cipher iv
  counter : gcm.Y.val = Gcm.counter (Gcm.j0 cipher iv) ((ciphertext.length - gcm.buflen) / 16)
  stream : gcm.buf = d.ecbEncrypt gcm.Y gcm.K
  hashing : Hashing (hashKey cipher) (blocks aad) ciphertext gcm.buflen gcm.X.val
  totlen : gcm.totlen = BitVec.ofNat 64 (8 * aad.length)
  pttotlen : gcm.pttotlen = BitVec.ofNat 64 (8 * (ciphertext.length - gcm.buflen))

def Given.Holds : Given → GcmState κ → Prop
  | .iv IV => IvState cipher table d IV
  | .aad IV adata => AadState cipher table d IV adata
  | .text IV adata ciphertext => TextState cipher table d IV adata ciphertext

end

section
variable {κ : Type} {cipher : List Byte → List Byte} {table : CipherTable κ} {d : CipherDescriptor κ}
variable {gcm : GcmState κ}

@[simp] theorem ok_bind {α β : Type} (a : α) (f : α → Except Crypt β) : (Except.ok a >>= f) = f a := rfl

theorem Keyed.encrypt_val (hg : Keyed cipher table d gcm) (block : Block) :
    (d.ecbEncrypt block gcm.K).val = Gcm.encryptBlock cipher block.val := by
  rw [Block.val, hg.encrypts, Gcm.encryptBlock, Block.ofBlock_val]

theorem Keyed.of_eq (hg : Keyed cipher table d gcm) {next : GcmState κ} (hcipher : next.cipher = gcm.cipher)
    (hK : next.K = gcm.K) (hPC : next.PC = gcm.PC) : Keyed cipher table d next :=
  ⟨by rw [hcipher]; exact hg.valid, by rw [hK]; exact hg.encrypts, by rw [hK, hPC]; exact hg.tables⟩

theorem Keyed.multH (hg : Keyed cipher table d gcm) : gcm.multH.X.val = Gcm.mul gcm.X.val (hashKey cipher) := by
  rw [GcmState.multH, hg.tables, gcmMultH_val, hg.encrypt_val, Block.val_zero]

theorem ofNat_add_mul (m n : Nat) : BitVec.ofNat 64 (8 * m) + BitVec.ofNat 64 n * 8 = BitVec.ofNat 64 (8 * (m + n)) := by
  apply BitVec.eq_of_toNat_eq
  rw [BitVec.toNat_add, BitVec.toNat_mul, BitVec.toNat_ofNat, BitVec.toNat_ofNat, BitVec.toNat_ofNat]
  simp
  omega

theorem ofNat_add_block (m : Nat) : BitVec.ofNat 64 (8 * m) + 128 = BitVec.ofNat 64 (8 * (m + 16)) := ofNat_add_mul m 16

-- ---------------------------------------------------------------------------
-- The IV
-- ---------------------------------------------------------------------------

theorem val_xor_buf (gcm : GcmState κ) {l : List Byte} (hn : l.length = n) (h : ∀ i, i < n → gcm.buf.byte i = l.getD i 0) :
    (gcm.addBuf n).X.val = gcm.X.val ^^^ toBlock l := by
  refine Gcm.toBlock_xor fun i hi => ?_
  rw [← Block.byte, ← Block.byte, GcmState.addBuf, Block.byte_make _ hi]
  split
  · rename_i hlt
    rw [h i hlt]
  · rename_i hge
    rw [List.getD_eq_default _ _ (by omega)]
    exact BitVec.xor_zero.symm

theorem gcmAddIvByte_spec (hg : IvBytes cipher table d iv gcm) (b : Byte) :
    IvBytes cipher table d (iv ++ [b]) (gcmAddIvByte gcm b) ∧ (gcmAddIvByte gcm b).ivmode = gcm.ivmode := by
  obtain ⟨whole, last, rfl, hwhole, hlast, hlt, hX, hbuf, htotlen⟩ := hg.pieces
  have hbuf' : ∀ i, i < gcm.buflen + 1 → (gcm.buf.put gcm.buflen b).byte i = (last ++ [b]).getD i 0 := by
    intro i hi
    rw [Block.byte_put _ _ _ (by omega)]
    split
    · rename_i heq
      rw [heq, ← hlast, List.getD_append_right _ _ _ _ (Nat.le_refl _), Nat.sub_self]
      rfl
    · rw [List.getD_append _ _ _ _ (by omega)]
      exact hbuf i (by omega)
  by_cases hfull : gcm.buflen + 1 = 16
  · have hlength : (last ++ [b]).length = 16 := by rw [List.length_append, hlast]; exact hfull
    have hval : (gcm.buf.put gcm.buflen b).val = toBlock (last ++ [b]) :=
      Block.val_eq fun i hi => hbuf' i (by omega)
    obtain ⟨next, hnext⟩ : ∃ next, next =
      { gcm with buf := gcm.buf.put gcm.buflen b, buflen := 16, X := gcm.X.xor (gcm.buf.put gcm.buflen b) } := ⟨_, rfl⟩
    have hkeyed : Keyed cipher table d next := by
      subst hnext
      exact ⟨hg.valid, hg.encrypts, hg.tables⟩
    have hstep : gcmAddIvByte gcm b = { next.multH with buflen := 0, totlen := gcm.totlen + 128 } := by
      simp only [gcmAddIvByte, hfull, if_true, hnext]
      rfl
    have hmult : next.multH.X.val = ghash (hashKey cipher) (blocks (whole ++ (last ++ [b]))) := by
      rw [hkeyed.multH, hnext, Gcm.blocks_append hwhole, Gcm.blocks_last (by simp) (Nat.le_of_eq hlength),
        Gcm.ghash_concat, ← hX, ← hval, ← Block.val_xor]
    rw [hstep]
    refine ⟨⟨hkeyed.of_eq rfl rfl rfl, ?_, ?_, whole ++ (last ++ [b]), [], ?_, ?_, rfl, Nat.zero_lt_succ 15, hmult,
      fun i hi => absurd hi (Nat.not_lt_zero i), ?_⟩, ?_⟩
    · exact hnext ▸ hg.mode
    · exact hnext ▸ hg.pttotlen
    · rw [List.append_nil, List.append_assoc]
    · rw [List.length_append, hlength]
      omega
    · rw [List.length_append, hlength, ← ofNat_add_block, ← htotlen]
    · rw [hnext]
      rfl
  · have hstep : gcmAddIvByte gcm b =
        { gcm with buf := gcm.buf.put gcm.buflen b, buflen := gcm.buflen + 1 } := by
      simp only [gcmAddIvByte, hfull, if_false]
    rw [hstep]
    refine ⟨⟨⟨hg.valid, hg.encrypts, hg.tables⟩, hg.mode, hg.pttotlen, whole, last ++ [b], ?_, hwhole, ?_, ?_, hX, hbuf',
      htotlen⟩, rfl⟩
    · rw [List.append_assoc]
    · rw [List.length_append, hlast]
      rfl
    · show gcm.buflen + 1 < 16
      omega

theorem gcmAddIv_bytes (hg : IvBytes cipher table d iv gcm) (IV : List Byte) :
    IvBytes cipher table d (iv ++ IV) (IV.foldl gcmAddIvByte gcm) ∧ (IV.foldl gcmAddIvByte gcm).ivmode = gcm.ivmode := by
  induction IV generalizing iv gcm with
  | nil => exact ⟨by rwa [List.append_nil], rfl⟩
  | cons b IV ih =>
    obtain ⟨hbyte, hmode⟩ := gcmAddIvByte_spec hg b
    obtain ⟨hrest, hmode'⟩ := ih hbyte
    exact ⟨by rwa [List.append_assoc] at hrest, hmode'.trans hmode⟩

theorem gcmAddIv_spec (hg : IvState cipher table d iv gcm) (hlen : iv.length + IV.length + 15 < 2 ^ 32) :
    ∃ next, gcmAddIv table gcm IV = .ok next ∧ IvState cipher table d (iv ++ IV) next := by
  obtain ⟨whole, last, rfl, hwhole, hlast, hlt, -⟩ := hg.pieces
  have hmodulus : (IV.length + gcm.buflen) % 2 ^ 32 = IV.length + gcm.buflen := by
    rw [List.length_append] at hlen
    omega
  have hstart : gcmAddIv table gcm IV = .ok (IV.foldl gcmAddIvByte
      (if 12 < IV.length + gcm.buflen then { gcm with ivmode := true } else gcm)) := by
    simp only [gcmAddIv, hg.mode, hmodulus, ne_eq, not_true, if_false, Nat.not_le.mpr hlt, hg.valid]
    rfl
  -- a piece that starts past the twelfth byte finds the flag set
  have hflag : (gcm.ivmode || decide (12 < IV.length + gcm.buflen)) = decide (12 < (whole ++ last ++ IV).length) := by
    rw [hg.ivmode, List.length_append, List.length_append, ← Bool.decide_or, decide_eq_decide, List.length_append]
    omega
  rw [hstart]
  by_cases hlong : 12 < IV.length + gcm.buflen
  · have hbytes' : IvBytes cipher table d (whole ++ last) { gcm with ivmode := true } :=
      ⟨⟨hg.valid, hg.encrypts, hg.tables⟩, hg.mode, hg.pttotlen, hg.pieces⟩
    obtain ⟨hbytes, hmode⟩ := gcmAddIv_bytes hbytes' IV
    rw [if_pos hlong]
    refine ⟨_, rfl, hbytes, hmode.trans ?_⟩
    rw [← hflag, decide_eq_true hlong, Bool.or_true]
  · obtain ⟨hbytes, hmode⟩ := gcmAddIv_bytes hg.toIvBytes IV
    rw [if_neg hlong]
    refine ⟨_, rfl, hbytes, hmode.trans ?_⟩
    rw [← hflag, decide_eq_false hlong, Bool.or_false]

-- ---------------------------------------------------------------------------
-- The end of the IV
-- ---------------------------------------------------------------------------

theorem val_length {l : List Byte} (hlen : l.length < 2 ^ 61) :
    (Block.make fun x => if x < 8 then 0 else store64H (BitVec.ofNat 64 (8 * l.length)) (x - 8)).val =
      BitVec.ofNat 128 (8 * l.length) := by
  have hzero (x : Nat) : store64H 0 x = 0 := by simp [store64H]
  have h := val_lengths 0 (BitVec.ofNat 64 (8 * l.length))
  simp only [hzero] at h
  rw [h]
  apply BitVec.eq_of_toNat_eq
  rw [BitVec.toNat_append, BitVec.toNat_ofNat, BitVec.toNat_ofNat]
  simp
  omega

theorem hashRest_spec (hg : IvBytes cipher table d iv gcm) : ∃ hashed, hashed = (if gcm.buflen ≠ 0 then
      GcmState.multH { gcm.addBuf gcm.buflen with totlen := gcm.totlen + BitVec.ofNat 64 gcm.buflen * 8 }
    else gcm.addBuf gcm.buflen) ∧ Keyed cipher table d hashed ∧ hashed.pttotlen = 0 ∧
      hashed.totlen = BitVec.ofNat 64 (8 * iv.length) ∧ hashed.X.val = ghash (hashKey cipher) (blocks iv) := by
  obtain ⟨whole, last, rfl, hwhole, hlast, hlt, hX, hbuf, htotlen⟩ := hg.pieces
  have hXlast := val_xor_buf gcm hlast hbuf
  refine ⟨_, rfl, ?_, ?_, ?_, ?_⟩
  · split <;> exact ⟨hg.valid, hg.encrypts, hg.tables⟩
  · split <;> exact hg.pttotlen
  · rw [List.length_append, ← ofNat_add_mul, ← htotlen, hlast]
    split
    · rfl
    · rename_i hzero
      rw [not_not.mp hzero]
      exact (BitVec.add_zero _).symm
  · rw [Gcm.blocks_append hwhole]
    split
    · rename_i hpos
      have hnil : last ≠ [] := fun h => hpos (by rw [← hlast, h]; rfl)
      have hmult : Keyed cipher table d
          { gcm.addBuf gcm.buflen with totlen := gcm.totlen + BitVec.ofNat 64 gcm.buflen * 8 } :=
        ⟨hg.valid, hg.encrypts, hg.tables⟩
      rw [hmult.multH, Gcm.blocks_last hnil (by omega), Gcm.ghash_concat, ← hX, ← hXlast]
    · rename_i hzero
      have hnil : last = [] := List.eq_nil_of_length_eq_zero (hlast.trans (not_not.mp hzero))
      rw [hXlast, hnil, Gcm.blocks_nil, List.append_nil, ← hX]
      exact BitVec.xor_zero

theorem gcmEndIv_hashed (hg : IvState cipher table d iv gcm) (hlen : iv.length < 2 ^ 61)
    (hhash : gcm.ivmode = true ∨ gcm.buflen ≠ 12) : AadState cipher table d iv [] (gcmEndIv gcm) := by
  have hlength : iv.length ≠ 12 := by
    obtain ⟨whole, last, rfl, hwhole, hlast, hlt, -⟩ := hg.pieces
    rw [hg.ivmode, decide_eq_true_iff] at hhash
    rw [List.length_append] at hhash ⊢
    omega
  obtain ⟨hashed, hhashed, hkeyed, hpttotlen, htotlen, hX⟩ := hashRest_spec hg.toIvBytes
  obtain ⟨mixed, hmixed⟩ : ∃ mixed, mixed = GcmState.addBuf { hashed with
      buf := Block.make fun x => if x < 8 then 0 else store64H hashed.totlen (x - 8) } 16 := ⟨_, rfl⟩
  have hkeyed' : Keyed cipher table d mixed := by
    rw [hmixed]
    exact ⟨hkeyed.valid, hkeyed.encrypts, hkeyed.tables⟩
  have hj0 : mixed.multH.X.val = Gcm.j0 cipher iv := by
    rw [Gcm.j0, if_neg hlength, Gcm.ghash_concat, ← val_length hlen, ← htotlen, ← hX, hkeyed'.multH, hmixed,
      val_xor_buf _ (Vector.length_toList ..) fun _ _ => rfl]
    rfl
  have hstep : gcmEndIv gcm = { mixed.multH with
      Y := mixed.multH.X, X := .zero, Y_0 := mixed.multH.X, buf := .zero, buflen := 0, totlen := 0, mode := .aad } := by
    rw [gcmEndIv, if_pos hhash, hmixed, hhashed]
    rfl
  rw [hstep]
  refine ⟨hkeyed'.of_eq rfl rfl rfl, rfl, ?_, hj0, hj0, ?_, Nat.zero_lt_succ 15, rfl⟩
  · rw [← hpttotlen, hmixed]
    rfl
  · show Hashing _ _ _ _ Block.zero.val
    rw [Block.val_zero]
    exact Hashing.start (hashKey cipher) []

theorem gcmEndIv_counter (hg : IvState cipher table d iv gcm) (hhash : ¬ (gcm.ivmode = true ∨ gcm.buflen ≠ 12)) :
    AadState cipher table d iv [] (gcmEndIv gcm) := by
  obtain ⟨whole, last, rfl, hwhole, hlast, hlt, hX, hbuf, htotlen⟩ := hg.pieces
  obtain ⟨hshort, h12⟩ := not_or.mp hhash
  have h12 := not_not.mp h12
  have hwhole : whole = [] := by
    rw [hg.ivmode, decide_eq_true_iff, List.length_append] at hshort
    exact List.eq_nil_of_length_eq_zero (by omega)
  subst hwhole
  have hlength : ([] ++ last).length = 12 := by rw [List.nil_append, hlast, h12]
  have hY : (Block.make fun x => if x < 12 then gcm.buf.byte x else if x = 15 then 1 else 0).val =
      Gcm.j0 cipher ([] ++ last) := by
    rw [Gcm.j0, if_pos hlength, List.nil_append]
    refine Block.val_make _ fun i hi => ?_
    split
    · rw [List.getD_append _ _ _ _ (by omega)]
      exact hbuf i (by omega)
    · rw [List.getD_append_right _ _ _ _ (by omega), hlast, h12]
      have hend : i = 12 ∨ i = 13 ∨ i = 14 ∨ i = 15 := by omega
      rcases hend with rfl | rfl | rfl | rfl <;> rfl
  have hzero : gcm.X.val = 0 := hX
  have hstep : gcmEndIv gcm = { gcm with
      Y := Block.make fun x => if x < 12 then gcm.buf.byte x else if x = 15 then 1 else 0
      Y_0 := Block.make fun x => if x < 12 then gcm.buf.byte x else if x = 15 then 1 else 0
      buf := .zero, buflen := 0, totlen := 0, mode := .aad } := by
    rw [gcmEndIv, if_neg hhash]
  rw [hstep]
  refine ⟨⟨hg.valid, hg.encrypts, hg.tables⟩, rfl, hg.pttotlen, hY, hY, ?_, Nat.zero_lt_succ 15, rfl⟩
  show Hashing _ _ _ _ gcm.X.val
  rw [hzero]
  exact Hashing.start (hashKey cipher) []

theorem gcmEndIv_spec (hg : IvState cipher table d iv gcm) (hlen : iv.length < 2 ^ 61) :
    AadState cipher table d iv [] (gcmEndIv gcm) := by
  by_cases hhash : gcm.ivmode = true ∨ gcm.buflen ≠ 12
  · exact gcmEndIv_hashed hg hlen hhash
  · exact gcmEndIv_counter hg hhash

-- ---------------------------------------------------------------------------
-- Additional data
-- ---------------------------------------------------------------------------

theorem gcmAddAadByte_spec (hg : AadState cipher table d iv aad gcm) (b : Byte) :
    AadState cipher table d iv (aad ++ [b]) (gcmAddAadByte gcm b) := by
  obtain ⟨next, hnext⟩ : ∃ next, next =
    { gcm with X := gcm.X.put gcm.buflen (gcm.X.byte gcm.buflen ^^^ b), buflen := gcm.buflen + 1 } := ⟨_, rfl⟩
  have hkeyed : Keyed cipher table d next := by
    rw [hnext]
    exact ⟨hg.valid, hg.encrypts, hg.tables⟩
  have hhashing : Hashing (hashKey cipher) [] (aad ++ [b]) (gcm.buflen + 1) next.X.val := by
    rw [hnext]
    show Hashing _ _ _ _ (gcm.X.put gcm.buflen (gcm.X.byte gcm.buflen ^^^ b)).val
    rw [Block.val_put_xor _ _ hg.buflen]
    exact hg.hashing.byte hg.buflen b
  obtain ⟨-, hle, -⟩ := hg.hashing.length
  by_cases hfull : gcm.buflen + 1 = 16
  · have hstep : gcmAddAadByte gcm b = { next.multH with buflen := 0, totlen := gcm.totlen + 128 } := by
      simp only [gcmAddAadByte, hfull, if_true, hnext]
      rfl
    have hwhole : Hashing (hashKey cipher) [] (aad ++ [b]) 0 next.multH.X.val := by
      rw [hkeyed.multH]
      exact (hfull ▸ hhashing).whole
    rw [hstep]
    refine ⟨hkeyed.of_eq rfl rfl rfl, hnext ▸ hg.mode, hnext ▸ hg.pttotlen, hnext ▸ hg.counter, hnext ▸ hg.first, hwhole,
      Nat.zero_lt_succ 15, ?_⟩
    have hsum : (aad ++ [b]).length - 0 = aad.length - gcm.buflen + 16 := by
      rw [List.length_append, List.length_singleton]
      omega
    rw [hsum, ← ofNat_add_block, ← hg.totlen]
  · have hstep : gcmAddAadByte gcm b = next := by
      simp only [gcmAddAadByte, hfull, if_false, hnext]
    have hbuflen : next.buflen = gcm.buflen + 1 := by rw [hnext]
    rw [hstep]
    refine ⟨hkeyed, hnext ▸ hg.mode, hnext ▸ hg.pttotlen, hnext ▸ hg.counter, hnext ▸ hg.first, hbuflen ▸ hhashing, ?_, ?_⟩
    · have hlt := hg.buflen
      omega
    · have hsub : (aad ++ [b]).length - (gcm.buflen + 1) = aad.length - gcm.buflen := by
        rw [List.length_append, List.length_singleton]
        omega
      rw [hbuflen, hsub, ← hg.totlen, hnext]

theorem gcmAddAadBytes_spec (hg : AadState cipher table d iv aad gcm) (adata : List Byte) :
    AadState cipher table d iv (aad ++ adata) (adata.foldl gcmAddAadByte gcm) := by
  induction adata generalizing aad gcm with
  | nil => rwa [List.append_nil]
  | cons b adata ih =>
    have h := ih (gcmAddAadByte_spec hg b)
    rwa [List.append_assoc] at h

theorem gcmAddAad_aad (hg : AadState cipher table d iv aad gcm) (adata : List Byte) :
    ∃ next, gcmAddAad table gcm adata = .ok next ∧ AadState cipher table d iv (aad ++ adata) next := by
  refine ⟨_, ?_, gcmAddAadBytes_spec hg adata⟩
  have hlt := hg.buflen
  have hle : ¬ 16 < gcm.buflen := by omega
  have hmode : ¬ (gcm.mode ≠ .aad ∨ 16 ≤ gcm.buflen) := by simp [hg.mode, hlt]
  have hiv : ¬ gcm.mode = .iv := by rw [hg.mode]; decide
  simp only [gcmAddAad, hle, if_false, hg.valid, hiv, hmode]
  rfl

/-- The first additional data, be it none, ends the IV. -/
theorem gcmAddAad_iv (hg : IvState cipher table d iv gcm) (hlen : iv.length < 2 ^ 61) (adata : List Byte) :
    ∃ next, gcmAddAad table gcm adata = .ok next ∧ AadState cipher table d iv adata next := by
  have haad := gcmEndIv_spec hg hlen
  refine ⟨_, ?_, gcmAddAadBytes_spec haad adata⟩
  obtain ⟨-, -, -, -, -, hlt, -⟩ := hg.pieces
  have hle : ¬ 16 < gcm.buflen := by omega
  have hmode : ¬ ((gcmEndIv gcm).mode ≠ .aad ∨ 16 ≤ (gcmEndIv gcm).buflen) := by simp [haad.mode, haad.buflen]
  simp only [gcmAddAad, hle, if_false, hg.valid, hg.mode, if_true, hmode]
  rfl

-- ---------------------------------------------------------------------------
-- Text
-- ---------------------------------------------------------------------------

theorem gcmEndAad_spec (hg : AadState cipher table d iv aad gcm) :
    TextState cipher table d iv aad [] (gcmEndAad d gcm) := by
  obtain ⟨-, hle, -⟩ := hg.hashing.length
  obtain ⟨hashed, hhashed⟩ : ∃ hashed, hashed = (if gcm.buflen ≠ 0 then
    GcmState.multH { gcm with totlen := gcm.totlen + BitVec.ofNat 64 gcm.buflen * 8 } else gcm) := ⟨_, rfl⟩
  have hkeyed : Keyed cipher table d hashed := by
    rw [hhashed]
    split <;> exact ⟨hg.valid, hg.encrypts, hg.tables⟩
  have hsame : hashed.Y = gcm.Y ∧ hashed.Y_0 = gcm.Y_0 ∧ hashed.pttotlen = gcm.pttotlen := by
    rw [hhashed]
    split <;> exact ⟨rfl, rfl, rfl⟩
  have htotlen : hashed.totlen = BitVec.ofNat 64 (8 * aad.length) := by
    have hsum : aad.length = aad.length - gcm.buflen + gcm.buflen := by omega
    rw [hsum, ← ofNat_add_mul, ← hg.totlen, hhashed]
    split
    · rfl
    · rename_i hzero
      rw [not_not.mp hzero]
      exact (BitVec.add_zero _).symm
  have hX : hashed.X.val = ghash (hashKey cipher) (blocks aad) := by
    rw [hhashed]
    split
    · rename_i hpos
      have hmult : Keyed cipher table d { gcm with totlen := gcm.totlen + BitVec.ofNat 64 gcm.buflen * 8 } :=
        ⟨hg.valid, hg.encrypts, hg.tables⟩
      rw [hmult.multH]
      exact hg.hashing.complete hpos
    · rename_i hzero
      exact (not_not.mp hzero ▸ hg.hashing).completed
  have hstep : gcmEndAad d gcm = { nextKeyStream d hashed with buflen := 0, mode := .text } := by
    rw [gcmEndAad, hhashed]
  have hcounter : (incrementCounter hashed.Y [15, 14, 13, 12]).val =
      Gcm.counter (Gcm.j0 cipher iv) ((([] : List Byte).length - 0) / 16) :=
    incrementCounter_j0 ((congrArg Block.val hsame.1).trans hg.counter)
  rw [hstep]
  refine ⟨hkeyed.of_eq rfl rfl rfl, rfl, ?_, hcounter, rfl, ?_, htotlen, hsame.2.2.trans hg.pttotlen⟩
  · exact (congrArg Block.val hsame.2.1).trans hg.first
  · show Hashing _ _ _ _ hashed.X.val
    rw [hX]
    exact Hashing.start _ _

theorem nextBlock_spec (hg : TextState cipher table d iv aad ciphertext gcm) (hfull : gcm.buflen = 16) :
    TextState cipher table d iv aad ciphertext
      { nextKeyStream d (GcmState.multH { gcm with pttotlen := gcm.pttotlen + 128 }) with buflen := 0 } := by
  obtain ⟨next, hnext⟩ : ∃ next, next = { gcm with pttotlen := gcm.pttotlen + 128 } := ⟨_, rfl⟩
  have hkeyed : Keyed cipher table d next := by
    rw [hnext]
    exact ⟨hg.valid, hg.encrypts, hg.tables⟩
  obtain ⟨-, hle, -⟩ := hg.hashing.length
  rw [← hnext]
  have hcounter : (incrementCounter next.Y [15, 14, 13, 12]).val =
      Gcm.counter (Gcm.j0 cipher iv) ((ciphertext.length - 0) / 16) := by
    have hdiv : (ciphertext.length - 0) / 16 = (ciphertext.length - gcm.buflen) / 16 + 1 := by omega
    rw [hdiv]
    exact incrementCounter_counter (hnext ▸ hg.counter)
  refine ⟨hkeyed.of_eq rfl rfl rfl, hnext ▸ hg.mode, hnext ▸ hg.first, hcounter, rfl, ?_, hnext ▸ hg.totlen, ?_⟩
  · show Hashing _ _ _ _ next.multH.X.val
    rw [hkeyed.multH, congrArg GcmState.X hnext]
    exact (hfull ▸ hg.hashing).whole
  · have hsum : ciphertext.length - 0 = ciphertext.length - gcm.buflen + 16 := by omega
    rw [hsum, ← ofNat_add_block, ← hg.pttotlen]
    exact congrArg GcmState.pttotlen hnext

theorem gcmProcessByte_spec (hg : TextState cipher table d iv aad ciphertext gcm) (direction : Direction) (b : Byte) :
    (gcmProcessByte d direction gcm b).2 = b ^^^ Gcm.keyStream cipher iv ciphertext.length ∧
      TextState cipher table d iv aad
        (ciphertext ++ [if direction = .encrypt then (gcmProcessByte d direction gcm b).2 else b])
        (gcmProcessByte d direction gcm b).1 := by
  obtain ⟨room, hroom⟩ : ∃ room, room = (if gcm.buflen = 16 then
      { nextKeyStream d (GcmState.multH { gcm with pttotlen := gcm.pttotlen + 128 }) with buflen := 0 }
    else gcm) := ⟨_, rfl⟩
  have hstate : TextState cipher table d iv aad ciphertext room := by
    rw [hroom]
    split
    · exact nextBlock_spec hg ‹_›
    · exact hg
  obtain ⟨hle16, hle, hmod⟩ := hstate.hashing.length
  have hlt : room.buflen < 16 := by
    obtain ⟨hle16', -⟩ := hg.hashing.length
    rw [hroom]
    split
    · exact Nat.zero_lt_succ 15
    · omega
  have hout : (gcmProcessByte d direction gcm b).2 = b ^^^ room.buf.byte room.buflen := by
    rw [gcmProcessByte, hroom]
  have hkey : room.buf.byte room.buflen = Gcm.keyStream cipher iv ciphertext.length := by
    have hdiv : ciphertext.length / 16 = (ciphertext.length - room.buflen) / 16 := by omega
    have hrem : ciphertext.length % 16 = room.buflen := by omega
    rw [Gcm.keyStream, hdiv, hrem, ← hstate.counter, ← hstate.encrypt_val, ← hstate.stream, Block.byteOf_val _ hlt]
  refine ⟨by rw [hout, hkey], ?_⟩
  obtain ⟨ct, hct⟩ : ∃ ct, ct = (if direction = .encrypt then (gcmProcessByte d direction gcm b).2 else b) := ⟨_, rfl⟩
  have hstep : (gcmProcessByte d direction gcm b).1 =
      { room with X := room.X.put room.buflen (room.X.byte room.buflen ^^^ ct), buflen := room.buflen + 1 } := by
    rw [hct, hout, gcmProcessByte, hroom]
  rw [← hct, hstep]
  have hsub : (ciphertext ++ [ct]).length - (room.buflen + 1) = ciphertext.length - room.buflen := by
    rw [List.length_append, List.length_singleton]
    omega
  refine ⟨hstate.toKeyed.of_eq rfl rfl rfl, hstate.mode, hstate.first, hsub ▸ hstate.counter, hstate.stream, ?_,
    hstate.totlen, hsub ▸ hstate.pttotlen⟩
  show Hashing _ _ _ _ (room.X.put room.buflen (room.X.byte room.buflen ^^^ ct)).val
  rw [Block.val_put_xor _ _ hlt]
  exact hstate.hashing.byte hlt ct

theorem gcmProcessBytes_spec (hg : TextState cipher table d iv aad ciphertext gcm) (direction : Direction)
    (input : List Byte) :
    (gcmProcessBytes d direction gcm input).2 = Gcm.cryptFrom cipher iv ciphertext.length input ∧
      TextState cipher table d iv aad
        (ciphertext ++ if direction = .encrypt then (gcmProcessBytes d direction gcm input).2 else input)
        (gcmProcessBytes d direction gcm input).1 := by
  induction input generalizing ciphertext gcm with
  | nil => exact ⟨rfl, by simpa [gcmProcessBytes] using hg⟩
  | cons b input ih =>
    obtain ⟨hout, hstate⟩ := gcmProcessByte_spec hg direction b
    obtain ⟨hrest, hstate'⟩ := ih hstate
    rw [List.length_append, List.length_singleton] at hrest
    refine ⟨?_, ?_⟩
    · rw [Gcm.cryptFrom_cons, ← hrest, ← hout]
      rfl
    · have happend : ciphertext ++ (if direction = .encrypt then (gcmProcessBytes d direction gcm (b :: input)).2
            else b :: input) =
          ciphertext ++ [if direction = .encrypt then (gcmProcessByte d direction gcm b).2 else b] ++
            if direction = .encrypt then (gcmProcessBytes d direction (gcmProcessByte d direction gcm b).1 input).2
            else input := by
        cases direction <;> simp [gcmProcessBytes]
      rw [happend]
      exact hstate'

theorem gcmProcess_text (hg : TextState cipher table d iv aad ciphertext gcm) (direction : Direction) (input : List Byte) :
    ∃ next, gcmProcess table gcm direction input = .ok (next, Gcm.cryptFrom cipher iv ciphertext.length input) ∧
      TextState cipher table d iv aad
        (ciphertext ++ if direction = .encrypt then Gcm.cryptFrom cipher iv ciphertext.length input else input) next := by
  obtain ⟨hout, hstate⟩ := gcmProcessBytes_spec hg direction input
  obtain ⟨hle, -⟩ := hg.hashing.length
  have haad : ¬ gcm.mode = .aad := by rw [hg.mode]; decide
  rw [hout] at hstate
  refine ⟨_, ?_, hstate⟩
  simp only [gcmProcess, Nat.not_lt.mpr hle, hg.valid, ok_bind, haad, if_false]
  rw [if_neg (not_not.mpr hg.mode), ← hout]

theorem gcmProcess_aad (hg : AadState cipher table d iv aad gcm) (direction : Direction) (input : List Byte) :
    ∃ next, gcmProcess table gcm direction input = .ok (next, Gcm.cryptFrom cipher iv 0 input) ∧
      TextState cipher table d iv aad ([] ++ if direction = .encrypt then Gcm.cryptFrom cipher iv 0 input else input)
        next := by
  have htext := gcmEndAad_spec hg
  obtain ⟨hout, hstate⟩ := gcmProcessBytes_spec htext direction input
  rw [List.length_nil] at hout
  have hlt := hg.buflen
  have hle : ¬ 16 < gcm.buflen := by omega
  rw [hout] at hstate
  refine ⟨_, ?_, hstate⟩
  simp only [gcmProcess, hle, hg.valid, ok_bind, hg.mode, if_true, if_false]
  rw [if_neg (not_not.mpr htext.mode), ← hout]

-- ---------------------------------------------------------------------------
-- The tag
-- ---------------------------------------------------------------------------

theorem gcmDone_spec (hg : TextState cipher table d iv aad ciphertext gcm) (taglen : Nat) :
    (gcmDone table gcm taglen).map Prod.snd = .ok ((Gcm.tagWith cipher iv aad ciphertext).take taglen) := by
  obtain ⟨hle16, hle, -⟩ := hg.hashing.length
  obtain ⟨hashed, hhashed⟩ : ∃ hashed, hashed = (if gcm.buflen ≠ 0 then
    GcmState.multH { gcm with pttotlen := gcm.pttotlen + BitVec.ofNat 64 gcm.buflen * 8 } else gcm) := ⟨_, rfl⟩
  have hkeyed : Keyed cipher table d hashed := by
    rw [hhashed]
    split <;> exact ⟨hg.valid, hg.encrypts, hg.tables⟩
  have hsame : hashed.Y_0 = gcm.Y_0 ∧ hashed.totlen = gcm.totlen := by
    rw [hhashed]
    split <;> exact ⟨rfl, rfl⟩
  have hpttotlen : hashed.pttotlen = BitVec.ofNat 64 (8 * ciphertext.length) := by
    have hsum : ciphertext.length = ciphertext.length - gcm.buflen + gcm.buflen := by omega
    rw [hsum, ← ofNat_add_mul, ← hg.pttotlen, hhashed]
    split
    · rfl
    · rename_i hzero
      rw [not_not.mp hzero]
      exact (BitVec.add_zero _).symm
  have hX : hashed.X.val = ghash (hashKey cipher) (blocks aad ++ blocks ciphertext) := by
    rw [hhashed]
    split
    · rename_i hpos
      have hmult : Keyed cipher table d { gcm with pttotlen := gcm.pttotlen + BitVec.ofNat 64 gcm.buflen * 8 } :=
        ⟨hg.valid, hg.encrypts, hg.tables⟩
      rw [hmult.multH]
      exact hg.hashing.complete hpos
    · rename_i hzero
      exact (not_not.mp hzero ▸ hg.hashing).completed
  obtain ⟨mixed, hmixed⟩ : ∃ mixed : GcmState κ, mixed = { hashed with
      buf := Block.make fun x => if x < 8 then store64H hashed.totlen x else store64H hashed.pttotlen (x - 8)
      X := hashed.X.xor
        (Block.make fun x => if x < 8 then store64H hashed.totlen x else store64H hashed.pttotlen (x - 8)) } := ⟨_, rfl⟩
  have hkeyed' : Keyed cipher table d mixed := by
    rw [hmixed]
    exact ⟨hkeyed.valid, hkeyed.encrypts, hkeyed.tables⟩
  have hX' : mixed.multH.X.val =
      ghash (hashKey cipher) (blocks aad ++ blocks ciphertext ++ [Gcm.lengths aad ciphertext]) := by
    rw [hkeyed'.multH, Gcm.ghash_concat, ← hX, Gcm.lengths, ← hg.totlen, ← hpttotlen, ← hsame.2, ← val_lengths,
      ← Block.val_xor, hmixed]
  have hY : (d.ecbEncrypt mixed.Y_0 mixed.K).val = Gcm.encryptBlock cipher (Gcm.j0 cipher iv) := by
    rw [hkeyed'.encrypt_val, ← hg.first, ← hsame.1, hmixed]
  have htag : ((d.ecbEncrypt mixed.Y_0 mixed.K).xor mixed.multH.X).toList = Gcm.tagWith cipher iv aad ciphertext := by
    rw [← Block.ofBlock_val, Block.val_xor, hX', hY, Gcm.tagWith, BitVec.xor_comm]
  have hdone : gcmDone table gcm taglen = .ok ({ mixed.multH with buf := d.ecbEncrypt mixed.Y_0 mixed.K },
      ((d.ecbEncrypt mixed.Y_0 mixed.K).xor mixed.multH.X).toList.take taglen) := by
    simp only [gcmDone, Nat.not_lt.mpr hle16, if_false, hg.valid, hg.mode, ne_eq, not_true, hmixed, hhashed]
    rfl
  rw [hdone, ← htag]
  rfl

-- ---------------------------------------------------------------------------
-- Any calls
-- ---------------------------------------------------------------------------

end

def GcmCall.ivLength : GcmCall → Nat
  | .addIv IV => IV.length
  | _ => 0

def Given.ivLength : Given → Nat
  | .iv IV => IV.length
  | _ => 0

section
variable {κ : Type} {cipher : List Byte → List Byte} {table : CipherTable κ} {d : CipherDescriptor κ}
variable {gcm : GcmState κ} {given : Given}

/-- Each call does what it is for, or is refused when it comes out of order. -/
theorem gcmCall_spec (hg : given.Holds cipher table d gcm) (c : GcmCall)
    (hlen : given.ivLength + c.ivLength + 15 < 2 ^ 32) :
    match Given.call cipher given c with
    | .ok (next, output) => next.ivLength ≤ given.ivLength + c.ivLength ∧
        ∃ state, gcmCall table gcm c = .ok (state, output) ∧ next.Holds cipher table d state
    | .error err => gcmCall table gcm c = .error err := by
  cases given with
  | iv IV =>
    have hg : IvState cipher table d IV gcm := hg
    obtain ⟨-, -, -, -, -, hlt, -⟩ := hg.pieces
    cases c with
    | addIv more =>
      obtain ⟨next, hcall, hnext⟩ := gcmAddIv_spec hg hlen
      refine ⟨Nat.le_of_eq List.length_append, next, ?_, hnext⟩
      rw [gcmCall, hcall]
      rfl
    | addAad adata =>
      have hshort : IV.length + 0 + 15 < 2 ^ 32 := hlen
      obtain ⟨next, hcall, hnext⟩ := gcmAddAad_iv hg (by omega) adata
      refine ⟨Nat.zero_le _, next, ?_, hnext⟩
      rw [gcmCall, hcall]
      rfl
    | process direction input =>
      have hle : ¬ 16 < gcm.buflen := by omega
      have haad : ¬ gcm.mode = .aad := by rw [hg.mode]; decide
      have htext : gcm.mode ≠ .text := by rw [hg.mode]; decide
      simp only [Given.call, gcmCall, gcmProcess, hle, if_false, hg.valid, ok_bind, haad]
      exact if_pos htext
  | aad IV adata =>
    have hg : AadState cipher table d IV adata gcm := hg
    cases c with
    | addIv more =>
      have hiv : gcm.mode ≠ .iv := by rw [hg.mode]; decide
      simp only [Given.call, gcmCall, gcmAddIv, hiv, ne_eq, not_false_eq_true, if_true]
      rfl
    | addAad more =>
      obtain ⟨next, hcall, hnext⟩ := gcmAddAad_aad hg more
      refine ⟨Nat.zero_le _, next, ?_, hnext⟩
      rw [gcmCall, hcall]
      rfl
    | process direction input =>
      obtain ⟨next, hcall, hnext⟩ := gcmProcess_aad hg direction input
      exact ⟨Nat.zero_le _, next, hcall, hnext⟩
  | text IV adata ciphertext =>
    have hg : TextState cipher table d IV adata ciphertext gcm := hg
    obtain ⟨hle, -⟩ := hg.hashing.length
    cases c with
    | addIv more =>
      have hiv : gcm.mode ≠ .iv := by rw [hg.mode]; decide
      simp only [Given.call, gcmCall, gcmAddIv, hiv, ne_eq, not_false_eq_true, if_true]
      rfl
    | addAad more =>
      have hiv : ¬ gcm.mode = .iv := by rw [hg.mode]; decide
      have haad : gcm.mode ≠ .aad := by rw [hg.mode]; decide
      simp only [Given.call, gcmCall, gcmAddAad, Nat.not_lt.mpr hle, hg.valid, ok_bind, hiv, if_false]
      rw [if_pos (.inl haad)]
      rfl
    | process direction input =>
      obtain ⟨next, hcall, hnext⟩ := gcmProcess_text hg direction input
      exact ⟨Nat.zero_le _, next, hcall, hnext⟩

theorem gcmCalls_spec (hg : given.Holds cipher table d gcm) (calls : List GcmCall)
    (hlen : given.ivLength + (calls.map GcmCall.ivLength).sum + 15 < 2 ^ 32) :
    (gcmCalls table gcm calls).2 = (Given.calls cipher given calls).2 ∧
      (Given.calls cipher given calls).1.Holds cipher table d (gcmCalls table gcm calls).1 := by
  induction calls generalizing given gcm with
  | nil => exact ⟨rfl, hg⟩
  | cons c calls ih =>
    rw [List.map_cons, List.sum_cons] at hlen
    have hcall := gcmCall_spec hg c (by omega)
    cases hstep : Given.call cipher given c with
    | ok result =>
      obtain ⟨next, output⟩ := result
      simp only [hstep] at hcall
      obtain ⟨hle, state, hrun, hnext⟩ := hcall
      obtain ⟨hresults, hlast⟩ := ih hnext (by omega)
      simp only [gcmCalls, Given.calls, hstep, hrun]
      exact ⟨by rw [hresults], hlast⟩
    | error err =>
      simp only [hstep] at hcall
      obtain ⟨hresults, hlast⟩ := ih hg (by omega)
      simp only [gcmCalls, Given.calls, hstep, hcall]
      exact ⟨by rw [hresults], hlast⟩

theorem gcmDone_given (hg : given.Holds cipher table d gcm) (taglen : Nat) :
    (gcmDone table gcm taglen).map Prod.snd = (given.tag cipher).map (List.take taglen) := by
  cases given with
  | iv IV =>
    have hg : IvState cipher table d IV gcm := hg
    obtain ⟨-, -, -, -, -, hlt, -⟩ := hg.pieces
    have hle : ¬ 16 < gcm.buflen := by omega
    have htext : gcm.mode ≠ .text := by rw [hg.mode]; decide
    simp only [gcmDone, hle, if_false, hg.valid, ok_bind, Given.tag]
    rw [if_pos htext]
    rfl
  | aad IV adata =>
    have hg : AadState cipher table d IV adata gcm := hg
    have hlt := hg.buflen
    have hle : ¬ 16 < gcm.buflen := by omega
    have htext : gcm.mode ≠ .text := by rw [hg.mode]; decide
    simp only [gcmDone, hle, if_false, hg.valid, ok_bind, Given.tag]
    rw [if_pos htext]
    rfl
  | text IV adata ciphertext => exact gcmDone_spec hg taglen

end

end EthernetOta.Tomcrypt
