import EthernetOta.Lib.Bytes

/-!
# The server that is searched for

`udp_server_recv` and the address it prints. A datagram lies at the start of a
memory, since `strncmp` does not know where it ends. What runs out of a buffer,
or writes to one that was not allocated, is a fault.
-/

namespace EthernetOta.Firmware

def ascii (str : String) : List Byte := str.toList.map fun c => .ofNat 8 c.toNat

def magicString : List Byte := ascii "HF-A11ASSISTHREAD"

def deviceInfo : List Byte := ascii ",0004251CA003,SAM4S-XPlained-PRO"

-- ---------------------------------------------------------------------------
-- The address in text
-- ---------------------------------------------------------------------------

inductive NtoaError
  /-- A write behind `inv`. -/
  | overrun
  /-- The result is `NULL`. -/
  | null
  deriving DecidableEq, Repr

/-- The `do` loop: what it writes to `inv`, which has so much room left. -/
def inv : Nat → Byte → Except NtoaError (List Byte)
  | 0, _ => .error .overrun
  | room + 1, ap =>
    let rem := ap % 10
    let ap := ap / 10
    if ap = 0 then .ok [0x30 + rem]
    else do
      let rest ← inv room ap
      .ok ((0x30 + rem) :: rest)

/-- `*rp++ = c` -/
def put (buflen : Nat) (buf : List Byte) (c : Byte) : Except NtoaError (List Byte) :=
  if buflen ≤ buf.length then .error .null else .ok (buf ++ [c])

def putOctet (buflen : Nat) (buf : List Byte) (ap : Byte) : Except NtoaError (List Byte) := do
  let digits ← inv 3 ap
  let buf ← digits.reverse.foldlM (put buflen) buf
  put buflen buf 0x2E

def octets (addr : Word) : List Byte :=
  [addr.extractLsb' 0 8, addr.extractLsb' 8 8, addr.extractLsb' 16 8, addr.extractLsb' 24 8]

/-- The last dot becomes the end of the string. -/
def ipaddrNtoaR (addr : Word) (buflen : Nat) : Except NtoaError (List Byte) := do
  let buf ← (octets addr).foldlM (putOctet buflen) []
  .ok buf.dropLast

def ipaddrNtoa (addr : Word) : Except NtoaError (List Byte) := ipaddrNtoaR addr 16

-- ---------------------------------------------------------------------------
-- The server
-- ---------------------------------------------------------------------------

/-- `tbuf` and the payload of `send_buf` have so many bytes. -/
def tbufSize : Nat := 64

/-- The reply, if there is one. `allocated` is whether `pbuf_alloc` has a buffer. -/
def udpServerRecv (gLocalIp : Word) (allocated : Bool) (data : Mem) : Option (Option (List Byte)) :=
  if data.slice 0 magicString.length = magicString then
    match ipaddrNtoa gLocalIp with
    | .error _ => none
    | .ok ip =>
      let tbuf := ip ++ deviceInfo
      if tbufSize < tbuf.length + 1 ∨ allocated = false then none else some (some tbuf)
  else some none

-- ---------------------------------------------------------------------------
-- What it prints
-- ---------------------------------------------------------------------------

def decimal (ap : Byte) : List Char := Nat.toDigits 10 ap.toNat

def dotted (addr : Word) : List Char := ['.'].intercalate ((octets addr).map decimal)

def bytesOf (str : List Char) : List Byte := str.map fun c => .ofNat 8 c.toNat

@[simp] theorem bytesOf_append (a b : List Char) : bytesOf (a ++ b) = bytesOf a ++ bytesOf b := List.map_append

@[simp] theorem length_bytesOf (a : List Char) : (bytesOf a).length = a.length := List.length_map _

theorem digit_byte (h : d < 10) : BitVec.ofNat 8 (Nat.digitChar d).toNat = 0x30 + BitVec.ofNat 8 d := by
  rw [Nat.toNat_digitChar_of_lt_ten h, BitVec.ofNat_add]
  rfl

theorem mod_ten (ap : Byte) : ap % 10 = BitVec.ofNat 8 (ap.toNat % 10) := by
  apply BitVec.eq_of_toNat_eq
  have := ap.isLt
  simp
  omega

theorem toNat_div_ten (ap : Byte) : (ap / 10).toNat = ap.toNat / 10 := by
  simp

theorem div_ten_eq_zero (ap : Byte) : ap / 10 = 0 ↔ ap.toNat < 10 := by
  rw [← BitVec.toNat_inj, toNat_div_ten]
  simp

theorem inv_succ (room : Nat) (ap : Byte) : inv (room + 1) ap =
    if ap / 10 = 0 then .ok [0x30 + ap % 10] else (inv room (ap / 10)).map ((0x30 + ap % 10) :: ·) := rfl

theorem inv_eq (h : ap.toNat < 10 ^ room) (hroom : 0 < room) : inv room ap = .ok (bytesOf (decimal ap)).reverse := by
  induction room generalizing ap with
  | zero => exact absurd hroom (Nat.lt_irrefl 0)
  | succ room ih =>
    have hlast : BitVec.ofNat 8 (Nat.digitChar (ap.toNat % 10)).toNat = 0x30 + ap % 10 := by
      rw [digit_byte (Nat.mod_lt _ (by decide)), mod_ten]
    rw [inv_succ, decimal, Nat.toDigits_eq_if (by decide), ← hlast]
    by_cases hlt : ap.toNat < 10
    · rw [if_pos hlt, if_pos ((div_ten_eq_zero ap).mpr hlt), Nat.mod_eq_of_lt hlt]
      rfl
    · have hpow : 10 ^ (room + 1) = 10 ^ room * 10 := Nat.pow_succ _ _
      have hroom : 0 < room := by
        rcases room with - | room
        · omega
        · exact Nat.succ_pos room
      have hdiv : (ap / 10).toNat < 10 ^ room := by
        rw [toNat_div_ten]
        omega
      rw [if_neg hlt, if_neg (mt (div_ten_eq_zero ap).mp hlt), ih hdiv hroom, decimal, toNat_div_ten]
      simp [bytesOf, Except.map]

theorem length_decimal (ap : Byte) : (decimal ap).length ≤ 3 :=
  (Nat.length_toDigits_le_iff (by decide) (by decide)).mpr (Nat.lt_trans ap.isLt (by decide))

theorem foldlM_put {buf l : List Byte} (h : buf.length + l.length ≤ buflen) : l.foldlM (put buflen) buf = .ok (buf ++ l) := by
  induction l generalizing buf with
  | nil => simp [pure, Except.pure]
  | cons c l ih =>
    rw [List.length_cons] at h
    have hput : put buflen buf c = .ok (buf ++ [c]) := if_neg (by omega)
    have hrest : (buf ++ [c]).length + l.length ≤ buflen := by
      rw [List.length_append, List.length_singleton]
      omega
    rw [List.foldlM_cons, hput]
    exact (ih hrest).trans (by rw [List.append_assoc, List.singleton_append])

theorem putOctet_eq (ap : Byte) (h : buf.length + 4 ≤ buflen) :
    putOctet buflen buf ap = .ok (buf ++ bytesOf (decimal ap ++ ['.'])) := by
  have hlen := length_decimal ap
  have hinv : inv 3 ap = .ok (bytesOf (decimal ap)).reverse :=
    inv_eq (Nat.lt_trans ap.isLt (by decide)) (by decide)
  have hdigits : (bytesOf (decimal ap)).foldlM (put buflen) buf = .ok (buf ++ bytesOf (decimal ap)) :=
    foldlM_put (by rw [length_bytesOf]; omega)
  have hdot : put buflen (buf ++ bytesOf (decimal ap)) 0x2E = .ok (buf ++ bytesOf (decimal ap) ++ [0x2E]) :=
    if_neg (by rw [List.length_append, length_bytesOf]; omega)
  unfold putOctet
  rw [hinv]
  simp only [bind, Except.bind, List.reverse_reverse, hdigits, hdot, bytesOf_append, List.append_assoc]
  rfl

theorem foldlM_putOctet {buf l : List Byte} (h : buf.length + 4 * l.length ≤ buflen) :
    l.foldlM (putOctet buflen) buf = .ok (buf ++ bytesOf (l.flatMap fun ap => decimal ap ++ ['.'])) := by
  induction l generalizing buf with
  | nil => simp [pure, Except.pure, bytesOf]
  | cons ap l ih =>
    rw [List.length_cons] at h
    have hlen := length_decimal ap
    have hrest : (buf ++ bytesOf (decimal ap ++ ['.'])).length + 4 * l.length ≤ buflen := by
      rw [List.length_append, length_bytesOf, List.length_append, List.length_singleton]
      omega
    rw [List.foldlM_cons, putOctet_eq ap (by omega)]
    refine (ih hrest).trans ?_
    rw [List.flatMap_cons, bytesOf_append (decimal ap ++ ['.']), List.append_assoc]

theorem intercalate_dots (a : List Char) (l : List (List Char)) :
    (a :: l).flatMap (· ++ ['.']) = ['.'].intercalate (a :: l) ++ ['.'] := by
  induction l generalizing a with
  | nil => simp
  | cons b l ih =>
    rw [List.flatMap_cons, ih b, List.intercalate_cons_cons]
    simp only [List.append_assoc]

theorem ipaddrNtoaR_eq (addr : Word) (h : 16 ≤ buflen) : ipaddrNtoaR addr buflen = .ok (bytesOf (dotted addr)) := by
  have hall : (octets addr).foldlM (putOctet buflen) [] = .ok (bytesOf (dotted addr ++ ['.'])) := by
    rw [foldlM_putOctet h, List.nil_append, ← List.flatMap_map decimal (· ++ ['.'])]
    exact congrArg (fun l => Except.ok (bytesOf l)) (intercalate_dots _ _)
  unfold ipaddrNtoaR
  rw [hall, bytesOf_append]
  exact congrArg Except.ok List.dropLast_concat

theorem length_dotted (addr : Word) : (dotted addr).length ≤ 15 := by
  have ha := length_decimal (addr.extractLsb' 0 8)
  have hb := length_decimal (addr.extractLsb' 8 8)
  have hc := length_decimal (addr.extractLsb' 16 8)
  have hd := length_decimal (addr.extractLsb' 24 8)
  simp [dotted, octets]
  omega

def searchReply (gLocalIp : Word) : List Byte := bytesOf (dotted gLocalIp) ++ deviceInfo

theorem udpServerRecv_eq (gLocalIp : Word) (data : Mem) : udpServerRecv gLocalIp true data =
    some (if data.slice 0 magicString.length = magicString then some (searchReply gLocalIp) else none) := by
  have hip : ipaddrNtoa gLocalIp = .ok (bytesOf (dotted gLocalIp)) := ipaddrNtoaR_eq gLocalIp (Nat.le_refl 16)
  have hinfo : deviceInfo.length = 32 := by decide
  have hlen := length_dotted gLocalIp
  unfold udpServerRecv
  split
  · have hroom : ¬ (tbufSize < (bytesOf (dotted gLocalIp) ++ deviceInfo).length + 1 ∨ true = false) := by
      rw [List.length_append, length_bytesOf, hinfo, tbufSize]
      simp
      omega
    simp only [hip, if_neg hroom]
    rfl
  · rfl

end EthernetOta.Firmware
