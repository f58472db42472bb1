import Mathlib.Data.List.DropRight
import EthernetOta.Lib.Faulting
import EthernetOta.Lib.Machine

/-!
# Discovering devices

`onReceived` of `OtaActivity.java`, for one datagram after the other. An
exception is a fault; an effect is the entry that a datagram adds to the list.
`AppPreferences` is part of the state, and so is what an earlier run of the app
has left there. The image number, which is always 1, and the log are left out.
-/

namespace EthernetOta.App

universe u

abbrev JString := List Char

-- ---------------------------------------------------------------------------
-- Strings
-- ---------------------------------------------------------------------------

/-- `split(",")`: without the empty strings at the end, unless there is no comma. -/
def split (response : JString) : List JString :=
  match response.splitOn ',' with
  | [whole] => [whole]
  | fields => fields.rdropWhile List.isEmpty

/-- `(?!\d\d\d)\d+|1\d\d|2[0-4]\d|25[0-5]`, up to the next character that is no digit. `\d` is
an ASCII digit here; on Android it is one of any script. -/
def isOctet : JString → Bool
  | [a] => a.isDigit
  | [a, b] => a.isDigit && b.isDigit
  | [a, b, d] =>
    (a == '1' && b.isDigit && d.isDigit) || (a == '2' && '0' ≤ b && b ≤ '4' && d.isDigit) ||
      (a == '2' && b == '5' && '0' ≤ d && d ≤ '5')
  | _ => false

def isIP (str : JString) : Bool :=
  match str.splitOn '.' with
  | [a, b, d, e] => isOctet a && isOctet b && isOctet d && isOctet e
  | _ => false

/-- `trim()` takes off what is not above the blank. -/
def trim (str : JString) : JString := (str.dropWhile (· ≤ ' ')).rdropWhile (· ≤ ' ')

def isMAC (str : JString) : Bool :=
  let str := trim str
  str.length == 12 && str.all fun d =>
    ('0' ≤ d && d ≤ '9') || ('A' ≤ d && d ≤ 'F') || ('a' ≤ d && d ≤ 'f')

-- ---------------------------------------------------------------------------
-- The activity
-- ---------------------------------------------------------------------------

structure ItemDetails where
  name : Option JString
  itemDescription : Option JString
  mac : Option JString
  deriving DecidableEq, Repr

structure OtaActivity where
  imageDetails : List ItemDetails
  dataSource : Option JString
  /-- The preferences. -/
  ipAddress : Option JString
  macAddress : Option JString
  deriving DecidableEq, Repr

/-- An index that is out of bounds is an exception. -/
def parseReceiveData (s : OtaActivity) (response : JString) : Option OtaActivity :=
  let array := split response
  if array.length < 2 ∧ 3 < array.length then some s
  else do
    let ip ← array[0]?
    if isIP ip = false then some s
    else
      let mac ← array[1]?
      if isMAC mac = false then some s
      else
        let name ← array[2]?
        some { s with ipAddress := some ip, macAddress := some mac, dataSource := some name }

/-- `tmp.getName().equals(Name)` is an exception when `tmp` has no name. -/
def isExsits (name : Option JString) : List ItemDetails → Option Bool
  | [] => some false
  | tmp :: rest => do
    let tmpName ← tmp.name
    if some tmpName = name then some true else isExsits name rest

/-- The body of the loop of `onReceived`. -/
def onReceived (s : OtaActivity) (data : JString) : Option (OtaActivity × List ItemDetails) := do
  let s ← parseReceiveData s data
  let exsits ← isExsits s.dataSource s.imageDetails
  if exsits = false then
    let item : ItemDetails := ⟨s.dataSource, s.ipAddress, s.macAddress⟩
    some ({ s with imageDetails := s.imageDetails ++ [item] }, [item])
  else some (s, [])

inductive Verdict
  | throws
  | refused
  | accepted (ip mac name : JString)

def verdict : List JString → Verdict
  | [] => .throws
  | ip :: fields =>
    if isIP ip = false then .refused
    else
      match fields with
      | [] => .throws
      | mac :: fields =>
        if isMAC mac = false then .refused
        else
          match fields with
          | [] => .throws
          | name :: _ => .accepted ip mac name

theorem parseReceiveData_eq (s : OtaActivity) (response : JString) : parseReceiveData s response =
    match verdict (split response) with
    | .throws => none
    | .refused => some s
    | .accepted ip mac name => some { s with ipAddress := some ip, macAddress := some mac, dataSource := some name } := by
  have hlen : ¬ ((split response).length < 2 ∧ 3 < (split response).length) := fun h => by omega
  rw [parseReceiveData, if_neg hlen]
  rcases split response with _ | ⟨ip, _ | ⟨mac, _ | ⟨name, fields⟩⟩⟩
  · rfl
  · simp only [verdict, List.getElem?_cons_zero, Option.bind_eq_bind, Option.bind_some]
    split <;> rfl
  · simp only [verdict, List.getElem?_cons_zero, List.getElem?_cons_succ, Option.bind_eq_bind, Option.bind_some]
    split
    · rfl
    split <;> rfl
  · simp only [verdict, List.getElem?_cons_zero, List.getElem?_cons_succ, Option.bind_eq_bind, Option.bind_some]
    split
    · rfl
    split <;> rfl

def Named (l : List ItemDetails) : Prop := ∀ x ∈ l, ∃ name, x.name = some name

theorem isExsits_eq (named : Named l) (name : Option JString) :
    isExsits name l = some (l.any fun x => x.name == name) := by
  induction l with
  | nil => rfl
  | cons x l ih =>
    obtain ⟨n, hn⟩ := named x List.mem_cons_self
    have hrest := ih fun y hy => named y (List.mem_cons_of_mem x hy)
    rw [isExsits, hn, List.any_cons, hn]
    simp only [Option.bind_eq_bind, Option.bind_some]
    by_cases heq : some n = name
    · rw [if_pos heq, beq_iff_eq.mpr heq, Bool.true_or]
    · rw [if_neg heq, beq_false_of_ne heq, Bool.false_or, hrest]

theorem onReceived_known (named : Named s.imageDetails) (h : parseReceiveData s₀ data = some s)
    (known : ∃ x ∈ s.imageDetails, x.name = s.dataSource) : onReceived s₀ data = some (s, []) := by
  obtain ⟨x, hx, hname⟩ := known
  have hany : (s.imageDetails.any fun x => x.name == s.dataSource) = true :=
    List.any_eq_true.mpr ⟨x, hx, beq_iff_eq.mpr hname⟩
  rw [onReceived, h, Option.bind_eq_bind, Option.bind_some, isExsits_eq named, hany]
  rfl

theorem onReceived_new (named : Named s.imageDetails) (h : parseReceiveData s₀ data = some s)
    (new : ¬ ∃ x ∈ s.imageDetails, x.name = s.dataSource) :
    onReceived s₀ data = some ({ s with imageDetails := s.imageDetails ++
      [⟨s.dataSource, s.ipAddress, s.macAddress⟩] }, [⟨s.dataSource, s.ipAddress, s.macAddress⟩]) := by
  have hany : (s.imageDetails.any fun x => x.name == s.dataSource) = false := by
    rw [List.any_eq_false]
    exact fun x hx hname => new ⟨x, hx, beq_iff_eq.mp hname⟩
  rw [onReceived, h, Option.bind_eq_bind, Option.bind_some, isExsits_eq named, hany]
  rfl

-- ---------------------------------------------------------------------------
-- Replies
-- ---------------------------------------------------------------------------

structure Reply where
  ip : JString
  mac : JString
  name : JString

/-- Exactly three fields with a comma between them, and a valid IP and MAC. -/
structure WellFormed (data : JString) (r : Reply) : Prop where
  fields : data.splitOn ',' = [r.ip, r.mac, r.name]
  ip : isIP r.ip = true
  mac : isMAC r.mac = true

def Announced (past : List JString) (r : Reply) : Prop := ∃ data ∈ past, WellFormed data r

theorem split_of_three (h : data.splitOn ',' = [ip, mac, name]) (hmac : mac ≠ []) :
    split data = [ip, mac, name] ∨ split data = [ip, mac] := by
  have hsplit : split data = [ip, mac, name].rdropWhile List.isEmpty := by rw [split, h]
  have htwo : [ip, mac].rdropWhile List.isEmpty = [ip, mac] :=
    List.rdropWhile_concat_neg _ [ip] mac (by rwa [List.isEmpty_iff])
  have hthree : [ip, mac, name] = [ip, mac] ++ [name] := rfl
  rw [hsplit, hthree, List.rdropWhile_concat, htwo]
  split
  · exact .inr rfl
  · exact .inl rfl

theorem WellFormed.verdict (h : WellFormed data r) :
    verdict (split data) = .accepted r.ip r.mac r.name ∨ verdict (split data) = .throws := by
  have hip : ¬ isIP r.ip = false := by rw [h.ip]; exact Bool.true_eq_false.mp
  have hmac : ¬ isMAC r.mac = false := by rw [h.mac]; exact Bool.true_eq_false.mp
  have hne : r.mac ≠ [] := by
    intro hnil
    have hempty : isMAC [] = true := hnil ▸ h.mac
    revert hempty
    decide
  rcases split_of_three h.fields hne with hs | hs
  · left
    rw [hs, App.verdict, if_neg hip, if_neg hmac]
  · right
    rw [hs, App.verdict, if_neg hip, if_neg hmac]

theorem announced_snoc : Announced (past ++ [data]) r ↔ Announced past r ∨ WellFormed data r := by
  constructor
  · rintro ⟨d, hd, h⟩
    rcases List.mem_append.mp hd with hd | hd
    · exact .inl ⟨d, hd, h⟩
    · exact .inr (List.mem_singleton.mp hd ▸ h)
  · rintro (⟨d, hd, h⟩ | h)
    · exact ⟨d, List.mem_append_left _ hd, h⟩
    · exact ⟨data, List.mem_append_right _ (List.mem_singleton_self data), h⟩

theorem WellFormed.unique (h : WellFormed data r) (h' : WellFormed data r') : r' = r := by
  have hfields := h'.fields.symm.trans h.fields
  obtain ⟨ip, mac, name⟩ := r
  obtain ⟨ip', mac', name'⟩ := r'
  simp only [List.cons.injEq, and_true] at hfields
  obtain ⟨rfl, rfl, rfl⟩ := hfields
  rfl

-- ---------------------------------------------------------------------------
-- The list
-- ---------------------------------------------------------------------------

section
variable {κ : Type u} (device : JString → κ)

/-- The entry has a MAC of the same device. `device` says which MACs are of one. -/
def SameDevice (mac : JString) (x : ItemDetails) : Prop := ∃ m, x.mac = some m ∧ device m = device mac

/-- What is wanted after a datagram, which has added these entries. -/
structure Correct (past : List JString) (data : JString) (s : OtaActivity) (added : List ItemDetails) : Prop where
  listed : ∀ r, Announced (past ++ [data]) r → ∃ x ∈ s.imageDetails, SameDevice device r.mac x
  once : s.imageDetails.Pairwise fun x y => ∀ mac, SameDevice device mac x → ¬ SameDevice device mac y
  carries : ∀ x ∈ s.imageDetails, ∀ r, Announced (past ++ [data]) r → SameDevice device r.mac x →
    ∃ r', Announced (past ++ [data]) r' ∧ device r'.mac = device r.mac ∧
      x.itemDescription = some r'.ip ∧ x.mac = some r'.mac
  malformed : (∀ r, ¬ WellFormed data r) → added = []

structure Kept (past : List JString) (s : OtaActivity) : Prop where
  entries : ∀ x ∈ s.imageDetails, ∃ r, Announced past r ∧ x = ⟨some r.name, some r.ip, some r.mac⟩
  names : ∀ r, Announced past r → ∃ x ∈ s.imageDetails, x.name = some r.name
  devices : ∀ r, Announced past r → ∃ x ∈ s.imageDetails, SameDevice device r.mac x
  once : s.imageDetails.Pairwise fun x y => ∀ mac, SameDevice device mac x → ¬ SameDevice device mac y
  sticky : s.imageDetails ≠ [] → ∃ x ∈ s.imageDetails, x.name = s.dataSource

variable {device}

theorem Kept.named (h : Kept device past s) : Named s.imageDetails := by
  intro x hx
  obtain ⟨r, -, rfl⟩ := h.entries x hx
  exact ⟨r.name, rfl⟩

theorem kept_nil (h : s.imageDetails = []) : Kept device [] s where
  entries x hx := absurd (h ▸ hx) List.not_mem_nil
  names r hr := by
    obtain ⟨d, hd, -⟩ := hr
    exact absurd hd List.not_mem_nil
  devices r hr := by
    obtain ⟨d, hd, -⟩ := hr
    exact absurd hd List.not_mem_nil
  once := h ▸ List.Pairwise.nil
  sticky hne := absurd h hne

theorem Kept.correct (h : Kept device (past ++ [data]) s) (malformed : (∀ r, ¬ WellFormed data r) → added = []) :
    Correct device past data s added where
  listed := h.devices
  once := h.once
  carries x hx r hr same := by
    obtain ⟨r', hr', rfl⟩ := h.entries x hx
    obtain ⟨m, hm, hdevice⟩ := same
    obtain rfl := Option.some.inj hm
    exact ⟨r', hr', hdevice, rfl, rfl⟩
  malformed := malformed

theorem Kept.same (h : Kept device past s) (hl : s'.imageDetails = s.imageDetails)
    (hsticky : ∃ x ∈ s.imageDetails, x.name = s'.dataSource)
    (hnew : ∀ r, WellFormed data r → (∃ x ∈ s.imageDetails, x.name = some r.name) ∧
      ∃ x ∈ s.imageDetails, SameDevice device r.mac x) : Kept device (past ++ [data]) s' where
  entries x hx := by
    obtain ⟨r, hr, hx⟩ := h.entries x (hl ▸ hx)
    exact ⟨r, announced_snoc.mpr (.inl hr), hx⟩
  names r hr := by
    rw [hl]
    rcases announced_snoc.mp hr with hr | hr
    · exact h.names r hr
    · exact (hnew r hr).1
  devices r hr := by
    rw [hl]
    rcases announced_snoc.mp hr with hr | hr
    · exact h.devices r hr
    · exact (hnew r hr).2
  once := hl ▸ h.once
  sticky _ := hl ▸ hsticky

/-- After `past`, which left `s`, the datagram is received and the list is correct. -/
def Received (device : JString → κ) (past : List JString) (s : OtaActivity) (data : JString) : Prop :=
  ∃ s' added, onReceived s data = some (s', added) ∧ Correct device past data s' added

theorem not_wellFormed_of_refused (hv : verdict (split data) = .refused) (r : Reply) : ¬ WellFormed data r := by
  intro wf
  rcases wf.verdict with h | h
  · cases hv.symm.trans h
  · cases hv.symm.trans h

theorem received_refused (h : Kept device past s) (hv : verdict (split data) = .refused) :
    (Received device past s data ↔ ∃ r, Announced past r) ∧
      ((∃ r, Announced past r) → ∃ s' added, onReceived s data = some (s', added) ∧
        Kept device (past ++ [data]) s') := by
  have hparse : parseReceiveData s data = some s := by rw [parseReceiveData_eq, hv]
  have hwf := not_wellFormed_of_refused hv
  have good : (∃ r, Announced past r) → onReceived s data = some (s, []) ∧ Kept device (past ++ [data]) s := by
    rintro ⟨r, hr⟩
    obtain ⟨x, hx, -⟩ := h.names r hr
    have hsticky := h.sticky (List.ne_nil_of_mem hx)
    exact ⟨onReceived_known h.named hparse hsticky, h.same rfl hsticky fun r wf => absurd wf (hwf r)⟩
  refine ⟨⟨?_, fun hr => ?_⟩, fun hr => ⟨s, [], good hr⟩⟩
  · rintro ⟨s', added, hstep, correct⟩
    have hadded := correct.malformed hwf
    by_contra hnone
    have hnew : ¬ ∃ x ∈ s.imageDetails, x.name = s.dataSource := by
      rintro ⟨x, hx, -⟩
      obtain ⟨r, hr, -⟩ := h.entries x hx
      exact hnone ⟨r, hr⟩
    rw [onReceived_new h.named hparse hnew] at hstep
    have hcons := (Prod.mk.inj (Option.some.inj hstep)).2.trans hadded
    exact absurd hcons (List.cons_ne_nil _ _)
  · obtain ⟨hstep, hkept⟩ := good hr
    exact ⟨s, [], hstep, hkept.correct fun _ => rfl⟩

def OtaActivity.parsed (s : OtaActivity) (ip mac name : JString) : OtaActivity :=
  { s with ipAddress := some ip, macAddress := some mac, dataSource := some name }

section
variable {s : OtaActivity} {past : List JString} {data ip mac name : JString}

end

end

/-- The search broadcast, which comes back to the app. -/
def search : JString := "HF-A11ASSISTHREAD".toList

end EthernetOta.App
