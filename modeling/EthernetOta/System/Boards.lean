import EthernetOta.App.Discovery
import EthernetOta.Firmware.UdpServer

/-!
# Searching for boards

`OtaActivity` and the boards of a network, with the socket of `udpbroadcast`
between them. A datagram can be lost, late, or there more than once: what has
been sent stays where it can be received. A datagram of the app's own is only
received by a socket that is bound to the port it goes to; `open` binds the
first one before `setPort`.

One datagram after the other goes through `onReceived`. The app has no lock for
that: `send` and `receive` each start a thread that calls it, and two of these
calls at once, or one while the list is cleared, are not modelled. They can list
two boards, or throw a `ConcurrentModificationException`.
-/

namespace EthernetOta.System

open Firmware App

-- ---------------------------------------------------------------------------
-- Texts
-- ---------------------------------------------------------------------------

/-- `new String(data, 0, length)`, of bytes below 128. -/
def newString (data : List Byte) : JString := data.map fun b => Char.ofNat b.toNat

def literalOctet (field : JString) : Option Byte :=
  let value := Nat.ofDigitChars 10 field 0
  if field ≠ [] ∧ field.all Char.isDigit = true ∧ value < 256 then some (.ofNat 8 value) else none

/-- `InetAddress.getByName`: what is no address in four decimals is looked up. -/
def getByName (lookup : JString → Option Word) (host : JString) : Option Word :=
  match (host.splitOn '.').map literalOctet with
  | [some a, some b, some d, some e] => some (e ++ d ++ b ++ a)
  | _ => lookup host

def bufferSize : Nat := 100

/-- The fields of `DEVICE_INFO`. -/
def macAddress : JString := "0004251CA003".toList

def deviceName : JString := "SAM4S-XPlained-PRO".toList

def searchResult (ip : Word) : App.Reply := ⟨dotted ip, macAddress, deviceName⟩

theorem isOctet_decimal (ap : Byte) : isOctet (decimal ap) = true := by
  have hall : ∀ n < 256, isOctet (Nat.toDigits 10 n) = true := by decide +kernel
  exact hall _ ap.isLt

theorem literalOctet_decimal (ap : Byte) : literalOctet (decimal ap) = some ap := by
  have hvalue : Nat.ofDigitChars 10 (decimal ap) 0 = ap.toNat := Nat.ofDigitChars_ten_toDigits
  have hdigits : (decimal ap).all Char.isDigit = true := by
    rw [List.all_eq_true]
    exact fun c hc => Nat.isDigit_of_mem_toDigits (by decide) (by decide) hc
  unfold literalOctet
  rw [hvalue]
  simp only [hdigits, ap.isLt, and_self, and_true, BitVec.ofNat_toNat, BitVec.setWidth_eq]
  exact if_pos Nat.toDigits_ne_nil

theorem not_mem_decimal (h : c.isDigit = false) : c ∉ decimal ap := by
  intro hc
  have := Nat.isDigit_of_mem_toDigits (by decide) (by decide) hc
  simp [h] at this

theorem splitOn_dotted (addr : Word) : (dotted addr).splitOn '.' = (octets addr).map decimal := by
  refine List.splitOn_intercalate '.' ?_ (by simp [octets])
  intro field hfield
  obtain ⟨ap, -, rfl⟩ := List.mem_map.mp hfield
  exact not_mem_decimal (by decide)

theorem octets_append (addr : Word) : (addr.extractLsb' 24 8 ++ addr.extractLsb' 16 8 ++ addr.extractLsb' 8 8 ++
    addr.extractLsb' 0 8 : Word) = addr := by
  apply BitVec.eq_of_getLsbD_eq
  intro i hi
  simp only [BitVec.getLsbD_append, BitVec.getLsbD_extractLsb']
  grind

theorem getByName_dotted (lookup : JString → Option Word) (addr : Word) : getByName lookup (dotted addr) = some addr := by
  unfold getByName
  rw [splitOn_dotted]
  simp only [octets, List.map_cons, List.map_nil, literalOctet_decimal]
  exact congrArg some (octets_append addr)

theorem isIP_dotted (addr : Word) : isIP (dotted addr) = true := by
  unfold isIP
  rw [splitOn_dotted]
  simp only [octets, List.map_cons, List.map_nil, isOctet_decimal, Bool.and_self]

-- ---------------------------------------------------------------------------
-- A reply
-- ---------------------------------------------------------------------------

theorem newString_append (a b : List Byte) : newString (a ++ b) = newString a ++ newString b := List.map_append

theorem newString_bytesOf (h : ∀ c ∈ str, c.toNat < 128) : newString (bytesOf str) = str := by
  induction str with
  | nil => rfl
  | cons c str ih =>
    have hc := h c List.mem_cons_self
    have hback : Char.ofNat (BitVec.ofNat 8 c.toNat).toNat = c := by
      rw [BitVec.toNat_ofNat, Nat.mod_eq_of_lt (by omega), Char.ofNat_toNat]
    have hrest := ih fun d hd => h d (List.mem_cons_of_mem c hd)
    calc newString (bytesOf (c :: str))
        = Char.ofNat (BitVec.ofNat 8 c.toNat).toNat :: newString (bytesOf str) := rfl
      _ = c :: str := by rw [hback, hrest]

theorem dotted_char (h : c ∈ dotted addr) : c.isDigit = true ∨ c = '.' := by
  have hmem : ∀ fields : List JString, c ∈ ['.'].intercalate fields → c = '.' ∨ ∃ field ∈ fields, c ∈ field := by
    intro fields
    induction fields with
    | nil => simp
    | cons a fields ih =>
      cases fields with
      | nil => simpa using .inr
      | cons b fields =>
        rw [List.intercalate_cons_cons]
        simp only [List.mem_append, List.mem_singleton]
        rintro ((hc | hc) | hc)
        · exact .inr ⟨a, List.mem_cons_self, hc⟩
        · exact .inl hc
        · exact (ih hc).imp id fun ⟨field, hfield, hc⟩ => ⟨field, List.mem_cons_of_mem a hfield, hc⟩
  rcases hmem _ h with hc | ⟨field, hfield, hc⟩
  · exact .inr hc
  · obtain ⟨ap, -, rfl⟩ := List.mem_map.mp hfield
    exact .inl (Nat.isDigit_of_mem_toDigits (by decide) (by decide) hc)

theorem newString_dotted (addr : Word) : newString (bytesOf (dotted addr)) = dotted addr := by
  refine newString_bytesOf fun c hc => ?_
  rcases dotted_char hc with hdigit | rfl
  · exact Nat.lt_of_le_of_lt (Char.isDigit_iff_toNat.mp hdigit).2 (by decide)
  · decide

theorem newString_searchReply (ip : Word) :
    newString (searchReply ip) = dotted ip ++ ',' :: (macAddress ++ ',' :: deviceName) := by
  have hinfo : newString deviceInfo = ',' :: (macAddress ++ ',' :: deviceName) := by decide
  rw [searchReply, newString_append, newString_dotted, hinfo]

theorem splitOn_searchReply (ip : Word) :
    (newString (searchReply ip)).splitOn ',' = [dotted ip, macAddress, deviceName] := by
  have hip : ',' ∉ dotted ip := by
    intro hc
    rcases dotted_char hc with hdigit | heq
    · exact absurd hdigit (by decide)
    · exact absurd heq (by decide)
  have hrest : (macAddress ++ ',' :: deviceName).splitOn ',' = [macAddress, deviceName] := by decide
  rw [newString_searchReply, List.splitOn_append_cons_self_of_not_mem hip, hrest]

theorem length_searchReply (ip : Word) : (searchReply ip).length ≤ 47 := by
  have hinfo : deviceInfo.length = 32 := by decide
  have hlen := length_dotted ip
  rw [searchReply, List.length_append, length_bytesOf, hinfo]
  omega

theorem take_searchReply (ip : Word) : (searchReply ip).take bufferSize = searchReply ip :=
  List.take_of_length_le (Nat.le_trans (length_searchReply ip) (by decide))

theorem split_searchReply (ip : Word) :
    split (newString (searchReply ip)) = [dotted ip, macAddress, deviceName] := by
  unfold split
  rw [splitOn_searchReply]
  exact List.rdropWhile_concat_neg _ [dotted ip, macAddress] deviceName (by decide)

theorem parse_searchReply (app : OtaActivity) (ip : Word) :
    parseReceiveData app (newString (searchReply ip)) = some (app.parsed (dotted ip) macAddress deviceName) := by
  have hmac : isMAC macAddress = true := by decide
  rw [parseReceiveData_eq, split_searchReply, verdict, isIP_dotted, hmac]
  rfl

theorem wellFormed_searchReply (ip : Word) : WellFormed (newString (searchReply ip)) (searchResult ip) where
  fields := splitOn_searchReply ip
  ip := isIP_dotted ip
  mac := (by decide : isMAC macAddress = true)

theorem search_magic (rest : Mem) :
    (Mem.ofList (bytesOf search) rest).slice 0 magicString.length = magicString := by
  have hmagic : magicString = bytesOf search := by decide
  rw [hmagic, Mem.slice_ofList (Nat.le_of_eq (Nat.zero_add _)), List.drop_zero, List.take_length]

/-- Whatever a board's address is: it prints it without running out of a buffer
and answers searches and nothing else, and the app takes the answer, with its
three fields, and connects to that address. -/
theorem board_found (lookup : JString → Option Word) (ip : Word) : ∃ reply,
    (∀ data, udpServerRecv ip true data =
      some (if data.slice 0 magicString.length = magicString then some reply else none)) ∧
    (∀ rest, udpServerRecv ip true (.ofList (bytesOf search) rest) = some (some reply)) ∧
    WellFormed (newString reply) (searchResult ip) ∧
    (∀ app : OtaActivity, parseReceiveData app (newString (reply.take bufferSize)) =
      some { app with
        ipAddress := some (searchResult ip).ip
        macAddress := some (searchResult ip).mac
        dataSource := some (searchResult ip).name }) ∧
    getByName lookup (searchResult ip).ip = some ip := by
  refine ⟨searchReply ip, udpServerRecv_eq ip, fun rest => ?_, wellFormed_searchReply ip, fun app => ?_,
    getByName_dotted lookup ip⟩
  · rw [udpServerRecv_eq, if_pos (search_magic rest)]
  · rw [take_searchReply, parse_searchReply]
    rfl

-- ---------------------------------------------------------------------------
-- The network
-- ---------------------------------------------------------------------------

structure Datagram where
  port : Nat
  /-- The address the board had that sent it, unless it is the app's own. -/
  sender : Option Word
  data : List Byte

structure Network (β : Type) where
  /-- `g_local_ip` of each board. -/
  gLocalIp : β → Word
  /-- The ports that searches have come from. -/
  searches : List Nat
  datagrams : List Datagram
  /-- The port that the socket is bound to, when it is open. -/
  socket : Option Nat
  port : Nat
  app : OtaActivity

inductive NetworkEvent (β : Type)
  /-- `START_SEARCH` -/
  | search
  | close
  /-- The list is cleared. -/
  | refresh
  /-- `status_callback` of a board. -/
  | status (board : β) (ip : Word)
  /-- A board gets one of the searches; `rest` is what lies behind it in memory. -/
  | answer (board : β) (i : Nat) (allocated : Bool) (rest : Mem)
  /-- The app gets one of the datagrams. -/
  | receive (i : Nat)

inductive NetworkEffect (β : Type)
  | refreshed
  | addressed (board : β) (ip : Word)
  | received (sender : Option Word)

/-- `UDP_SERVER_PORT`, and `setPort` of the app. -/
def udpServerPort : Nat := 48899

variable {β : Type}

/-- `setPort` comes after `open`. -/
def Network.opened (s : Network β) : Network β :=
  match s.socket with
  | none => { s with socket := some s.port, port := udpServerPort }
  | some _ => s

def Network.send (s : Network β) : Network β :=
  { s with
    searches := if s.port = udpServerPort then s.searches ++ s.socket.toList else s.searches
    datagrams :=
      if s.socket = some s.port then s.datagrams ++ [⟨s.port, none, bytesOf (trim App.search)⟩] else s.datagrams }

def Network.search (s : Network β) : Network β := s.opened.send

def Network.step [DecidableEq β] (s : Network β) : NetworkEvent β → Option (Network β × List (NetworkEffect β))
  | .search => some (s.search, [])
  | .close => some ({ s with socket := none }, [])
  | .refresh => some ({ s with app := { s.app with imageDetails := [] } }, [.refreshed])
  | .status board ip =>
    some ({ s with gLocalIp := Function.update s.gLocalIp board ip }, [.addressed board ip])
  | .answer board i allocated rest =>
    match s.searches[i]? with
    | none => some (s, [])
    | some port => do
      match ← udpServerRecv (s.gLocalIp board) allocated (.ofList (bytesOf (trim App.search)) rest) with
      | none => some (s, [])
      | some data => some ({ s with datagrams := s.datagrams ++ [⟨port, some (s.gLocalIp board), data⟩] }, [])
  | .receive i =>
    match s.datagrams[i]? with
    | none => some (s, [])
    | some d =>
      if s.socket = some d.port then do
        let (app, _) ← onReceived s.app (newString (d.data.take bufferSize))
        some ({ s with app }, [.received d.sender])
      else some (s, [])

def network (β : Type) [DecidableEq β] : Faulting (Network β) (NetworkEvent β) (NetworkEffect β) where
  step := Network.step

def Network.created (ipAddress macAddress : Option JString) : Network β where
  gLocalIp _ := 0
  searches := []
  datagrams := []
  socket := none
  port := 6666
  app := ⟨[], none, ipAddress, macAddress⟩

-- ---------------------------------------------------------------------------
-- What the list is to show
-- ---------------------------------------------------------------------------

/-- The board that answered last, and the one in the list. -/
structure Shown where
  last : Option Word
  listed : Option Word

def Shown.next (v : Shown) : NetworkEffect β → Shown
  | .refreshed => { v with listed := none }
  | .addressed .. => v
  | .received (some ip) => ⟨some ip, v.listed.or (some ip)⟩
  | .received none => { v with listed := v.listed.or v.last }

/-- The first board to answer since the list was cleared; the app's own search is
taken for the board that answered last. -/
def shown (effects : List (NetworkEffect β)) : Shown := effects.foldl Shown.next ⟨none, none⟩

def sinceCleared (effects : List (NetworkEffect β)) : List (NetworkEffect β) :=
  effects.rtakeWhile fun | .refreshed => false | _ => true

/-- The addresses that boards have answered from. -/
def answers (effects : List (NetworkEffect β)) : List Word :=
  effects.filterMap fun | .received sender => sender | _ => none

def entry (ip : Word) : ItemDetails := ⟨some deviceName, some (dotted ip), some macAddress⟩

def Addressed (past : List (NetworkEffect β)) (ip : Word) : Prop := ip = 0 ∨ ∃ board, .addressed board ip ∈ past

/-- A step that does not open the socket again before a board has answered, or
find no buffer. -/
def Orderly (_ : List (NetworkEffect β)) (s : Network β) : NetworkEvent β → Prop
  | .search => s.socket = none → s.port = udpServerPort → s.app.dataSource ≠ none
  | .answer _ _ allocated _ => allocated = true
  | _ => True

structure Listing (held : Word → Prop) (v : Shown) (s : Network β) : Prop where
  sent : ∀ d ∈ s.datagrams, match d.sender with
    | some ip => d.data = searchReply ip ∧ held ip
    | none => d.data = bytesOf search ∧ v.last ≠ none
  addresses : ∀ board, held (s.gLocalIp board)
  last : ∀ ip, v.last = some ip → held ip ∧ s.app.ipAddress = some (dotted ip) ∧ s.app.macAddress = some macAddress
  listed : ∀ ip, v.listed = some ip → held ip ∧ v.last ≠ none
  list : s.app.imageDetails = v.listed.toList.map entry
  source : s.app.dataSource = v.last.map fun _ => deviceName
  port : s.port = udpServerPort ∨ s.port = 6666 ∧ s.socket = none
  bound : v.last = none → s.socket = some udpServerPort → False

-- ---------------------------------------------------------------------------
-- A step
-- ---------------------------------------------------------------------------

@[simp] theorem shown_snoc (past : List (NetworkEffect β)) (e : NetworkEffect β) :
    shown (past ++ [e]) = (shown past).next e := by
  simp [shown]

theorem sinceCleared_snoc (past : List (NetworkEffect β)) (e : NetworkEffect β) :
    sinceCleared (past ++ [e]) = match e with | .refreshed => [] | e => sinceCleared past ++ [e] := by
  cases e with
  | refreshed => exact List.rtakeWhile_concat_neg _ _ _ Bool.false_ne_true
  | addressed board ip => exact List.rtakeWhile_concat_pos _ _ _ rfl
  | received sender => exact List.rtakeWhile_concat_pos _ _ _ rfl

theorem answers_append (past effects : List (NetworkEffect β)) :
    answers (past ++ effects) = answers past ++ answers effects :=
  List.filterMap_append

/-- The first board to answer, unless the app has heard itself. -/
theorem shown_listed (past : List (NetworkEffect β)) (own : .received none ∉ sinceCleared past) :
    (shown past).listed = (answers (sinceCleared past)).head? := by
  induction past using List.reverseRecOn with
  | nil => rfl
  | append_singleton past e ih =>
    rw [sinceCleared_snoc] at own ⊢
    rw [shown_snoc]
    cases e with
    | refreshed => rfl
    | addressed board ip =>
      have hpast := ih fun h => own (List.mem_append_left _ h)
      rw [answers_append, List.head?_append, ← hpast]
      exact (Option.or_none).symm
    | received sender =>
      have hpast := ih fun h => own (List.mem_append_left _ h)
      cases sender with
      | none => exact absurd (List.mem_append_right _ (List.mem_singleton_self _)) own
      | some ip =>
        rw [answers_append, List.head?_append, ← hpast]
        rfl

theorem shown_answered (past : List (NetworkEffect β)) :
    (∀ ip, (shown past).last = some ip → ip ∈ answers past) ∧
      ∀ ip, (shown past).listed = some ip → ip ∈ answers past := by
  induction past using List.reverseRecOn with
  | nil => exact ⟨nofun, nofun⟩
  | append_singleton past e ih =>
    obtain ⟨hlast, hlisted⟩ := ih
    have kept : ∀ ip, ip ∈ answers past → ip ∈ answers (past ++ [e]) := by
      intro ip hip
      rw [answers_append]
      exact List.mem_append_left _ hip
    rw [shown_snoc]
    cases e with
    | refreshed => exact ⟨fun ip h => kept ip (hlast ip h), nofun⟩
    | addressed board addr => exact ⟨fun ip h => kept ip (hlast ip h), fun ip h => kept ip (hlisted ip h)⟩
    | received sender =>
      cases sender with
      | none =>
        refine ⟨fun ip h => kept ip (hlast ip h), fun ip h => kept ip ?_⟩
        rcases Option.or_eq_some_iff.mp h with h | ⟨-, h⟩
        · exact hlisted ip h
        · exact hlast ip h
      | some addr =>
        have hnew : addr ∈ answers (past ++ [NetworkEffect.received (some addr)]) := by
          rw [answers_append]
          exact List.mem_append_right _ (List.mem_singleton_self addr)
        refine ⟨fun ip h => Option.some.inj h ▸ hnew, fun ip h => ?_⟩
        rcases Option.or_eq_some_iff.mp h with h | ⟨-, h⟩
        · exact kept ip (hlisted ip h)
        · exact Option.some.inj h ▸ hnew

theorem Addressed.append {past : List (NetworkEffect β)} (h : Addressed past ip) (effects : List (NetworkEffect β)) :
    Addressed (past ++ effects) ip :=
  h.imp id fun ⟨board, h⟩ => ⟨board, List.mem_append_left _ h⟩

theorem parse_search (app : OtaActivity) : parseReceiveData app (newString (bytesOf search)) = some app := by
  have hown : newString (bytesOf search) = search := by decide
  have hsplit : split search = [search] := by decide
  have hip : isIP search = false := by decide
  rw [parseReceiveData_eq, hown, hsplit, verdict, if_pos hip]

theorem onReceived_entry {app₀ app : OtaActivity} {listed : Option Word}
    (hparse : parseReceiveData app₀ data = some app) (hlist : app.imageDetails = listed.toList.map entry)
    (hsource : app.dataSource = some deviceName) (hip : app.ipAddress = some (dotted ip))
    (hmac : app.macAddress = some macAddress) : ∃ added, onReceived app₀ data =
      some ({ app with imageDetails := (listed.or (some ip)).toList.map entry }, added) := by
  have named : Named app.imageDetails := by
    intro x hx
    rw [hlist] at hx
    obtain ⟨i, -, rfl⟩ := List.mem_map.mp hx
    exact ⟨deviceName, rfl⟩
  cases listed with
  | none =>
    have hnil : app.imageDetails = [] := hlist
    have hnew : ¬ ∃ x ∈ app.imageDetails, x.name = app.dataSource := by simp [hnil]
    have hitem : (⟨app.dataSource, app.ipAddress, app.macAddress⟩ : ItemDetails) = entry ip := by
      rw [hsource, hip, hmac]
      rfl
    rw [onReceived_new named hparse hnew, hitem, hnil]
    exact ⟨_, rfl⟩
  | some i =>
    have hone : app.imageDetails = [entry i] := hlist
    have hknown : ∃ x ∈ app.imageDetails, x.name = app.dataSource := by
      rw [hone, hsource]
      exact ⟨entry i, List.mem_singleton_self _, rfl⟩
    refine ⟨[], ?_⟩
    rw [onReceived_known named hparse hknown]
    obtain ⟨list, source, ip', mac'⟩ := app
    obtain rfl : list = [entry i] := hone
    rfl

theorem mem_send {s : Network β} (h : d ∈ s.send.datagrams) : d ∈ s.datagrams ∨
    d.sender = none ∧ d.data = bytesOf search ∧ s.socket = some s.port := by
  have htext : bytesOf (trim search) = bytesOf search := by decide
  unfold Network.send at h
  dsimp only at h
  split at h
  · rename_i hown
    rcases List.mem_append.mp h with h | h
    · exact .inl h
    · obtain rfl := List.mem_singleton.mp h
      exact .inr ⟨rfl, htext, hown⟩
  · exact .inl h

section
variable {s : Network β} {held : Word → Prop} {v : Shown}

theorem Listing.opened (h : Listing held v s)
    (orderly : s.socket = none → s.port = udpServerPort → s.app.dataSource ≠ none) :
    Listing held v s.opened ∧ s.opened.port = udpServerPort := by
  unfold Network.opened
  split
  · rename_i hsocket
    refine ⟨{ h with port := .inl rfl, bound := fun hnone hbound => ?_ }, rfl⟩
    have hsource := orderly hsocket (Option.some.inj hbound)
    rw [h.source, hnone] at hsource
    exact hsource rfl
  · rename_i bound hsocket
    refine ⟨h, h.port.resolve_right fun hclosed => ?_⟩
    cases hsocket.symm.trans hclosed.2

theorem Listing.search (h : Listing held v s)
    (orderly : s.socket = none → s.port = udpServerPort → s.app.dataSource ≠ none) : Listing held v s.search := by
  obtain ⟨hopened, hport⟩ := h.opened orderly
  refine { hopened with sent := fun d hd => ?_ }
  rcases mem_send hd with hd | ⟨hsender, hdata, hown⟩
  · exact hopened.sent d hd
  · rw [hsender]
    exact ⟨hdata, fun hnone => hopened.bound hnone (hport ▸ hown)⟩

theorem Listing.close (h : Listing held v s) : Listing held v { s with socket := none } :=
  { h with
    port := h.port.imp id fun hport => ⟨hport.1, rfl⟩
    bound := fun _ hbound => nomatch hbound }

theorem Listing.refresh (h : Listing held v s) :
    Listing held { v with listed := none } { s with app := { s.app with imageDetails := [] } } :=
  { h with listed := nofun, list := rfl }

theorem Listing.status [DecidableEq β] (h : Listing held v s) (board : β) (hip : held ip) :
    Listing held v { s with gLocalIp := Function.update s.gLocalIp board ip } := by
  have haddresses : ∀ b, held (Function.update s.gLocalIp board ip b) := by
    intro b
    rcases eq_or_ne b board with rfl | hb
    · rwa [Function.update_self]
    · rw [Function.update_of_ne hb]
      exact h.addresses b
  exact { h with addresses := haddresses }

theorem Listing.answer (h : Listing held v s) (board : β) (port : Nat) :
    Listing held v { s with datagrams := s.datagrams ++
      [⟨port, some (s.gLocalIp board), searchReply (s.gLocalIp board)⟩] } := by
  refine { h with sent := fun d hd => ?_ }
  rcases List.mem_append.mp hd with hd | hd
  · exact h.sent d hd
  · obtain rfl := List.mem_singleton.mp hd
    exact ⟨rfl, h.addresses board⟩

theorem Listing.receive (h : Listing held v s) (hd : d ∈ s.datagrams) : ∃ app added,
    onReceived s.app (newString (d.data.take bufferSize)) = some (app, added) ∧
      Listing held (v.next (.received d.sender : NetworkEffect β)) { s with app } := by
  have hsent := h.sent d hd
  cases hsender : d.sender with
  | some ip =>
    rw [hsender] at hsent
    obtain ⟨hdata, hip⟩ := hsent
    have htake : d.data.take bufferSize = searchReply ip := hdata ▸ take_searchReply ip
    obtain ⟨added, hstep⟩ := onReceived_entry (parse_searchReply s.app ip) h.list rfl rfl rfl
    rw [htake]
    refine ⟨_, added, hstep, ?_⟩
    refine { h with sent := ?_, last := ?_, listed := ?_, list := rfl, source := rfl, bound := nofun }
    · intro e he
      have hsent := h.sent e he
      cases hsender' : e.sender with
      | none =>
        rw [hsender'] at hsent
        exact ⟨hsent.1, nofun⟩
      | some ip => rwa [hsender'] at hsent
    · rintro i hi
      obtain rfl := Option.some.inj hi
      exact ⟨hip, rfl, rfl⟩
    · intro i hi
      refine ⟨?_, nofun⟩
      rcases Option.or_eq_some_iff.mp hi with hi | ⟨-, hi⟩
      · exact (h.listed i hi).1
      · exact Option.some.inj hi ▸ hip
  | none =>
    rw [hsender] at hsent
    obtain ⟨hdata, hlast⟩ := hsent
    obtain ⟨ip, hip⟩ := Option.ne_none_iff_exists'.mp hlast
    obtain ⟨hheld, haddress, hmac⟩ := h.last ip hip
    have hsource : s.app.dataSource = some deviceName := by rw [h.source, hip]; rfl
    have htake : d.data.take bufferSize = bytesOf App.search := by
      rw [hdata]
      decide
    obtain ⟨added, hstep⟩ := onReceived_entry (parse_search s.app) h.list hsource haddress hmac
    rw [htake]
    refine ⟨_, added, hstep, ?_⟩
    refine { h with listed := ?_, list := ?_ }
    · intro i hi
      refine ⟨?_, hlast⟩
      rcases Option.or_eq_some_iff.mp hi with hi | ⟨-, hi⟩
      · exact (h.listed i hi).1
      · exact (h.last i hi).1
    · simp only [Shown.next, hip]

theorem Listing.mono {held' : Word → Prop} (h : Listing held v s) (himp : ∀ ip, held ip → held' ip) :
    Listing held' v s := by
  refine { h with sent := fun d hd => ?_, addresses := ?_, last := ?_, listed := ?_ }
  · have hsent := h.sent d hd
    cases hsender : d.sender with
    | none => rwa [hsender] at hsent
    | some ip =>
      rw [hsender] at hsent
      exact ⟨hsent.1, himp ip hsent.2⟩
  · exact fun board => himp _ (h.addresses board)
  · exact fun ip hip => (h.last ip hip).imp (himp ip) id
  · exact fun ip hip => (h.listed ip hip).imp (himp ip) id

end

/-- An orderly step is no exception, and the list shows what it is to show. -/
theorem listing_step [DecidableEq β] (past : List (NetworkEffect β)) (s : Network β) (event : NetworkEvent β)
    (h : Listing (Addressed past) (shown past) s) (orderly : Orderly past s event) : ∃ s' effects,
    (network β).step s event = some (s', effects) ∧
      Listing (Addressed (past ++ effects)) (shown (past ++ effects)) s' := by
  have kept : ∀ effects ip, Addressed past ip → Addressed (past ++ effects) ip := fun effects _ hip => hip.append effects
  have same : ∀ s' : Network β, Listing (Addressed past) (shown past) s' →
      Listing (Addressed (past ++ [])) (shown (past ++ [])) s' := by
    intro s' h'
    rwa [List.append_nil]
  cases event with
  | search => exact ⟨_, _, rfl, same _ (h.search orderly)⟩
  | close => exact ⟨_, _, rfl, same _ h.close⟩
  | refresh =>
    refine ⟨_, _, rfl, ?_⟩
    rw [shown_snoc]
    exact (h.mono (kept _)).refresh
  | status board ip =>
    refine ⟨_, _, rfl, ?_⟩
    rw [shown_snoc]
    exact (h.mono (kept _)).status board (.inr ⟨board, List.mem_append_right _ (List.mem_singleton_self _)⟩)
  | answer board i allocated rest =>
    obtain rfl : allocated = true := orderly
    have htext : trim search = search := by decide
    cases hport : s.searches[i]? with
    | none => exact ⟨s, [], by simp only [network, Network.step, hport], same s h⟩
    | some port =>
      have hreply : udpServerRecv (s.gLocalIp board) true (.ofList (bytesOf (trim App.search)) rest) =
          some (some (searchReply (s.gLocalIp board))) := by
        rw [htext, udpServerRecv_eq, if_pos (search_magic rest)]
      refine ⟨_, [], ?_, same _ (h.answer board port)⟩
      simp only [network, Network.step, hport, hreply, Option.bind_eq_bind, Option.bind_some]
  | receive i =>
    cases hd : s.datagrams[i]? with
    | none => exact ⟨s, [], by simp only [network, Network.step, hd], same s h⟩
    | some d =>
      by_cases hbound : s.socket = some d.port
      · have hlisting : Listing (Addressed (past ++ [.received d.sender])) (shown past) s := h.mono (kept _)
        obtain ⟨app, added, hstep, happ⟩ := hlisting.receive (List.mem_of_getElem? hd)
        refine ⟨{ s with app }, [.received d.sender], ?_, by rwa [shown_snoc]⟩
        simp only [network, Network.step, hd, if_pos hbound, hstep, Option.bind_eq_bind, Option.bind_some]
      · exact ⟨s, [], by simp only [network, Network.step, hd, if_neg hbound], same s h⟩

theorem listing_created (ip mac : Option JString) :
    let past : List (NetworkEffect β) := []
    Listing (Addressed past) (shown past) (.created ip mac : Network β) where
  sent := nofun
  addresses _ := .inl rfl
  last := nofun
  listed := nofun
  list := rfl
  source := rfl
  port := .inr ⟨rfl, rfl⟩
  bound _ := nofun

/-- Whatever is lost, late or there twice, and whatever addresses boards are
given: the app lists one board at most, which has answered, and what it connects
to is an address that a board has had. It is the first to answer since the list
was cleared, unless the app has heard its own search since then, on the socket
that is opened after `setPort`: that lists the board that answered last, though
it may not have answered again. -/
theorem search_run [DecidableEq β] (lookup : JString → Option Word) (ip mac : Option JString)
    (events : List (NetworkEvent β)) (orderly : (network β).Meets Orderly [] (.created ip mac) events) :
    ∃ s effects, (network β).run (.created ip mac) events = some (s, effects) ∧
      s.app.imageDetails = (shown effects).listed.toList.map entry ∧
      (.received none ∉ sinceCleared effects →
        s.app.imageDetails = (answers (sinceCleared effects)).head?.toList.map entry) ∧
      ∀ x ∈ s.app.imageDetails, ∃ host ip, x.itemDescription = some host ∧ getByName lookup host = some ip ∧
        ip ∈ answers effects ∧ Addressed effects ip := by
  obtain ⟨s, effects, hrun, h⟩ := Faulting.history_of_meets listing_step (listing_created ip mac) orderly
  rw [List.nil_append] at h
  refine ⟨s, effects, hrun, h.list, fun own => ?_, fun x hx => ?_⟩
  · rw [h.list, shown_listed effects own]
  · rw [h.list] at hx
    obtain ⟨ip, hip, rfl⟩ := List.mem_map.mp hx
    have hlisted := Option.mem_toList.mp hip
    exact ⟨dotted ip, ip, rfl, getByName_dotted lookup ip, (shown_answered effects).2 ip hlisted, (h.listed ip hlisted).1⟩

/-- Two boards answer one search. -/
theorem search_run_two : ∃ s effects, (network Bool).run (.created none none)
    [.status true 0x0A01A8C0, .status false 0x0B01A8C0, .search, .answer true 0 true fun _ => 0,
      .answer false 0 true fun _ => 0, .receive 1, .receive 0] = some (s, effects) ∧
    s.app.imageDetails = (shown effects).listed.toList.map entry ∧
    (.received none ∉ sinceCleared effects →
      s.app.imageDetails = (answers (sinceCleared effects)).head?.toList.map entry) ∧
    ∀ x ∈ s.app.imageDetails, ∃ host ip, x.itemDescription = some host ∧ getByName (fun _ => none) host = some ip ∧
      ip ∈ answers effects ∧ Addressed effects ip := by
  refine search_run (fun _ => none) none none _ ⟨trivial, ?_⟩
  intro s₁ _ h₁
  obtain ⟨rfl, -⟩ := Prod.mk.inj (Option.some.inj h₁)
  refine ⟨trivial, ?_⟩
  intro s₂ _ h₂
  obtain ⟨rfl, -⟩ := Prod.mk.inj (Option.some.inj h₂)
  have hport : (6666 : Nat) ≠ udpServerPort := by decide
  exact ⟨fun _ h => absurd h hport, fun _ _ _ => ⟨rfl, fun _ _ _ => ⟨rfl, fun _ _ _ => ⟨trivial, fun _ _ _ =>
    ⟨trivial, fun _ _ _ => trivial⟩⟩⟩⟩⟩

-- The list is cleared, and the app's own search puts the board in it again.
example : (((network Bool).run (.created none none) [.status true 0x0A01A8C0, .search, .answer true 0 true fun _ => 0,
    .receive 0, .close, .search, .refresh, .receive 1]).map fun r =>
      (r.1.app.imageDetails, answers (sinceCleared r.2))) = some ([entry 0x0A01A8C0], []) := by
  decide +kernel

end EthernetOta.System
