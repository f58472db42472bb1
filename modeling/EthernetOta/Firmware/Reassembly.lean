import EthernetOta.Firmware.Server
import EthernetOta.Firmware.Switch

/-!
# Putting a chained frame together

The copy loop of `server_recv`. It copies the payloads of a chain one behind the
other from `ciphertext` on, into a buffer of the size of a plaintext block: what
comes to lie there is the frame that `serverRecvUpgrade` handles, and it lies
inside the buffer unless it is longer than that.
-/

namespace EthernetOta.Firmware

def memAlignment : Word := 4

def lwipMemAlignSize (size : Word) : Word := (size + memAlignment - 1) &&& ~~~ (memAlignment - 1)

def ciphertextSize : Nat := (lwipMemAlignSize (BitVec.ofNat 32 maxPlaintextLen)).toNat

def tcpMss : Nat := 1460

def tcpWnd : Nat := 2 * tcpMss

/-- The memory from `ciphertext` on, `datasize`, and the places written so far. -/
structure Copying where
  mem : Mem
  datasize : Nat
  written : List Nat

/-- `memcpy(ciphertext + datasize, data, len); datasize += len;` -/
def Copying.memcpy (c : Copying) (data : List Byte) : Copying where
  mem i := if i < c.datasize then c.mem i else data[i - c.datasize]?.getD (c.mem i)
  datasize := c.datasize + data.length
  written := c.written ++ (List.range data.length).map (c.datasize + ·)

/-- `while (ptemp != NULL)` -/
def copyLoop (c : Copying) : PbufChain → Copying
  | [] => c
  | ptemp :: next => copyLoop (c.memcpy ptemp) next

def reassemble (mem : Mem) (p : List Byte) (next : PbufChain) : Copying :=
  copyLoop ((⟨mem, 0, []⟩ : Copying).memcpy p) next

-- ---------------------------------------------------------------------------
-- What is copied
-- ---------------------------------------------------------------------------

structure Copied (mem : Mem) (done : List Byte) (c : Copying) : Prop where
  bytes : c.mem = .ofList done mem
  size : c.datasize = done.length
  places : c.written = List.range done.length

theorem PbufChain.length_flatten (p : PbufChain) : p.flatten.length = p.totLen := List.length_flatten

theorem Copied.memcpy (h : Copied mem done c) (data : List Byte) : Copied mem (done ++ data) (c.memcpy data) where
  bytes := by
    funext i
    have hmem := congrFun h.bytes i
    simp only [Copying.memcpy, h.size, Mem.ofList] at hmem ⊢
    rcases Nat.lt_or_ge i done.length with hi | hi
    · rw [if_pos hi, hmem, List.getElem?_append_left hi]
    · rw [if_neg (Nat.not_lt.mpr hi), hmem, List.getElem?_append_right hi, List.getElem?_eq_none hi, Option.getD_none]
  size := by
    rw [List.length_append, ← h.size]
    rfl
  places := by
    rw [List.length_append, List.range_add, ← h.places, ← h.size]
    rfl

theorem Copied.copyLoop (h : Copied mem done c) (next : PbufChain) :
    Copied mem (done ++ next.flatten) (copyLoop c next) := by
  induction next generalizing done c with
  | nil => rwa [List.flatten_nil, List.append_nil]
  | cons ptemp next ih =>
    have hnext := ih (h.memcpy ptemp)
    rwa [List.append_assoc] at hnext

theorem reassemble_copied (mem : Mem) (p : List Byte) (next : PbufChain) :
    Copied mem (p :: next).flatten (reassemble mem p next) := by
  have hstart : Copied mem [] ⟨mem, 0, []⟩ := ⟨rfl, rfl, rfl⟩
  exact (hstart.memcpy p).copyLoop next

theorem serverRecv_reassembled (lib : GcmLib) (b : Board) (pcb : Pcb) (ipaddr : Word) (port : Half)
    (starts : startsUpgrade (.ofList p env.behind) = true) (room : env.ciphertext = true) :
    serverRecv lib b pcb ipaddr port p next env =
      let r := handleUpgradePacket lib env.upgrade b.dev (reassemble env.behind p next).mem
      some ({ b with dev := r.1 }, [.handled (p :: next).flatten, .net (.tcpRecved pcb (PbufChain.totLen (p :: next))),
        .sendData (generateAckFrame r.2.ack)]) := by
  have hroom : ¬ (p.length < PbufChain.totLen (p :: next) ∧ env.ciphertext = false) :=
    fun h => absurd (room.symm.trans h.2) (Bool.false_ne_true ∘ Eq.symm)
  rw [serverRecv, if_pos starts, serverRecvUpgrade, if_neg hroom, (reassemble_copied env.behind p next).bytes]

-- ---------------------------------------------------------------------------
-- The buffer
-- ---------------------------------------------------------------------------

/-- Every byte lands in the buffer, which then holds the payloads of the chain. -/
structure Reassembled (mem : Mem) (p : List Byte) (next : PbufChain) : Prop where
  below : ∀ i ∈ (reassemble mem p next).written, i < ciphertextSize
  holds : ((reassemble mem p next).mem.slice 0 ciphertextSize).take (PbufChain.totLen (p :: next)) =
    (p :: next).flatten

theorem ciphertextSize_eq : ciphertextSize = 1024 := by decide

theorem reassembled_of_le (mem : Mem) (h : PbufChain.totLen (p :: next) ≤ ciphertextSize) :
    Reassembled mem p next where
  below := by
    rw [(reassemble_copied mem p next).places, PbufChain.length_flatten]
    intro i hi
    exact Nat.lt_of_lt_of_le (List.mem_range.mp hi) h
  holds := by
    rw [(reassemble_copied mem p next).bytes, ← PbufChain.length_flatten]
    rw [← PbufChain.length_flatten] at h
    rw [Mem.take_slice _ _ h, Mem.slice_ofList (Nat.le_of_eq (Nat.zero_add _)), List.drop_zero, List.take_length]

theorem not_reassembled (mem : Mem) (h : ciphertextSize < PbufChain.totLen (p :: next)) :
    ¬ Reassembled mem p next := by
  intro fits
  have hbelow := fits.below
  rw [(reassemble_copied mem p next).places, PbufChain.length_flatten] at hbelow
  exact absurd (hbelow _ (List.mem_range.mpr h)) (Nat.lt_irrefl _)

/-- A chain is put together inside the buffer just when it is no longer than a plaintext block. -/
theorem reassembled_iff (mem : Mem) (p : List Byte) (next : PbufChain) :
    Reassembled mem p next ↔ PbufChain.totLen (p :: next) ≤ maxPlaintextLen := by
  have hsize : ciphertextSize = maxPlaintextLen := ciphertextSize_eq
  rw [← hsize]
  constructor
  · intro h
    by_contra hlen
    exact not_reassembled mem (Nat.lt_of_not_le hlen) h
  · exact reassembled_of_le mem

/-- A data frame of the app in two segments: its last 19 bytes land behind the buffer. -/
theorem dataFrame_overruns :
    let frame := App.dataFrame (List.replicate 1024 0) 0
    let p := frame.take 1000
    let next : PbufChain := [frame.drop 1000]
    let mem : Mem := fun _ => 0
    startsUpgrade (.ofList p mem) = true ∧ p.length < PbufChain.totLen (p :: next) ∧
      PbufChain.totLen (p :: next) ≤ tcpWnd ∧ ¬ Reassembled mem p next := by
  have hlen : (App.dataFrame (List.replicate 1024 0) 0).length = 1043 :=
    System.length_dataFrame 0 List.length_replicate
  have htake : ((App.dataFrame (List.replicate 1024 0) 0).take 1000).length = 1000 := by
    rw [List.length_take, hlen]
    decide
  have htot : PbufChain.totLen [(App.dataFrame (List.replicate 1024 0) 0).take 1000,
      (App.dataFrame (List.replicate 1024 0) 0).drop 1000] = 1043 := by
    rw [← PbufChain.length_flatten, List.flatten_cons, List.flatten_cons, List.flatten_nil, List.append_nil,
      List.take_append_drop, hlen]
  refine ⟨rfl, ?_, ?_, not_reassembled _ ?_⟩
  · rw [htot, htake]
    decide
  · rw [htot]
    decide
  · rw [htot]
    decide

end EthernetOta.Firmware
