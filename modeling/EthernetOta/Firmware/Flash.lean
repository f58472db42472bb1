import EthernetOta.Lib.Bytes
import EthernetOta.Lib.Nor

/-!
# The flash service of the SAM4SD32

`flash_efc.c` over two flash controllers. The GPNVM2 bit chooses which
controller's array is seen at `IFLASH0_ADDR`, where the CPU runs, and which at
`IFLASH1_ADDR`. The outcome of a controller command is an input: it completes,
or it raises error flags and leaves the cells it addresses in any state.
Reads of the GPNVM bits are taken to be right. Wait states and the IAP path are
left out; nothing modelled reads them.
-/

namespace EthernetOta.Firmware

def iflash0Addr : Word := 0x00400000#32
def iflash0Size : Word := 0x100000#32
def iflash0PageSize : Word := 512#32
def iflash1Addr : Word := iflash0Addr + iflash0Size
def iflash1Size : Word := 0x100000#32
def iflash1PageSize : Word := 512#32
def iflashPageSize : Word := iflash0PageSize

def flashRcOk : Word := 0#32
def flashRcError : Word := 0x10#32
def flashRcInvalid : Word := 0x11#32

/-- `IFLASH_ERASE_PAGES_8`, the argument bits that ask for eight pages. -/
def iflashErasePages8 : Half := 1#16
def iflashErasePagesInvalid : Half := 4#16

inductive Efc
  | efc0
  | efc1
  deriving DecidableEq, Repr

structure Flash where
  cells : Efc → Nor.Cells 8
  gpnvm2 : Bool

def Flash.efcAt0 (f : Flash) : Efc := if f.gpnvm2 then .efc1 else .efc0

def Flash.efcAt1 (f : Flash) : Efc := if f.gpnvm2 then .efc0 else .efc1

/-- The array seen at `IFLASH1_ADDR`, which an upgrade writes. -/
def Flash.bank1 (f : Flash) : Nor.Cells 8 := f.cells f.efcAt1

def Flash.update (f : Flash) (efc : Efc) (c : Nor.Cells 8) : Flash :=
  { f with cells := fun e => if e = efc then c else f.cells e }

def Flash.read (f : Flash) (addr : Word) : Byte :=
  if iflash1Addr ≤ addr then f.cells f.efcAt1 (addr - iflash1Addr).toNat
  else f.cells f.efcAt0 (addr - iflash0Addr).toNat

-- ---------------------------------------------------------------------------
-- Addresses
-- ---------------------------------------------------------------------------

/-- Controller, page (a `uint16_t`) and offset in the page. -/
def translateAddress (f : Flash) (addr : Word) : Efc × Half × Nat :=
  if iflash1Addr ≤ addr then
    (if f.gpnvm2 then .efc0 else .efc1, ((addr - iflash1Addr) / iflash1PageSize).setWidth 16,
      ((addr - iflash1Addr) % iflash1PageSize).toNat)
  else
    (if f.gpnvm2 then .efc1 else .efc0, ((addr - iflash0Addr) / iflash0PageSize).setWidth 16,
      ((addr - iflash0Addr) % iflash0PageSize).toNat)

def computeAddress (f : Flash) (efc : Efc) (page : Half) (offset : Nat) : Word :=
  let inBank := page.setWidth 32 * iflashPageSize + BitVec.ofNat 32 offset
  match efc with
  | .efc0 => if f.gpnvm2 then iflash1Addr + inBank else iflash0Addr + inBank
  | .efc1 => if f.gpnvm2 then iflash0Addr + inBank else iflash1Addr + inBank

-- ---------------------------------------------------------------------------
-- Controller commands
-- ---------------------------------------------------------------------------

inductive EfcCmd
  /-- `EFC_FCMD_EPA`: erase a group of pages. The low bits of the argument give the size. -/
  | erasePages (efc : Efc) (arg : Half)
  /-- `EFC_FCMD_WP`: program the latched page. -/
  | writePage (efc : Efc) (page : Half)
  deriving DecidableEq, Repr

inductive Outcome
  | done
  | error (flags : { w : Word // w ≠ 0 }) (left : Nor.Cells 8)

def EfcCmd.efc : EfcCmd → Efc
  | .erasePages efc _ => efc
  | .writePage efc _ => efc

/-- How many pages the command addresses: 4, 8, 16 or 32 for an erase. -/
def EfcCmd.count : EfcCmd → Nat
  | .erasePages _ arg => 4 <<< (arg.toNat % 4)
  | .writePage _ _ => 1

/-- The first of them; an erase addresses an aligned group. -/
def EfcCmd.firstPage (c : EfcCmd) : Nat :=
  match c with
  | .erasePages _ arg => arg.toNat / c.count * c.count
  | .writePage _ page => page.toNat

/-- `efc_perform_command`, with `latch` the contents of the page buffer. -/
def efcPerformCommand (io : EfcCmd → Outcome) (f : Flash) (c : EfcCmd) (latch : Mem) : Word × Flash :=
  let lo := c.firstPage * 512
  let n := c.count * 512
  match io c with
  | .done =>
    match c with
    | .erasePages efc _ => (0, f.update efc (Nor.erase lo n (f.cells efc)))
    | .writePage efc _ => (0, f.update efc (Nor.program lo n latch (f.cells efc)))
  | .error flags left => (flags, f.update c.efc (Nor.fill lo n left (f.cells c.efc)))

-- ---------------------------------------------------------------------------
-- Erasing and writing
-- ---------------------------------------------------------------------------

structure FlashRes where
  rc : Word
  flash : Flash
  cmds : List EfcCmd

def flashErasePage (io : EfcCmd → Outcome) (f : Flash) (addr : Word) (pageNum : Half) : FlashRes :=
  if iflashErasePagesInvalid ≤ pageNum then ⟨flashRcInvalid, f, []⟩
  else if addr &&& (iflashPageSize - 1) ≠ 0 then ⟨flashRcInvalid, f, []⟩
  else
    let (efc, page, _) := translateAddress f addr
    let cmd := EfcCmd.erasePages efc (page ||| pageNum)
    let (rc, f') := efcPerformCommand io f cmd (fun _ => 0)
    if rc ≠ 0 then ⟨flashRcError, f', [cmd]⟩ else ⟨flashRcOk, f', [cmd]⟩

/-- The page loop of `flash_write`. Each turn writes at least one byte, so
`size` turns are enough. -/
def flashWriteLoop (io : EfcCmd → Outcome) (efc : Efc) :
    Nat → Flash → Half → Nat → Mem → Nat → FlashRes
  | 0, f, _, _, _, _ => ⟨flashRcOk, f, []⟩
  | turns + 1, f, page, offset, buffer, size =>
    if size = 0 then ⟨flashRcOk, f, []⟩
    else
      let writeSize := min (512 - offset) size
      let pageAddr := computeAddress f efc page 0
      -- what is not written keeps the page's own bytes
      let pageBuffer : Mem := fun i =>
        if i < offset then f.read (pageAddr + BitVec.ofNat 32 i)
        else if i < offset + writeSize then buffer (i - offset)
        else f.read (pageAddr + BitVec.ofNat 32 i)
      let cmd := EfcCmd.writePage efc page
      let (rc, f') := efcPerformCommand io f cmd pageBuffer
      if rc ≠ 0 then ⟨rc, f', [cmd]⟩
      else
        let rest := flashWriteLoop io efc turns f' (page + 1) 0 (buffer.offset writeSize)
          (size - writeSize)
        ⟨rest.rc, rest.flash, cmd :: rest.cmds⟩

/-- `flash_write` without the erase flag. -/
def flashWrite (io : EfcCmd → Outcome) (f : Flash) (addr : Word) (buffer : Mem) (size : Nat) :
    FlashRes :=
  let (efc, page, offset) := translateAddress f addr
  flashWriteLoop io efc size f page offset buffer size

-- ---------------------------------------------------------------------------
-- GPNVM bits
-- ---------------------------------------------------------------------------

/-- A GPNVM command completes, or raises error flags and leaves the bit at `left`. -/
inductive GpnvmOutcome
  | done
  | error (flags : { w : Word // w ≠ 0 }) (left : Bool)

/-- `flash_is_gpnvm_set(GPNVM2) == FLASH_RC_YES`. -/
def flashIsGpnvmSet (f : Flash) : Bool := f.gpnvm2

def efcPerformGpnvm (o : GpnvmOutcome) (f : Flash) (bit : Bool) : Word × Flash :=
  match o with
  | .done => (0, { f with gpnvm2 := bit })
  | .error flags left => (flags, { f with gpnvm2 := left })

def flashSetGpnvm (o : GpnvmOutcome) (f : Flash) : Word × Flash :=
  if flashIsGpnvmSet f then (flashRcOk, f)
  else
    let (rc, f') := efcPerformGpnvm o f true
    if rc = 0 then (flashRcOk, f') else (flashRcError, f')

def flashClearGpnvm (o : GpnvmOutcome) (f : Flash) : Word × Flash :=
  if !flashIsGpnvmSet f then (flashRcOk, f)
  else
    let (rc, f') := efcPerformGpnvm o f false
    if rc = 0 then (flashRcOk, f') else (flashRcError, f')

end EthernetOta.Firmware
