import Wboot.StateProgram
import Wboot.ByteMemory

/-! What phase 3 runs on. The firmware is a strategy: each service is answered
by a function of everything that happened so far, so quantifying over `Firmware`
quantifies over every sequence of results. The state holds the memory the loader
shares with the firmware and the kernel, the calls made (newest first), the
statics of wstdlib and wboot.c, and a log of the accesses some results are about.
The loader's own image and stack are not part of that memory. -/

namespace Wboot.Machine
open StateProgram ByteMemory

def u64 (value : Nat) : Nat := value % 2 ^ 64
def u32 (value : Nat) : Nat := value % 2 ^ 32
def u8 (value : Nat) : Nat := value % 2 ^ 8

abbrev EfiStatus := Nat

def errorStatus (code : Nat) : EfiStatus := 2 ^ 63 + code
/-- `EFI_ERROR`: the sign bit. A warning is not an error. -/
def efiError (status : EfiStatus) : Bool := decide (2 ^ 63 ≤ status)

def efiSuccess : EfiStatus := 0
def efiInvalidParameter : EfiStatus := errorStatus 2
def efiBadBufferSize : EfiStatus := errorStatus 4
def efiBufferTooSmall : EfiStatus := errorStatus 5
def efiOutOfResources : EfiStatus := errorStatus 9
def efiNotFound : EfiStatus := errorStatus 14

def efiPageSize : Nat := 4096

inductive AllocateType where
  | anyPages
  | maxAddress
  | address
  deriving DecidableEq

inductive Protocol where
  | devicePath
  | devicePathToText
  | simpleFileSystem
  | graphicsOutput
  | simpleTextOutput
  | edidActive
  | edidDiscovered
  deriving DecidableEq

/-- What one GetMemoryMap call leaves behind: its status, the in/out size, and
the outputs. `map` is what it puts into the buffer, if there is one. -/
structure MemoryMapReply where
  status : EfiStatus
  mapSize : Nat
  mapKey : Nat
  descSize : Nat
  descVer : Nat
  map : List UInt8

structure FileInfoReply where
  status : EfiStatus
  size : Nat
  info : List UInt8

/-- EFI_GRAPHICS_OUTPUT_MODE_INFORMATION. The pixel format is a C enum, so signed. -/
structure ModeInfo where
  horizontalResolution : Nat
  verticalResolution : Nat
  pixelFormat : Int
  redMask : Nat
  greenMask : Nat
  blueMask : Nat
  reservedMask : Nat
  pixelsPerScanLine : Nat

structure GopMode where
  maxMode : Nat
  mode : Nat
  info : ModeInfo
  frameBufferBase : Nat

inductive Event where
  | getMemoryMap (size buffer : Nat) (reply : MemoryMapReply)
  | allocatePool (size : Nat) (status : EfiStatus) (pointer : Nat)
  | freePool (pointer : Nat) (status : EfiStatus)
  | allocatePages (kind : AllocateType) (pages request : Nat) (status : EfiStatus) (address : Nat)
  | freePages (address pages : Nat) (status : EfiStatus)
  | exitBootServices (key : Nat) (status : EfiStatus)
  | locateProtocol (protocol : Protocol) (status : EfiStatus)
  | locateHandle (protocol : Protocol) (status : EfiStatus)
  | locateHandleBuffer (protocol : Protocol) (status : EfiStatus)
  | handleProtocol (handle : Nat) (protocol : Protocol) (status : EfiStatus)
  | convertDevicePathToText (path pointer : Nat) (text : List UInt16)
  | openVolume (fileSystem : Nat) (status : EfiStatus) (root : Nat)
  | fileOpen (parent : Nat) (path : List UInt16) (status : EfiStatus) (file : Nat)
  | fileSetPosition (file position : Nat) (status : EfiStatus)
  | fileRead (file size : Nat) (status : EfiStatus) (delivered : Nat)
  | fileGetInfo (file size buffer : Nat) (status : EfiStatus)
  | fileClose (file : Nat) (status : EfiStatus)
  | queryMode (gop mode : Nat) (status : EfiStatus)
  | setMode (gop mode : Nat) (status : EfiStatus)
  | waitForEvent
  | readKeyStroke (ready : Bool)
  | handoff (params entry : Nat)

abbrev History := List Event

structure Firmware where
  imageHandle : Nat
  systemTable : Nat
  getMemoryMap : History → Nat → Nat → MemoryMapReply
  allocatePool : History → Nat → EfiStatus × Nat
  freePool : History → Nat → EfiStatus
  allocatePages : History → AllocateType → Nat → Nat → EfiStatus × Nat
  freePages : History → Nat → Nat → EfiStatus
  exitBootServices : History → Nat → EfiStatus
  locateProtocol : History → Protocol → EfiStatus
  locateHandle : History → Protocol → EfiStatus × List Nat
  locateHandleBuffer : History → Protocol → EfiStatus × List Nat
  handleProtocol : History → Nat → Protocol → EfiStatus × Nat
  convertDevicePathToText : History → Nat → Nat × List UInt16
  openVolume : History → Nat → EfiStatus × Nat
  fileOpen : History → Nat → List UInt16 → EfiStatus × Nat
  fileSetPosition : History → Nat → Nat → EfiStatus
  fileRead : History → Nat → Nat → EfiStatus × List UInt8
  fileGetInfo : History → Nat → Nat → Nat → FileInfoReply
  fileClose : History → Nat → EfiStatus
  gopMode : History → Nat → GopMode
  queryMode : History → Nat → Nat → EfiStatus × ModeInfo
  setMode : History → Nat → Nat → EfiStatus
  edid : History → Nat → Nat × Option (List UInt8)
  keyDelay : History → Nat
  keyStroke : History → UInt16
  scanCode : History → UInt16

/-- libzstd as the loader uses it. It is linked in and not part of the source. -/
structure Zstd where
  createDCtx : History → Nat
  findFrameCompressedSize : List UInt8 → Nat
  decompressDCtx : History → Nat → List UInt8 → Nat × List UInt8
  isError : Nat → Bool
  getErrorName : Nat → List UInt8

/-! Allocations live after a history. A block is named by the kind of service
that made it and its start; releasing takes the newest one of that name. -/
section Allocations

inductive BlockKind where
  | pool
  | pages
  deriving DecidableEq

structure Block where
  kind : BlockKind
  start : Nat
  size : Nat
  deriving DecidableEq

def Block.named (kind : BlockKind) (start : Nat) (block : Block) : Bool :=
  decide (block.kind = kind ∧ block.start = start)

def Block.holds (block : Block) (x : Nat) : Prop := block.start ≤ x ∧ x < block.start + block.size

def live : History → List Block
  | [] => []
  | .allocatePool size status pointer :: before =>
      if efiError status then live before else ⟨.pool, pointer, size⟩ :: live before
  | .freePool pointer _ :: before => (live before).eraseP (Block.named .pool pointer)
  | .allocatePages _ pages _ status address :: before =>
      if efiError status then live before
      else ⟨.pages, address, pages * efiPageSize⟩ :: live before
  | .freePages address _ _ :: before => (live before).eraseP (Block.named .pages address)
  | .convertDevicePathToText _ pointer text :: before =>
      if pointer = 0 then live before
      else ⟨.pool, pointer, 2 * (text.length + 1)⟩ :: live before
  | _ :: before => live before

/-- A range the firmware may hand out: inside the address space, apart from
every live block, and, for a pool block, not at address zero or a live start. -/
structure Fresh (blocks : List Block) (block : Block) : Prop where
  bounded : block.start + block.size ≤ 2 ^ 64
  nonnull : block.kind = .pool → block.start ≠ 0
  unnamed : ∀ old ∈ blocks, old.kind = block.kind → block.kind = .pool → old.start ≠ block.start
  apart : ∀ old ∈ blocks, Apart block.start block.size old.start old.size

/-- The allocator contract of UEFI, and nothing about where blocks land or when
an allocation fails. -/
structure AllocatorSound (fw : Firmware) : Prop where
  pool : ∀ history size, efiError (fw.allocatePool history size).1 = false →
    Fresh (live history) ⟨.pool, (fw.allocatePool history size).2, size⟩
  pages : ∀ history kind count request,
    efiError (fw.allocatePages history kind count request).1 = false →
    Fresh (live history)
      ⟨.pages, (fw.allocatePages history kind count request).2, count * efiPageSize⟩
  text : ∀ history path, (fw.convertDevicePathToText history path).1 ≠ 0 →
    Fresh (live history) ⟨.pool, (fw.convertDevicePathToText history path).1,
      2 * ((fw.convertDevicePathToText history path).2.length + 1)⟩
  atAddress : ∀ history count request,
    efiError (fw.allocatePages history .address count request).1 = false →
    (fw.allocatePages history .address count request).2 = request

/-- The first address above everything live. -/
def ceiling (blocks : List Block) : Nat :=
  blocks.foldr (fun block bound => max (block.start + block.size + 1) bound) 0x1000000

def grant (block : Block) : EfiStatus × Nat :=
  if block.start + block.size ≤ 2 ^ 64 then (efiSuccess, block.start) else (efiOutOfResources, 0)

/-- A requested address is granted when nothing live is in the way. -/
def grantAt (blocks : List Block) (block : Block) : EfiStatus × Nat :=
  if blocks.all fun old => decide (Apart block.start block.size old.start old.size)
  then grant block else (efiNotFound, 0)

/-- Every call succeeds and delivers nothing; memory is handed out upward.
Concrete firmwares override a few services. -/
def idleFirmware : Firmware where
  imageHandle := 1
  systemTable := 0x1000
  getMemoryMap := fun _ _ _ => ⟨efiSuccess, 0, 0, 0, 0, []⟩
  allocatePool := fun history size => grant ⟨.pool, ceiling (live history), size⟩
  freePool := fun _ _ => efiSuccess
  allocatePages := fun history kind count request =>
    if kind = .address then grantAt (live history) ⟨.pages, request, count * efiPageSize⟩
    else grant ⟨.pages, ceiling (live history), count * efiPageSize⟩
  freePages := fun _ _ _ => efiSuccess
  exitBootServices := fun _ _ => efiSuccess
  locateProtocol := fun _ _ => efiSuccess
  locateHandle := fun _ _ => (efiSuccess, [])
  locateHandleBuffer := fun _ _ => (efiSuccess, [])
  handleProtocol := fun _ _ _ => (efiSuccess, 0)
  convertDevicePathToText := fun _ _ => (0, [])
  openVolume := fun _ _ => (efiSuccess, 1)
  fileOpen := fun _ _ _ => (efiSuccess, 1)
  fileSetPosition := fun _ _ _ => efiSuccess
  fileRead := fun _ _ _ => (efiSuccess, [])
  fileGetInfo := fun _ _ _ _ => ⟨efiSuccess, 0, []⟩
  fileClose := fun _ _ => efiSuccess
  gopMode := fun _ _ => ⟨0, 0, ⟨0, 0, 0, 0, 0, 0, 0, 0⟩, 0⟩
  queryMode := fun _ _ _ => (efiSuccess, ⟨0, 0, 0, 0, 0, 0, 0, 0⟩)
  setMode := fun _ _ _ => efiSuccess
  edid := fun _ _ => (0, none)
  keyDelay := fun _ => 0
  keyStroke := fun _ => 0
  scanCode := fun _ => 0

theorem ceiling_above (blocks : List Block) :
    0x1000000 ≤ ceiling blocks ∧ ∀ old ∈ blocks, old.start + old.size < ceiling blocks := by
  induction blocks with
  | nil => exact ⟨Nat.le_refl _, by simp⟩
  | cons block rest ih =>
      obtain ⟨base, above⟩ := ih
      have grows : ceiling (block :: rest) = max (block.start + block.size + 1) (ceiling rest) := rfl
      rw [grows]
      refine ⟨by omega, fun old member => ?_⟩
      rcases List.mem_cons.mp member with same | older
      · subst same
        omega
      · have under := above old older
        omega

theorem grant_granted {block : Block} (granted : efiError (grant block).1 = false) :
    block.start + block.size ≤ 2 ^ 64 ∧ (grant block).2 = block.start := by
  unfold grant at *
  split at granted
  · rename_i fits
    exact ⟨fits, by rw [if_pos fits]⟩
  · simp [efiError, efiOutOfResources, errorStatus] at granted

theorem ceiling_fresh (blocks : List Block) (kind : BlockKind) (size : Nat)
    (bounded : ceiling blocks + size ≤ 2 ^ 64) : Fresh blocks ⟨kind, ceiling blocks, size⟩ := by
  obtain ⟨base, above⟩ := ceiling_above blocks
  refine ⟨bounded, fun _ => by dsimp only; omega, fun old member _ _ => ?_, fun old member => ?_⟩
  · have under := above old member
    dsimp only
    omega
  · have under := above old member
    exact Or.inr (Nat.le_of_lt under)

theorem idleFirmware_sound : AllocatorSound idleFirmware where
  pool := fun history size granted => by
    obtain ⟨bounded, here⟩ := grant_granted granted
    have fresh := ceiling_fresh (live history) .pool size bounded
    exact here ▸ fresh
  pages := fun history kind count request granted => by
    simp only [idleFirmware] at granted ⊢
    split at granted
    · rename_i atAddress
      simp only [atAddress, ↓reduceIte]
      unfold grantAt at granted ⊢
      split at granted
      · rename_i free
        obtain ⟨bounded, here⟩ := grant_granted granted
        rw [if_pos free, here]
        refine ⟨bounded, by simp, by simp, fun old member => ?_⟩
        simpa using List.all_eq_true.mp free old member
      · simp [efiError, efiNotFound, errorStatus] at granted
    · rename_i anywhere
      obtain ⟨bounded, here⟩ := grant_granted granted
      rw [if_neg anywhere, here]
      exact ceiling_fresh (live history) .pages _ bounded
  text := fun _ _ present => absurd rfl present
  atAddress := fun history count request granted => by
    simp only [idleFirmware, ↓reduceIte] at granted ⊢
    unfold grantAt at granted ⊢
    split at granted
    · rename_i free
      rw [if_pos free]
      exact (grant_granted granted).2
    · simp [efiError, efiNotFound, errorStatus] at granted

end Allocations

/-- Accesses that results are about. Offsets are relative to the object the code
names; `placed` and `e820Entry` are absolute. -/
inductive Access where
  | payload (offset count : Nat)
  | image (offset count : Nat)
  | placed (address count : Nat)
  | e820Entry (address : Nat)
  | stringRead (pointer : Nat)
  | heapStore (pointer : Nat)
  deriving DecidableEq

structure Ram where
  mem : Memory
  accesses : List Access

/-- `_printf_buffer`, its position, the indices stored to and the serial line
(newest first). `overran` records a read past a format's terminator. -/
structure Console where
  buffer : Nat → UInt16
  pos : Nat
  stores : List Nat
  serial : List UInt8
  overran : Bool

structure World extends Ram where
  history : History
  console : Console
  bsExited : Bool
  errno : EfiStatus
  dctx : Nat

/-- Before the first call: zeroed memory and statics. -/
def bootWorld : World :=
  ⟨⟨fun _ => 0, []⟩, [], ⟨fun _ => 0, 0, [], [], false⟩, false, efiSuccess, 0⟩

abbrev Boot := Prog World

def inRam {α : Type} (program : Prog Ram α) : Boot α :=
  within World.toRam (fun world ram => { world with toRam := ram }) program

def recordAccess (access : Access) : Prog Ram Unit :=
  modifyState fun ram => { ram with accesses := access :: ram.accesses }

def loadField (base : Nat) (field : Field) : Prog Ram Nat :=
  readState fun ram => field.get ram.mem base

def storeField (base : Nat) (field : Field) (value : Nat) : Prog Ram Unit :=
  modifyState fun ram => { ram with mem := field.set ram.mem base value }

def deliver (address : Nat) (bytes : List UInt8) : Prog Ram Unit :=
  modifyState fun ram => { ram with mem := storeBytes ram.mem address bytes }

/-- One call into the firmware: the answer depends on the history, which grows
by one event. -/
def service {ρ : Type} (answer : History → ρ) (event : ρ → Event) : Boot ρ :=
  fun world => (answer world.history,
    { world with history := event (answer world.history) :: world.history })

@[simp] theorem service_apply {ρ : Type} (answer : History → ρ) (event : ρ → Event) (world : World) :
    service answer event world = (answer world.history,
      { world with history := event (answer world.history) :: world.history }) := rfl

@[simp] theorem inRam_apply {α : Type} (program : Prog Ram α) (world : World) :
    inRam program world =
      ((program world.toRam).1, { world with toRam := (program world.toRam).2 }) := rfl

section Services
variable (fw : Firmware)

def getMemoryMap (size buffer : Nat) : Boot MemoryMapReply := do
  let reply ← service (fun history => fw.getMemoryMap history size buffer)
    (fun reply => .getMemoryMap size buffer reply)
  if buffer ≠ 0 then inRam (deliver buffer (reply.map.take size))
  return reply

def allocatePool (size : Nat) : Boot (EfiStatus × Nat) :=
  service (fun history => fw.allocatePool history size)
    (fun reply => .allocatePool size reply.1 reply.2)

def freePool (pointer : Nat) : Boot EfiStatus :=
  service (fun history => fw.freePool history pointer) (fun status => .freePool pointer status)

def allocatePages (kind : AllocateType) (pages request : Nat) : Boot (EfiStatus × Nat) :=
  service (fun history => fw.allocatePages history kind pages request)
    (fun reply => .allocatePages kind pages request reply.1 reply.2)

def freePages (address pages : Nat) : Boot EfiStatus :=
  service (fun history => fw.freePages history address pages)
    (fun status => .freePages address pages status)

def exitBootServices (key : Nat) : Boot EfiStatus :=
  service (fun history => fw.exitBootServices history key)
    (fun status => .exitBootServices key status)

def locateProtocol (protocol : Protocol) : Boot EfiStatus :=
  service (fun history => fw.locateProtocol history protocol)
    (fun status => .locateProtocol protocol status)

def locateHandle (protocol : Protocol) : Boot (EfiStatus × List Nat) :=
  service (fun history => fw.locateHandle history protocol)
    (fun reply => .locateHandle protocol reply.1)

def locateHandleBuffer (protocol : Protocol) : Boot (EfiStatus × List Nat) :=
  service (fun history => fw.locateHandleBuffer history protocol)
    (fun reply => .locateHandleBuffer protocol reply.1)

def handleProtocol (handle : Nat) (protocol : Protocol) : Boot (EfiStatus × Nat) :=
  service (fun history => fw.handleProtocol history handle protocol)
    (fun reply => .handleProtocol handle protocol reply.1)

def wideBytes (text : List UInt16) : List UInt8 :=
  text.flatMap fun c : UInt16 => [c.toUInt8, (c >>> 8).toUInt8]

theorem wideBytes_length (text : List UInt16) : (wideBytes text).length = 2 * text.length := by
  unfold wideBytes
  induction text with
  | nil => rfl
  | cons c rest ih =>
      simp only [List.flatMap_cons, List.length_append, ih, List.length_cons, List.length_nil]
      omega

def convertDevicePathToText (path : Nat) : Boot Nat := do
  let reply ← service (fun history => fw.convertDevicePathToText history path)
    (fun reply => .convertDevicePathToText path reply.1 reply.2)
  if reply.1 ≠ 0 then inRam (deliver reply.1 (wideBytes (reply.2 ++ [0])))
  return reply.1

def openVolume (fileSystem : Nat) : Boot (EfiStatus × Nat) :=
  service (fun history => fw.openVolume history fileSystem)
    (fun reply => .openVolume fileSystem reply.1 reply.2)

def fileOpen (parent : Nat) (path : List UInt16) : Boot (EfiStatus × Nat) :=
  service (fun history => fw.fileOpen history parent path)
    (fun reply => .fileOpen parent path reply.1 reply.2)

def fileSetPosition (file position : Nat) : Boot EfiStatus :=
  service (fun history => fw.fileSetPosition history file position)
    (fun status => .fileSetPosition file position status)

/-- Read delivers no more than it was asked for. -/
def fileRead (file size : Nat) : Boot (EfiStatus × List UInt8) :=
  service (fun history =>
      ((fw.fileRead history file size).1, (fw.fileRead history file size).2.take size))
    (fun reply => .fileRead file size reply.1 reply.2.length)

def fileReadInto (file size buffer : Nat) : Boot (EfiStatus × Nat) := do
  let reply ← fileRead fw file size
  inRam (deliver buffer reply.2)
  return (reply.1, reply.2.length)

def fileGetInfo (file size buffer : Nat) : Boot FileInfoReply := do
  let reply ← service (fun history => fw.fileGetInfo history file size buffer)
    (fun reply => .fileGetInfo file size buffer reply.status)
  if buffer ≠ 0 then inRam (deliver buffer (reply.info.take size))
  return reply

def fileClose (file : Nat) : Boot EfiStatus :=
  service (fun history => fw.fileClose history file) (fun status => .fileClose file status)

def gopMode (gop : Nat) : Boot GopMode :=
  readState fun world => fw.gopMode world.history gop

def queryMode (gop mode : Nat) : Boot (EfiStatus × ModeInfo) :=
  service (fun history => fw.queryMode history gop mode)
    (fun reply => .queryMode gop mode reply.1)

def setMode (gop mode : Nat) : Boot EfiStatus :=
  service (fun history => fw.setMode history gop mode) (fun status => .setMode gop mode status)

def waitForEvent : Boot Unit :=
  service (fun _ => ()) (fun _ => .waitForEvent)

/-- `while (ReadKeyStroke(..) == EFI_NOT_READY) {}` for a key that takes `delay`
polls to arrive. -/
def readKeyStrokes : Nat → Boot UInt16
  | 0 => service fw.keyStroke (fun _ => .readKeyStroke true)
  | delay + 1 => do
      service (fun _ => ()) (fun _ => .readKeyStroke false)
      readKeyStrokes delay

end Services

end Wboot.Machine
