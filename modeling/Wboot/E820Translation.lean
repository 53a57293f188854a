import Wboot.LinuxBoot
import Wboot.CString
import Wboot.RangeMerge

/-! `wboot_translate_memmap` and `add_e820ext` (src/phase3/wboot.c) over flat
memory, and their refinement to a list machine. The loop keeps an entry cursor
and a pointer to the previous entry; entry 128 and later live behind the header
of the e820ext node. The list machine keeps the entries newest first and says
where the loop gives up. -/

namespace Wboot.E820Translation
open StateProgram ByteMemory Machine LinuxBoot RangeMerge
open CString (addressSpace)

def e820TypeRam : Nat := 1
def e820TypeReserved : Nat := 2
def e820TypeAcpi : Nat := 3
def e820TypeNvs : Nat := 4
def e820TypeUnusable : Nat := 5
def e820TypePmem : Nat := 7

/-- The switch on EFI_MEMORY_TYPE; `none` is its default, which skips the descriptor. -/
def e820TypeOf (efiType : Nat) : Option Nat :=
  match efiType with
  | 0 => some e820TypeReserved   -- EfiReservedMemoryType
  | 5 => some e820TypeReserved   -- EfiRuntimeServicesCode
  | 6 => some e820TypeReserved   -- EfiRuntimeServicesData
  | 11 => some e820TypeReserved  -- EfiMemoryMappedIO
  | 12 => some e820TypeReserved  -- EfiMemoryMappedIOPortSpace
  | 13 => some e820TypeReserved  -- EfiPalCode
  | 8 => some e820TypeUnusable   -- EfiUnusableMemory
  | 9 => some e820TypeAcpi       -- EfiACPIReclaimMemory
  | 1 => some e820TypeRam        -- EfiLoaderCode
  | 2 => some e820TypeRam        -- EfiLoaderData
  | 3 => some e820TypeRam        -- EfiBootServicesCode
  | 4 => some e820TypeRam        -- EfiBootServicesData
  | 7 => some e820TypeRam        -- EfiConventionalMemory
  | 10 => some e820TypeNvs       -- EfiACPIMemoryNVS
  | 14 => some e820TypePmem      -- EfiPersistentMemory
  | _ => none

/-- The loop variables. Pointers are 0 for NULL. -/
structure Cursor where
  entry : Nat
  prev : Nat
  nrEntries : Nat

/-- `map + i * efi_memdesc_size`, with the address put together from its halves. -/
def descriptorAt (memory : Memory) (params i : Nat) : Nat :=
  u64 ((Params.efiMemmap.get memory params ||| Params.efiMemmapHi.get memory params <<< 32) +
    i * Params.efiMemdescSize.get memory params)

def sameRun (memory : Memory) (prev e820Type start : Nat) : Bool :=
  decide (prev ≠ 0 ∧ Entry.type.get memory prev = e820Type ∧
    u64 (Entry.addr.get memory prev + Entry.size.get memory prev) = start)

/-- `need`. The header it adds is setup_header_t, larger than the node's setup_data_t. -/
def needBytes (nrDesc i : Nat) : Nat :=
  u32 ((nrDesc - i) * sizeofBootE820Entry + sizeofSetupHeader)

def growEntry (prev pages : Nat) : Prog Ram Unit := do
  let size ← loadField prev Entry.size
  storeField prev Entry.size (size + pages <<< 12)
  recordAccess (.e820Entry prev)

def writeEntry (entry d e820Type : Nat) : Prog Ram Unit := do
  storeField entry Entry.addr (← loadField d Desc.physicalStart)
  storeField entry Entry.size ((← loadField d Desc.numberOfPages) <<< 12)
  storeField entry Entry.type e820Type
  recordAccess (.e820Entry entry)

/-- One iteration; `none` is the early `return EFI_BUFFER_TOO_SMALL`. -/
def translateDescriptor (params e820ext e820extSize nrDesc i : Nat) (cursor : Cursor) :
    Prog Ram (Option Cursor) := do
  let d ← readState fun ram => descriptorAt ram.mem params i
  let efiType ← loadField d Desc.type
  match e820TypeOf efiType with
  | none => return some cursor
  | some e820Type =>
      let start ← loadField d Desc.physicalStart
      let merges ← readState fun ram => sameRun ram.mem cursor.prev e820Type start
      if merges then
        let pages ← loadField d Desc.numberOfPages
        growEntry cursor.prev pages
        return some cursor
      if cursor.nrEntries = e820MaxEntriesZeropage ∧
          (e820ext = 0 ∨ e820extSize < needBytes nrDesc i) then
        return none
      -- boot_params map full: switch to the extension
      let entry := if cursor.nrEntries = e820MaxEntriesZeropage
        then e820ext + sizeofSetupData else cursor.entry
      writeEntry entry d e820Type
      return some ⟨entry + sizeofBootE820Entry, entry, cursor.nrEntries + 1⟩

def translateLoop (params e820ext e820extSize nrDesc : Nat) :
    Nat → Cursor → Prog Ram (Option Cursor)
  | 0, cursor => pure (some cursor)
  | remaining + 1, cursor => do
      match ← translateDescriptor params e820ext e820extSize nrDesc
          (nrDesc - (remaining + 1)) cursor with
      | none => return none
      | some next => translateLoop params e820ext e820extSize nrDesc remaining next

/-- `while (data && data->next) data = data->next;`, at most `fuel` tests of its
condition; `none` when they are used up. -/
def lastNodeFrom (memory : Memory) : Nat → Nat → Option Nat
  | 0, _ => none
  | fuel + 1, data =>
      if data ≠ 0 ∧ Node.next.get memory data ≠ 0
      then lastNodeFrom memory fuel (Node.next.get memory data) else some data

/-- `none`: the list runs in a circle and the walk over it never ends. A walk that
ends passes no node twice, so it needs no more tests than there are addresses. -/
def addE820ext (params e820ext nrEntries : Nat) : Prog Ram (Option Unit) := do
  storeField e820ext Node.type setupE820Ext
  storeField e820ext Node.len (nrEntries * sizeofBootE820Entry)
  storeField e820ext Node.next 0
  let head ← loadField (params + Params.hdr) Hdr.setupData
  match ← readState fun ram => lastNodeFrom ram.mem addressSpace head with
  | none => return none
  | some data =>
      if data ≠ 0 then storeField data Node.next e820ext
      else storeField (params + Params.hdr) Hdr.setupData e820ext
      return some ()

/-- A zero descriptor size traps on the machine; the division gives 0 here. -/
def descriptorCount (memory : Memory) (params : Nat) : Nat :=
  Params.efiMemmapSize.get memory params / Params.efiMemdescSize.get memory params

/-- `none` when the call never returns. -/
def wbootTranslateMemmap (params e820ext e820extSize : Nat) : Prog Ram (Option EfiStatus) := do
  let nrDesc ← readState fun ram => descriptorCount ram.mem params
  match ← translateLoop params e820ext e820extSize nrDesc nrDesc
      ⟨params + Params.e820Table, 0, 0⟩ with
  | none => return some efiBufferTooSmall
  | some cursor =>
      let nrE820ext := cursor.nrEntries - e820MaxEntriesZeropage
      let linked ← if cursor.nrEntries > e820MaxEntriesZeropage
        then addE820ext params e820ext nrE820ext else pure (some ())
      match linked with
      | none => return none
      | some () =>
          storeField params Params.e820Entries (cursor.nrEntries - nrE820ext)
          return some efiSuccess

/-! ### The list machine -/

def entryRange (memory : Memory) (entry : Nat) : Range Nat :=
  ⟨Entry.addr.get memory entry, Entry.size.get memory entry, Entry.type.get memory entry⟩

/-- What the switch makes of the descriptor at `d`. -/
def rangeOf (memory : Memory) (d : Nat) : Option (Range Nat) :=
  (e820TypeOf (Desc.type.get memory d)).map fun e820Type =>
    ⟨Desc.physicalStart.get memory d, u64 (Desc.numberOfPages.get memory d <<< 12), e820Type⟩

/-- The merge test on 64-bit sums, against the newest entry. -/
def grows (kept : List (Range Nat)) (range : Range Nat) : Bool :=
  match kept with
  | [] => false
  | last :: _ => decide (last.tag = range.tag ∧ u64 (last.start + last.size) = range.start)

def grown (kept : List (Range Nat)) (range : Range Nat) : List (Range Nat) :=
  match kept with
  | [] => []
  | last :: older => { last with size := u64 (last.size + range.size) } :: older

def mergeRange (refused : Bool) (kept : List (Range Nat)) (range : Range Nat) :
    Option (List (Range Nat)) :=
  if grows kept range then some (grown kept range)
  else if kept.length = e820MaxEntriesZeropage ∧ refused = true then none
  else some (range :: kept)

def mergeDescriptor (refused : Bool) (kept : List (Range Nat)) :
    Option (Range Nat) → Option (List (Range Nat))
  | none => some kept
  | some range => mergeRange refused kept range

/-- The whole loop over the descriptors still to come, the first of index `i`. -/
def mergeFrom (refused : Nat → Bool) : Nat → List (Range Nat) → List (Option (Range Nat)) →
    Option (List (Range Nat))
  | _, kept, [] => some kept
  | i, kept, range :: rest =>
      match mergeDescriptor (refused i) kept range with
      | none => none
      | some next => mergeFrom refused (i + 1) next rest

def refusedAt (e820ext e820extSize nrDesc i : Nat) : Bool :=
  decide (e820ext = 0 ∨ e820extSize < needBytes nrDesc i)

def inputRanges (memory : Memory) (params : Nat) (count : Nat) : List (Option (Range Nat)) :=
  (List.range count).map fun i => rangeOf memory (descriptorAt memory params i)

/-! ### Where entries live -/

/-- The address of entry `k`: in the zero page, or behind the node header. -/
def slot (params e820ext k : Nat) : Nat :=
  if k < e820MaxEntriesZeropage then params + Params.e820Table + k * sizeofBootE820Entry
  else e820ext + sizeofSetupData + (k - e820MaxEntriesZeropage) * sizeofBootE820Entry

/-- Entries newest first, each in the slot of its age. -/
def Recorded (memory : Memory) (slotOf : Nat → Nat) : List (Range Nat) → Prop
  | [] => True
  | range :: older => entryRange memory (slotOf older.length) = range ∧ Recorded memory slotOf older

/-- Entry `k` is part of boot_params or of the e820ext buffer. -/
def InRoom (e820ext e820extSize k : Nat) : Prop :=
  k < e820MaxEntriesZeropage ∨ (e820ext ≠ 0 ∧
    sizeofSetupData + (k - e820MaxEntriesZeropage + 1) * sizeofBootE820Entry ≤ e820extSize)

/-- The bytes the loop may write. -/
def Writable (params e820ext e820extSize x : Nat) : Prop :=
  (params + Params.e820Table ≤ x ∧
    x < params + Params.e820Table + e820MaxEntriesZeropage * sizeofBootE820Entry) ∨
  (e820ext ≠ 0 ∧ e820ext + sizeofSetupData ≤ x ∧ x < e820ext + e820extSize)

/-- boot_params, the e820ext buffer and the memory map are separate objects, and
a descriptor is as long as UEFI says at least. -/
structure Layout (memory : Memory) (params e820ext e820extSize : Nat) : Prop where
  descSize : 40 ≤ Params.efiMemdescSize.get memory params
  mapBounded : descriptorAt memory params 0 +
    descriptorCount memory params * Params.efiMemdescSize.get memory params ≤ 2 ^ 64
  extBounded : e820ext + e820extSize ≤ 2 ^ 64
  extApart : e820ext ≠ 0 → Apart params sizeofBootParams e820ext e820extSize
  mapApart : Apart (descriptorAt memory params 0)
    (descriptorCount memory params * Params.efiMemdescSize.get memory params)
    params sizeofBootParams
  mapExtApart : e820ext ≠ 0 → Apart (descriptorAt memory params 0)
    (descriptorCount memory params * Params.efiMemdescSize.get memory params)
    e820ext e820extSize

end Wboot.E820Translation
