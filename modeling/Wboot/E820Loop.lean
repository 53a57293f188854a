import Wboot.E820Translation

/-! The loop of `wboot_translate_memmap` is the list machine. `Tracks` carries the
entries kept so far through memory: each in the slot of its age, everything the
loop may not write as it was. One descriptor is one step of the list machine,
and the run over all of them follows by induction. -/

namespace Wboot.E820Translation
open StateProgram ByteMemory Machine LinuxBoot RangeMerge

variable {memory base : Memory} {params e820ext e820extSize : Nat}

theorem slot_inside (k : Nat) (room : InRoom e820ext e820extSize k) (x : Nat)
    (lower : slot params e820ext k ≤ x) (upper : x < slot params e820ext k + sizeofBootE820Entry) :
    Writable params e820ext e820extSize x := by
  unfold slot at lower upper
  unfold Writable
  unfold InRoom at room
  simp only [e820MaxEntriesZeropage, sizeofBootE820Entry, sizeofSetupData] at *
  by_cases inTable : k < 128
  · simp only [inTable, ↓reduceIte] at lower upper
    left; omega
  · simp only [inTable, ↓reduceIte] at lower upper
    right
    obtain tooEarly | ⟨present, fits⟩ := room
    · omega
    · exact ⟨present, by omega, by omega⟩

theorem slots_apart (layout : Layout base params e820ext e820extSize) (j k : Nat) (less : j < k)
    (room : InRoom e820ext e820extSize k) :
    Apart (slot params e820ext j) sizeofBootE820Entry (slot params e820ext k) sizeofBootE820Entry := by
  have separate := layout.extApart
  unfold InRoom at room
  unfold Apart slot at *
  simp only [e820MaxEntriesZeropage, sizeofBootE820Entry, sizeofSetupData, sizeofBootParams,
    Params.e820Table] at *
  by_cases inTable : k < 128
  · have earlier : j < 128 := by omega
    simp only [inTable, earlier, ↓reduceIte]
    omega
  · obtain tooEarly | ⟨present, fits⟩ := room
    · omega
    have split := separate present
    by_cases earlier : j < 128
    · simp only [inTable, earlier, ↓reduceIte]
      omega
    · simp only [inTable, earlier, ↓reduceIte]
      omega

theorem fixed_params (layout : Layout base params e820ext e820extSize) (x : Nat)
    (lower : params ≤ x) (upper : x < params + Params.e820Table) :
    ¬ Writable params e820ext e820extSize x := by
  rintro (inTable | ⟨present, inExt⟩)
  · omega
  · have split := layout.extApart present
    simp only [Apart, sizeofBootParams, Params.e820Table] at split upper
    omega

theorem map_address_lt (memory : Memory) (params : Nat) :
    (Params.efiMemmap.get memory params ||| Params.efiMemmapHi.get memory params <<< 32) < 2 ^ 64 := by
  have lo : Params.efiMemmap.get memory params < 256 ^ 4 := load_lt memory _ _
  have hi : Params.efiMemmapHi.get memory params < 256 ^ 4 := load_lt memory _ _
  apply Nat.or_lt_two_pow
  · omega
  · rw [Nat.shiftLeft_eq]; omega

/-- Inside the map no address wraps, so descriptors are evenly spaced. -/
theorem descriptorAt_spaced (layout : Layout base params e820ext e820extSize) (i : Nat)
    (bound : i < descriptorCount base params) :
    descriptorAt base params i =
      descriptorAt base params 0 + i * Params.efiMemdescSize.get base params := by
  have start := map_address_lt base params
  have bounded := layout.mapBounded
  have stride := layout.descSize
  have before : (i + 1) * Params.efiMemdescSize.get base params ≤
      descriptorCount base params * Params.efiMemdescSize.get base params :=
    Nat.mul_le_mul_right _ bound
  rw [Nat.succ_mul] at before
  unfold descriptorAt u64 at *
  rw [Nat.zero_mul, Nat.add_zero, Nat.mod_eq_of_lt start] at *
  exact Nat.mod_eq_of_lt (by omega)

theorem fixed_descriptor (layout : Layout base params e820ext e820extSize) (i : Nat)
    (bound : i < descriptorCount base params) (x : Nat)
    (lower : descriptorAt base params i ≤ x) (upper : x < descriptorAt base params i + 40) :
    ¬ Writable params e820ext e820extSize x := by
  have stride := layout.descSize
  have before : (i + 1) * Params.efiMemdescSize.get base params ≤
      descriptorCount base params * Params.efiMemdescSize.get base params :=
    Nat.mul_le_mul_right _ bound
  rw [Nat.succ_mul] at before
  rw [descriptorAt_spaced layout i bound] at lower upper
  rintro (inTable | ⟨present, inExt⟩)
  · have split := layout.mapApart
    simp only [Apart, sizeofBootParams, Params.e820Table, e820MaxEntriesZeropage,
      sizeofBootE820Entry] at split inTable
    omega
  · have split := layout.mapExtApart present
    unfold Apart at split
    omega

/-- Outside what the loop may write, memory is as it was at the start. -/
def Framed (base memory : Memory) (params e820ext e820extSize : Nat) : Prop :=
  ∀ x, ¬ Writable params e820ext e820extSize x → memory x = base x

theorem framed_params (layout : Layout base params e820ext e820extSize)
    (frame : Framed base memory params e820ext e820extSize) (field : Field)
    (early : field.offset + field.width ≤ Params.e820Table) :
    field.get memory params = field.get base params := by
  apply field.get_congr
  intro x lower upper
  exact frame x (fixed_params layout x (by omega) (by omega))

theorem framed_descriptorAt (layout : Layout base params e820ext e820extSize)
    (frame : Framed base memory params e820ext e820extSize) (i : Nat) :
    descriptorAt memory params i = descriptorAt base params i := by
  unfold descriptorAt
  rw [framed_params layout frame Params.efiMemmap (by decide),
    framed_params layout frame Params.efiMemmapHi (by decide),
    framed_params layout frame Params.efiMemdescSize (by decide)]

theorem framed_descriptor (layout : Layout base params e820ext e820extSize)
    (frame : Framed base memory params e820ext e820extSize) (i : Nat)
    (bound : i < descriptorCount base params) (field : Field) (early : field.offset + field.width ≤ 40) :
    field.get memory (descriptorAt base params i) = field.get base (descriptorAt base params i) := by
  apply field.get_congr
  intro x lower upper
  exact frame x (fixed_descriptor layout i bound x (by omega) (by omega))

theorem entryRange_congr {left right : Memory} {entry : Nat}
    (same : SameOn left right entry sizeofBootE820Entry) :
    entryRange left entry = entryRange right entry := by
  have field (part : Field) (inside : part.offset + part.width ≤ sizeofBootE820Entry) :
      part.get left entry = part.get right entry :=
    part.get_congr fun x lower upper => same x (by omega) (by omega)
  unfold entryRange
  rw [field Entry.addr (by decide), field Entry.size (by decide), field Entry.type (by decide)]

theorem Recorded.congr {left right : Memory} {slotOf : Nat → Nat} {kept : List (Range Nat)}
    (same : ∀ k, k < kept.length → SameOn left right (slotOf k) sizeofBootE820Entry)
    (recorded : Recorded left slotOf kept) : Recorded right slotOf kept := by
  induction kept with
  | nil => trivial
  | cons range older ih =>
      obtain ⟨newest, rest⟩ := recorded
      constructor
      · rw [← entryRange_congr (same older.length (by simp))]
        exact newest
      · exact ih (fun k bound => same k (by simp only [List.length_cons]; omega)) rest

/-- Growing an entry changes its size alone. -/
theorem entryRange_grown (memory : Memory) (entry size : Nat) :
    entryRange (Entry.size.set memory entry size) entry =
      { entryRange memory entry with size := u64 size } := by
  unfold entryRange
  rw [Field.get_set_same, Field.get_set_apart _ _ _ _ _ _ (by unfold Apart; simp [Entry.size, Entry.addr]),
    Field.get_set_apart _ _ _ _ _ _ (by unfold Apart; simp [Entry.size, Entry.type])]
  rfl

def writtenEntry (memory : Memory) (entry start size e820Type : Nat) : Memory :=
  Entry.type.set (Entry.size.set (Entry.addr.set memory entry start) entry size) entry e820Type

theorem entryRange_written (memory : Memory) (entry start size e820Type : Nat) :
    entryRange (writtenEntry memory entry start size e820Type) entry =
      ⟨u64 start, u64 size, u32 e820Type⟩ := by
  unfold entryRange writtenEntry
  rw [Field.get_set_apart _ Entry.addr _ _ _ _ (by unfold Apart; simp [Entry.type, Entry.addr]),
    Field.get_set_apart _ Entry.addr _ _ _ _ (by unfold Apart; simp [Entry.size, Entry.addr]),
    Field.get_set_apart _ Entry.size _ _ _ _ (by unfold Apart; simp [Entry.type, Entry.size]),
    Field.get_set_same, Field.get_set_same, Field.get_set_same]
  rfl

theorem writtenEntry_frame (memory : Memory) (entry start size e820Type x : Nat)
    (outside : x < entry ∨ entry + sizeofBootE820Entry ≤ x) :
    writtenEntry memory entry start size e820Type x = memory x := by
  unfold writtenEntry
  simp only [sizeofBootE820Entry] at outside
  rw [Field.set_frame, Field.set_frame, Field.set_frame] <;>
    simp only [Entry.addr, Entry.size, Entry.type] <;> omega

theorem growEntry_apply (prev pages : Nat) (ram : Ram) :
    growEntry prev pages ram =
      ((), ⟨Entry.size.set ram.mem prev (Entry.size.get ram.mem prev + pages <<< 12),
        .e820Entry prev :: ram.accesses⟩) := rfl

/-- When the entry does not overlap the descriptor, the descriptor is read as it was. -/
theorem writeEntry_apply (entry d e820Type : Nat) (ram : Ram)
    (apart : Apart (entry + Entry.addr.offset) Entry.addr.width
      (d + Desc.numberOfPages.offset) Desc.numberOfPages.width) :
    writeEntry entry d e820Type ram =
      ((), ⟨writtenEntry ram.mem entry (Desc.physicalStart.get ram.mem d)
        (Desc.numberOfPages.get ram.mem d <<< 12) e820Type,
        .e820Entry entry :: ram.accesses⟩) := by
  have pages := Field.get_set_apart Entry.addr Desc.numberOfPages ram.mem entry d
    (Desc.physicalStart.get ram.mem d) apart
  simp only [writeEntry, loadField, storeField, recordAccess, bind_apply, readState_apply,
    modifyState_apply, pages, writtenEntry]

theorem e820TypeOf_lt (efiType e820Type : Nat) (maps : e820TypeOf efiType = some e820Type) :
    e820Type < 2 ^ 32 := by
  unfold e820TypeOf at maps
  split at maps <;> cases maps <;> decide

theorem descriptorCount_small (layout : Layout base params e820ext e820extSize) :
    descriptorCount base params * 40 < 2 ^ 32 := by
  have size : Params.efiMemmapSize.get base params < 256 ^ 4 := load_lt base _ _
  have stride := layout.descSize
  have whole := Nat.div_mul_le_self (Params.efiMemmapSize.get base params)
    (Params.efiMemdescSize.get base params)
  unfold descriptorCount
  calc Params.efiMemmapSize.get base params / Params.efiMemdescSize.get base params * 40
      ≤ Params.efiMemmapSize.get base params / Params.efiMemdescSize.get base params *
          Params.efiMemdescSize.get base params := Nat.mul_le_mul_left _ stride
    _ ≤ Params.efiMemmapSize.get base params := whole
    _ < 2 ^ 32 := size

/-- Twenty bytes a descriptor never wrap `need`. -/
theorem needBytes_exact (layout : Layout base params e820ext e820extSize) (i : Nat) :
    needBytes (descriptorCount base params) i =
      (descriptorCount base params - i) * sizeofBootE820Entry + sizeofSetupHeader := by
  have small := descriptorCount_small layout
  unfold needBytes u32 sizeofBootE820Entry sizeofSetupHeader
  exact Nat.mod_eq_of_lt (by omega)

def newestSlot (params e820ext : Nat) : List (Range Nat) → Nat
  | [] => 0
  | _ :: older => slot params e820ext older.length

/-- The loop has seen `i` descriptors and kept `kept`. Past entry 128 the buffer
still has room for every descriptor to come, which is what one capacity test
at the switch is worth. -/
structure Tracks (start ram : Ram) (params e820ext e820extSize nrDesc i : Nat) (cursor : Cursor)
    (kept : List (Range Nat)) : Prop where
  frame : Framed start.mem ram.mem params e820ext e820extSize
  count : cursor.nrEntries = kept.length
  newest : cursor.prev = newestSlot params e820ext kept
  position : kept.length ≠ e820MaxEntriesZeropage → cursor.entry = slot params e820ext kept.length
  recorded : Recorded ram.mem (slot params e820ext) kept
  early : kept.length ≤ i
  ahead : e820MaxEntriesZeropage < kept.length → e820ext ≠ 0 ∧
    sizeofSetupData + (kept.length - e820MaxEntriesZeropage + (nrDesc - i)) * sizeofBootE820Entry
      ≤ e820extSize
  logged : ∀ entry, Access.e820Entry entry ∈ ram.accesses →
    Access.e820Entry entry ∈ start.accesses ∨
      ∃ k, InRoom e820ext e820extSize k ∧ entry = slot params e820ext k

section Steps
variable {start ram : Ram} {nrDesc i : Nat} {cursor : Cursor} {kept : List (Range Nat)}

theorem slot_pos (params e820ext k : Nat) : slot params e820ext k ≠ 0 := by
  unfold slot
  simp only [Params.e820Table, sizeofSetupData]
  split <;> omega

theorem Tracks.inRoom (tracks : Tracks start ram params e820ext e820extSize nrDesc i cursor kept)
    (k : Nat) (older : k < kept.length) : InRoom e820ext e820extSize k := by
  by_cases inTable : k < e820MaxEntriesZeropage
  · exact Or.inl inTable
  · obtain ⟨present, room⟩ := tracks.ahead (by omega)
    refine Or.inr ⟨present, ?_⟩
    simp only [sizeofBootE820Entry, sizeofSetupData] at *
    omega

/-- The test through `prev` is the test on the newest kept entry. -/
theorem Tracks.sameRun_grows
    (tracks : Tracks start ram params e820ext e820extSize nrDesc i cursor kept) (range : Range Nat) :
    sameRun ram.mem cursor.prev range.tag range.start = grows kept range := by
  rw [tracks.newest]
  cases kept with
  | nil => simp [sameRun, grows, newestSlot]
  | cons last older =>
      have newest : entryRange ram.mem (slot params e820ext older.length) = last := tracks.recorded.1
      have present := slot_pos params e820ext older.length
      subst newest
      simp only [sameRun, grows, newestSlot, entryRange, ne_eq, present, not_false_eq_true, true_and]
      exact decide_eq_decide.mpr Iff.rfl

theorem Tracks.skip (tracks : Tracks start ram params e820ext e820extSize nrDesc i cursor kept) :
    Tracks start ram params e820ext e820extSize nrDesc (i + 1) cursor kept where
  frame := tracks.frame
  count := tracks.count
  newest := tracks.newest
  position := tracks.position
  recorded := tracks.recorded
  early := Nat.le_succ_of_le tracks.early
  ahead := fun past => by
    obtain ⟨present, room⟩ := tracks.ahead past
    refine ⟨present, ?_⟩
    simp only [sizeofBootE820Entry, sizeofSetupData] at *
    omega
  logged := tracks.logged

/-- A merge rewrites the size of the newest entry, wherever that entry lives. -/
theorem Tracks.grow (layout : Layout start.mem params e820ext e820extSize)
    (tracks : Tracks start ram params e820ext e820extSize nrDesc i cursor kept)
    (range : Range Nat) (pages : Nat) (size : range.size = u64 (pages <<< 12))
    (touch : grows kept range = true) :
    Tracks start (growEntry cursor.prev pages ram).2 params e820ext e820extSize nrDesc (i + 1)
      cursor (grown kept range) := by
  have later := tracks.skip
  cases kept with
  | nil => simp [grows] at touch
  | cons last older =>
      have room := tracks.inRoom older.length (by simp)
      have place : cursor.prev = slot params e820ext older.length := tracks.newest
      have newest : entryRange ram.mem (slot params e820ext older.length) = last := tracks.recorded.1
      have oldSize : Entry.size.get ram.mem (slot params e820ext older.length) = last.size := by
        rw [← newest]; rfl
      have outside (x : Nat) (miss : x < slot params e820ext older.length ∨
          slot params e820ext older.length + sizeofBootE820Entry ≤ x) (value : Nat) :
          Entry.size.set ram.mem (slot params e820ext older.length) value x = ram.mem x := by
        apply Field.set_frame
        simp only [Entry.size, sizeofBootE820Entry] at *
        omega
      rw [growEntry_apply, place, oldSize]
      -- only the size of the newest entry is rewritten
      refine { later with frame := ?_, newest := later.newest, recorded := ⟨?_, ?_⟩, logged := ?_ }
      · intro x fixed
        dsimp only
        rw [outside x ?_, tracks.frame x fixed]
        by_contra inside
        exact fixed (slot_inside older.length room x (by omega) (by omega))
      · rw [entryRange_grown, newest, size]
        simp only [u64, Nat.add_mod_mod]
      · apply tracks.recorded.2.congr
        intro k before x lower upper
        have separate := slots_apart layout k older.length before room
        unfold Apart at separate
        exact (outside x (by omega) _).symm
      · intro entry member
        rcases List.mem_cons.mp member with same | old
        · cases same
          exact Or.inr ⟨older.length, room, rfl⟩
        · exact tracks.logged entry old

/-- A new entry goes to the next slot; the first one past the table needs the room
that the capacity test established. -/
theorem Tracks.append (layout : Layout start.mem params e820ext e820extSize)
    (tracks : Tracks start ram params e820ext e820extSize nrDesc i cursor kept)
    (bound : i < nrDesc) (range : Range Nat) (d pages : Nat)
    (begins : Desc.physicalStart.get ram.mem d = range.start)
    (counts : Desc.numberOfPages.get ram.mem d = pages)
    (size : range.size = u64 (pages <<< 12)) (narrow : range.start < 2 ^ 64 ∧ range.tag < 2 ^ 32)
    (fixed : ∀ x, d ≤ x → x < d + 40 → ¬ Writable params e820ext e820extSize x)
    (granted : kept.length = e820MaxEntriesZeropage → e820ext ≠ 0 ∧
      (nrDesc - i) * sizeofBootE820Entry + sizeofSetupHeader ≤ e820extSize) :
    Tracks start (writeEntry (slot params e820ext kept.length) d range.tag ram).2
      params e820ext e820extSize nrDesc (i + 1)
      ⟨slot params e820ext kept.length + sizeofBootE820Entry, slot params e820ext kept.length,
        kept.length + 1⟩ (range :: kept) := by
  have later := tracks.skip
  -- the room that is left for the descriptors still to come
  have ahead : e820MaxEntriesZeropage < kept.length + 1 → e820ext ≠ 0 ∧
      sizeofSetupData + (kept.length + 1 - e820MaxEntriesZeropage + (nrDesc - (i + 1))) *
        sizeofBootE820Entry ≤ e820extSize := by
    intro past
    have before := tracks.ahead
    simp only [e820MaxEntriesZeropage, sizeofBootE820Entry, sizeofSetupData,
      sizeofSetupHeader] at *
    by_cases first : kept.length = 128
    · obtain ⟨present, room⟩ := granted first
      exact ⟨present, by omega⟩
    · obtain ⟨present, room⟩ := before (by omega)
      exact ⟨present, by omega⟩
  have room : InRoom e820ext e820extSize kept.length := by
    by_cases inTable : kept.length < e820MaxEntriesZeropage
    · exact Or.inl inTable
    · obtain ⟨present, fits⟩ := ahead (by omega)
      refine Or.inr ⟨present, ?_⟩
      simp only [sizeofBootE820Entry, sizeofSetupData] at *
      omega
  -- the address is stored before the page count is read, so the two must not overlap
  have separate : Apart (slot params e820ext kept.length + Entry.addr.offset) Entry.addr.width
      (d + Desc.numberOfPages.offset) Desc.numberOfPages.width := by
    by_contra overlap
    simp only [Apart, Entry.addr, Desc.numberOfPages] at overlap
    by_cases low : slot params e820ext kept.length ≤ d + 24
    · exact fixed (d + 24) (by omega) (by omega) (slot_inside kept.length room (d + 24) low
        (by simp only [sizeofBootE820Entry]; omega))
    · exact fixed (slot params e820ext kept.length) (by omega) (by omega)
        (slot_inside kept.length room _ (Nat.le_refl _) (by simp only [sizeofBootE820Entry]; omega))
  rw [writeEntry_apply _ _ _ _ separate, begins, counts]
  refine { frame := ?_, count := rfl, newest := rfl, position := ?_, recorded := ⟨?_, ?_⟩,
           early := Nat.succ_le_succ tracks.early, ahead := ahead, logged := ?_ }
  · intro x unwritable
    dsimp only
    rw [writtenEntry_frame, tracks.frame x unwritable]
    by_contra inside
    exact unwritable (slot_inside kept.length room x (by omega) (by omega))
  -- the entry pointer moves on inside the table and inside the node, but jumps between them
  · intro notFull
    unfold slot
    simp only [List.length_cons, e820MaxEntriesZeropage, sizeofBootE820Entry] at *
    by_cases inTable : kept.length < 128
    · have next : kept.length + 1 < 128 := by omega
      simp only [inTable, next, ↓reduceIte]
      omega
    · have next : ¬ kept.length + 1 < 128 := by omega
      simp only [inTable, next, ↓reduceIte]
      omega
  · rw [entryRange_written, u64, u64, u32, Nat.mod_eq_of_lt narrow.1, Nat.mod_eq_of_lt narrow.2,
      ← u64, ← size]
  · apply tracks.recorded.congr
    intro k before x lower upper
    have split := slots_apart layout k kept.length before room
    unfold Apart at split
    exact (writtenEntry_frame _ _ _ _ _ x (by omega)).symm
  · intro entry member
    rcases List.mem_cons.mp member with same | old
    · cases same
      exact Or.inr ⟨kept.length, room, rfl⟩
    · exact tracks.logged entry old

end Steps

section Loop
variable {start ram : Ram} {i : Nat} {cursor : Cursor} {kept : List (Range Nat)}

theorem descriptor_range (layout : Layout start.mem params e820ext e820extSize)
    (frame : Framed start.mem ram.mem params e820ext e820extSize)
    (bound : i < descriptorCount start.mem params) :
    rangeOf ram.mem (descriptorAt ram.mem params i) =
      rangeOf start.mem (descriptorAt start.mem params i) := by
  have field (part : Field) (inside : part.offset + part.width ≤ 40) :=
    framed_descriptor layout frame i bound part inside
  rw [framed_descriptorAt layout frame]
  unfold rangeOf
  rw [field Desc.type (by decide), field Desc.physicalStart (by decide),
    field Desc.numberOfPages (by decide)]

/-- One iteration is one step of the list machine. Giving up leaves memory alone. -/
theorem translateDescriptor_tracks (layout : Layout start.mem params e820ext e820extSize)
    (bound : i < descriptorCount start.mem params)
    (tracks : Tracks start ram params e820ext e820extSize (descriptorCount start.mem params) i
      cursor kept) :
    match mergeDescriptor (refusedAt e820ext e820extSize (descriptorCount start.mem params) i) kept
        (rangeOf start.mem (descriptorAt start.mem params i)) with
    | none => translateDescriptor params e820ext e820extSize (descriptorCount start.mem params) i
        cursor ram = (none, ram)
    | some next => ∃ after later, translateDescriptor params e820ext e820extSize
        (descriptorCount start.mem params) i cursor ram = (some after, later) ∧
        Tracks start later params e820ext e820extSize (descriptorCount start.mem params) (i + 1)
          after next := by
  rw [← descriptor_range layout tracks.frame bound]
  have fixed := fixed_descriptor layout i bound
  rw [← framed_descriptorAt layout tracks.frame] at fixed
  unfold rangeOf translateDescriptor
  simp only [bind_apply, readState_apply, loadField]
  -- a type without an e820 counterpart is skipped
  cases maps : e820TypeOf (Desc.type.get ram.mem (descriptorAt ram.mem params i)) with
  | none => exact ⟨cursor, ram, rfl, tracks.skip⟩
  | some e820Type =>
      have starts : Desc.physicalStart.get ram.mem (descriptorAt ram.mem params i) < 2 ^ 64 :=
        lt_of_lt_of_eq (load_lt ram.mem _ 8) (by norm_num)
      have test := tracks.sameRun_grows
        ⟨Desc.physicalStart.get ram.mem (descriptorAt ram.mem params i),
          u64 (Desc.numberOfPages.get ram.mem (descriptorAt ram.mem params i) <<< 12), e820Type⟩
      simp only at test
      simp only [Option.map_some, mergeDescriptor, mergeRange, bind_apply, readState_apply, branch_apply,
        pure_apply, test, tracks.count]
      cases touch : grows kept _ with
      | true => exact ⟨cursor, _, rfl, tracks.grow layout _ _ rfl touch⟩
      | false =>
          -- the room is only checked at the switch from the table to the node
          by_cases full : kept.length = e820MaxEntriesZeropage ∧
              (e820ext = 0 ∨ e820extSize < needBytes (descriptorCount start.mem params) i)
          · simp [full, refusedAt]
          · have proceeds : ¬ (kept.length = e820MaxEntriesZeropage ∧
                refusedAt e820ext e820extSize (descriptorCount start.mem params) i = true) := by
              simpa [refusedAt] using full
            have entry : (if kept.length = e820MaxEntriesZeropage then e820ext + sizeofSetupData
                else cursor.entry) = slot params e820ext kept.length := by
              by_cases atSwitch : kept.length = e820MaxEntriesZeropage
              · simp [atSwitch, slot]
              · simp only [atSwitch, ↓reduceIte, tracks.position atSwitch]
            have granted : kept.length = e820MaxEntriesZeropage → e820ext ≠ 0 ∧
                (descriptorCount start.mem params - i) * sizeofBootE820Entry + sizeofSetupHeader
                  ≤ e820extSize := by
              intro atSwitch
              rw [needBytes_exact layout] at full
              exact ⟨fun null => full ⟨atSwitch, Or.inl null⟩,
                Nat.le_of_not_lt fun short => full ⟨atSwitch, Or.inr short⟩⟩
            simp only [full, proceeds, entry, ↓reduceIte, Bool.false_eq_true]
            exact ⟨_, _, rfl, tracks.append layout bound
              ⟨Desc.physicalStart.get ram.mem (descriptorAt ram.mem params i),
                u64 (Desc.numberOfPages.get ram.mem (descriptorAt ram.mem params i) <<< 12), e820Type⟩
              (descriptorAt ram.mem params i)
              (Desc.numberOfPages.get ram.mem (descriptorAt ram.mem params i)) rfl rfl rfl
              ⟨starts, e820TypeOf_lt _ _ maps⟩ fixed granted⟩

theorem translateLoop_tracks (layout : Layout start.mem params e820ext e820extSize)
    (remaining : Nat) (span : i + remaining = descriptorCount start.mem params)
    (tracks : Tracks start ram params e820ext e820extSize (descriptorCount start.mem params) i
      cursor kept) :
    match mergeFrom (refusedAt e820ext e820extSize (descriptorCount start.mem params)) i kept
        ((List.range' i remaining).map fun j => rangeOf start.mem (descriptorAt start.mem params j)) with
    | none => ∃ later j after held, translateLoop params e820ext e820extSize
        (descriptorCount start.mem params) remaining cursor ram = (none, later) ∧
        Tracks start later params e820ext e820extSize (descriptorCount start.mem params) j after held
    | some final => ∃ after later, translateLoop params e820ext e820extSize
        (descriptorCount start.mem params) remaining cursor ram = (some after, later) ∧
        Tracks start later params e820ext e820extSize (descriptorCount start.mem params)
          (descriptorCount start.mem params) after final := by
  induction remaining generalizing i ram cursor kept with
  | zero =>
      have done : i = descriptorCount start.mem params := by omega
      exact ⟨cursor, ram, rfl, done ▸ tracks⟩
  | succ remaining ih =>
      have index : descriptorCount start.mem params - (remaining + 1) = i := by omega
      have step := translateDescriptor_tracks layout (by omega) tracks
      simp only [List.range'_succ, List.map_cons, mergeFrom, translateLoop, bind_apply, index]
      cases merged : mergeDescriptor
          (refusedAt e820ext e820extSize (descriptorCount start.mem params) i) kept
          (rangeOf start.mem (descriptorAt start.mem params i)) with
      | none =>
          simp only [merged] at step ⊢
          rw [step]
          exact ⟨ram, i, cursor, kept, rfl, tracks⟩
      | some next =>
          simp only [merged] at step ⊢
          obtain ⟨after, later, runs, held⟩ := step
          rw [runs]
          exact ih (by omega) held

theorem tracks_begin (start : Ram) (params e820ext e820extSize : Nat) :
    Tracks start start params e820ext e820extSize (descriptorCount start.mem params) 0
      ⟨params + Params.e820Table, 0, 0⟩ [] where
  frame := fun _ _ => rfl
  count := rfl
  newest := rfl
  position := fun _ => by simp [slot, e820MaxEntriesZeropage]
  recorded := trivial
  early := Nat.le_refl _
  ahead := fun past => by simp [e820MaxEntriesZeropage] at past
  logged := fun entry member => Or.inl member

end Loop

end Wboot.E820Translation
