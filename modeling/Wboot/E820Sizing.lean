import Wboot.E820Frame
import Wboot.Effects

/-! `wboot_allocate_e820`, and why its size is enough for `wboot_translate_memmap`.
The first decides from the map it sees, with 32 spare entries in the table or a
node for every descriptor; the second counts only the descriptors left when the
table is full, but with a larger header. -/

namespace Wboot.E820Sizing
open StateProgram ByteMemory Machine LinuxBoot Wstdlib Effects E820Translation RangeMerge

/-- `*e820ext` and `*e820ext_size`. -/
structure E820Buffer where
  node : Nat
  size : Nat
  deriving DecidableEq

def noBuffer : E820Buffer := ⟨0, 0⟩

section Code
variable (fw : Firmware)

def wbootAllocateE820 (buffer : E820Buffer) : Boot (EfiStatus × E820Buffer) := do
  let query ← getMemoryMap fw 0 0
  if query.status ≠ efiBufferTooSmall then
    printf fw (wide "[allocate_e820] error getting memory map size: %s\r\n")
      [.wideText (strerror query.status)]
    return (query.status, buffer)
  let bufferSize := u64 (query.mapSize + query.descSize * efiMmapNrSlackSlots)
  let memmap ← malloc fw bufferSize
  if memmap = 0 then
    let errno ← readState World.errno
    printf fw (wide "[allocate_e820] error allocating memory for memory map: %s\r\n")
      [.wideText (strerror errno)]
    return (efiOutOfResources, buffer)
  let reply ← getMemoryMap fw bufferSize memmap
  if efiError reply.status then
    printf fw (wide "[allocate_e820] error getting memory map: %s\r\n")
      [.wideText (strerror reply.status)]
    free fw memmap
    return (reply.status, buffer)
  let nrDesc := u32 (reply.mapSize / reply.descSize)
  if nrDesc > e820MaxEntriesZeropage - efiMmapNrSlackSlots then
    let size := u32 (sizeofSetupData + sizeofBootE820Entry * nrDesc)
    let node ← malloc fw size
    if node = 0 then
      let errno ← readState World.errno
      printf fw (wide "[allocate_e820] error allocating memory for e820ext: %s\r\n")
        [.wideText (strerror errno)]
      free fw memmap
      return (efiOutOfResources, ⟨node, size⟩)
    free fw memmap
    return (efiSuccess, ⟨node, size⟩)
  free fw memmap
  return (efiSuccess, buffer)

end Code

/-- What the newest GetMemoryMap call fetched, if it passed a buffer. -/
def fetchedMap : History → Option MemoryMapReply
  | [] => none
  | .getMemoryMap _ buffer reply :: _ => if buffer = 0 then none else some reply
  | _ :: before => fetchedMap before

def keepsMap : Event → Prop
  | .getMemoryMap .. => False
  | _ => True

theorem fetchedMap_calls {before after : World} (calls : Calls keepsMap before after) :
    fetchedMap after.history = fetchedMap before.history := by
  obtain ⟨events, grown, kind⟩ := calls.history
  rw [grown]
  clear grown
  induction events with
  | nil => rfl
  | cons event rest ih =>
      have first := kind event List.mem_cons_self
      have tail := ih fun older member => kind older (List.mem_cons_of_mem event member)
      cases event <;> first | exact first.elim | exact tail

/-- The buffer that goes with a map of `n` descriptors. -/
def Sized (n : Nat) (buffer : E820Buffer) : Prop :=
  (n ≤ e820MaxEntriesZeropage - efiMmapNrSlackSlots ∧ buffer = noBuffer) ∨
  (e820MaxEntriesZeropage - efiMmapNrSlackSlots < n ∧ buffer.node ≠ 0 ∧
    buffer.size = sizeofSetupData + n * sizeofBootE820Entry)

variable {fw : Firmware}

theorem malloc_keepsMap (size : Nat) : Relates (Calls keepsMap) (malloc fw size) :=
  malloc_calls fw (fun _ _ _ => trivial) size

theorem free_keepsMap (ptr : Nat) : Relates (Calls keepsMap) (free fw ptr) :=
  free_calls fw (fun _ _ => trivial) ptr

theorem fetchedMap_getMemoryMap {size buffer : Nat} {reply : MemoryMapReply} {before after : World}
    (run : getMemoryMap fw size buffer before = (reply, after)) :
    fetchedMap after.history = if buffer = 0 then none else some reply := by
  simp only [getMemoryMap, service, run_bind, run_ite, run_pure, Prod.mk.injEq] at run
  obtain ⟨answer, middle, ⟨rfl, rfl⟩, ⟨present, _, later, stored, rfl, rfl⟩ | ⟨absent, rfl, rfl⟩⟩ :=
    run
  · cases stored
    rfl
  · rfl

theorem descriptors_small {mapSize descSize : Nat} (narrow : mapSize < 2 ^ 32)
    (stride : 40 ≤ descSize) : mapSize / descSize * 40 < 2 ^ 32 :=
  calc mapSize / descSize * 40 ≤ mapSize / descSize * descSize := Nat.mul_le_mul_left _ stride
    _ ≤ mapSize := Nat.div_mul_le_self mapSize descSize
    _ < 2 ^ 32 := narrow

/-- A successful call that fetched a map sized its buffer for that map. -/
theorem allocate_sized {world after : World} {buffer : E820Buffer} {reply : MemoryMapReply}
    (allocated : wbootAllocateE820 fw noBuffer world = ((efiSuccess, buffer), after))
    (seen : fetchedMap after.history = some reply) (narrow : reply.mapSize < 2 ^ 32)
    (stride : 40 ≤ reply.descSize) : Sized (reply.mapSize / reply.descSize) buffer := by
  simp only [wbootAllocateE820, run_bind, run_ite, run_pure, Prod.mk.injEq] at allocated
  obtain ⟨query, queried, asked, ⟨-, _, printed, prints, -, rfl⟩ |
    ⟨-, memmap, held, grabbed, ⟨-, _, _, -, _, _, -, ⟨wrong, -⟩, -⟩ | ⟨present, fetch, fetched, asking,
      ⟨failed, _, _, -, _, _, -, ⟨wrong, -⟩, -⟩ | ⟨-, outcome⟩⟩⟩⟩ := allocated
  · have same := fetchedMap_calls (((printf_prints fw _ _ (by decide +kernel)).run prints).calls _)
    rw [same, fetchedMap_getMemoryMap asked] at seen
    simp at seen
  · exact absurd wrong (by decide)
  · rw [wrong] at failed
    exact absurd failed (by decide)
  · have newest : fetchedMap fetched.history = some fetch := by
      rw [fetchedMap_getMemoryMap asking, if_neg present]
    -- the newest fetch of this run is the reply that the caller saw
    have exact32 : fetchedMap after.history = some fetch → fetch = reply := fun same =>
      Option.some.inj (same.symm.trans seen)
    rcases outcome with ⟨many, node, sized, grew, ⟨-, _, _, -, _, _, -, _, _, -, ⟨wrong, -⟩, -⟩ |
      ⟨nonnull, _, freed, frees, ⟨-, rfl⟩, rfl⟩⟩ | ⟨few, _, freed, frees, ⟨-, rfl⟩, rfl⟩
    · exact absurd wrong (by decide)
    · have same := fetchedMap_calls ((free_keepsMap memmap).run frees)
      rw [fetchedMap_calls ((malloc_keepsMap _).run grew)] at same
      obtain rfl := exact32 (same.trans newest)
      have small := descriptors_small narrow stride
      refine Or.inr ⟨?_, nonnull, ?_⟩
      · simp only [u32] at many
        omega
      · simp only [u32, sizeofSetupData, sizeofBootE820Entry]
        omega
    · have same := fetchedMap_calls ((free_keepsMap memmap).run frees)
      obtain rfl := exact32 (same.trans newest)
      have small := descriptors_small narrow stride
      refine Or.inl ⟨?_, rfl⟩
      simp only [u32] at few
      omega

/-! ### The buffer is enough -/

/-- With the table alone for up to 128 descriptors, or a node for all but 128 of
them, no descriptor is refused. -/
theorem never_refused {memory : Memory} {params e820ext e820extSize : Nat}
    (enough : descriptorCount memory params ≤ e820MaxEntriesZeropage ∨
      (e820ext ≠ 0 ∧ ∀ i, e820MaxEntriesZeropage ≤ i →
        needBytes (descriptorCount memory params) i ≤ e820extSize)) (i : Nat)
    (overflows : overflowIndex memory params = some i) :
    refusedAt e820ext e820extSize (descriptorCount memory params) i = false := by
  obtain ⟨bound, full, -⟩ := (overflowIndex_iff memory params i).mp overflows
  -- at most one entry is kept for each descriptor seen, so the table fills late
  have late := mergedEntries_length memory params i
  rw [full] at late
  unfold refusedAt
  apply decide_eq_false
  rcases enough with short | ⟨present, room⟩
  · omega
  · have fits := room i late
    omega

/-- The buffer of the earlier map serves every map with at most 32 more descriptors,
if the list that the node is linked to ends. -/
theorem allocated_buffer_suffices {world after : World} {buffer : E820Buffer}
    {reply : MemoryMapReply} {start : Ram} {params : Nat}
    (allocated : wbootAllocateE820 fw noBuffer world = ((efiSuccess, buffer), after))
    (seen : fetchedMap after.history = some reply) (narrow : reply.mapSize < 2 ^ 32)
    (stride : 40 ≤ reply.descSize)
    (layout : Layout start.mem params buffer.node buffer.size)
    (growth : descriptorCount start.mem params ≤
      reply.mapSize / reply.descSize + efiMmapNrSlackSlots) :
    (wbootTranslateMemmap params buffer.node buffer.size start).1 = some efiSuccess ↔
      WalkEnds start params buffer.node buffer.size := by
  have sized := allocate_sized allocated seen narrow stride
  have enough : descriptorCount start.mem params ≤ e820MaxEntriesZeropage ∨
      (buffer.node ≠ 0 ∧ ∀ i, e820MaxEntriesZeropage ≤ i →
        needBytes (descriptorCount start.mem params) i ≤ buffer.size) := by
    unfold Sized at sized
    simp only [e820MaxEntriesZeropage, efiMmapNrSlackSlots] at *
    rcases sized with ⟨few, -⟩ | ⟨many, present, size⟩
    · left; omega
    · refine Or.inr ⟨present, fun i late => ?_⟩
      rw [needBytes_exact layout i, size]
      simp only [sizeofSetupData, sizeofBootE820Entry, sizeofSetupHeader]
      omega
  exact translation_succeeds_iff layout (never_refused enough)

/-! A map of 97 descriptors, the first size with a node, that then grows by 32. -/

def growingFirmware : Firmware :=
  { idleFirmware with
    getMemoryMap := fun _ size _ =>
      ⟨if size = 0 then efiBufferTooSmall else efiSuccess, 97 * 40, 1, 40, 1, []⟩ }

theorem growing_allocates :
    wbootAllocateE820 growingFirmware noBuffer bootWorld =
      ((efiSuccess, ⟨0x1001429, 1956⟩), (wbootAllocateE820 growingFirmware noBuffer bootWorld).2) :=
  Prod.ext (by decide +kernel) rfl

theorem grown_map_layout : Layout crowdedMap 0x10000 0x1001429 1956 where
  descSize := by decide +kernel
  mapBounded := by decide +kernel
  extBounded := by decide
  extApart := fun _ => Or.inl (by decide)
  mapApart := Or.inr (by decide +kernel)
  mapExtApart := fun _ => Or.inl (by decide +kernel)

theorem allocated_buffer_suffices_at_97 :
    (wbootTranslateMemmap 0x10000 0x1001429 1956 ⟨crowdedMap, []⟩).1 = some efiSuccess := by
  have empty : SetupList crowdedMap (Hdr.setupData.get crowdedMap (0x10000 + Params.hdr)) [] := by
    change Hdr.setupData.get crowdedMap _ = 0
    decide +kernel
  have walk := @lastSetupNode_of_list ⟨crowdedMap, []⟩ _ _ _ grown_map_layout [] empty
    (fun _ none => absurd none List.not_mem_nil) (Or.inl (by decide))
  exact (@allocated_buffer_suffices growingFirmware bootWorld
    (wbootAllocateE820 growingFirmware noBuffer bootWorld).2 ⟨0x1001429, 1956⟩
    (growingFirmware.getMemoryMap [] 1 1) ⟨crowdedMap, []⟩ 0x10000 growing_allocates rfl (by decide)
    (by decide) grown_map_layout (by decide +kernel)).mpr (walkEnds_of_last walk)

/-- The same whatever the setup_data list is. -/
def EveryMapServed : Prop :=
  ∀ (fw : Firmware) (world after : World) (buffer : E820Buffer) (reply : MemoryMapReply) (start : Ram)
    (params : Nat), wbootAllocateE820 fw noBuffer world = ((efiSuccess, buffer), after) →
    fetchedMap after.history = some reply → reply.mapSize < 2 ^ 32 → 40 ≤ reply.descSize →
    Layout start.mem params buffer.node buffer.size →
    descriptorCount start.mem params ≤ reply.mapSize / reply.descSize + efiMmapNrSlackSlots →
    (wbootTranslateMemmap params buffer.node buffer.size start).1 = some efiSuccess

/-- The crowded map with a node at 0x40000 that is its own next one. -/
def circularMap : Memory :=
  Node.next.set (Hdr.setupData.set crowdedMap (0x10000 + Params.hdr) 0x40000) 0x40000 0x40000

theorem circularMap_layout : Layout circularMap 0x10000 0x1001429 1956 where
  descSize := by decide +kernel
  mapBounded := by decide +kernel
  extBounded := by decide
  extApart := fun _ => Or.inl (by decide)
  mapApart := Or.inr (by decide +kernel)
  mapExtApart := fun _ => Or.inl (by decide +kernel)

theorem lastNodeFrom_circle {memory : Memory} {node : Nat} (present : node ≠ 0)
    (own : Node.next.get memory node = node) (fuel : Nat) : lastNodeFrom memory fuel node = none := by
  induction fuel with
  | zero => rfl
  | succ fuel ih => rw [lastNodeFrom, own, if_pos ⟨present, present⟩, ih]

/-- The walk over a list that closes on itself has no end, and the call no status. -/
theorem circular_list_never_returns : ¬ EveryMapServed := by
  intro every
  have served := every growingFirmware bootWorld _ ⟨0x1001429, 1956⟩ (growingFirmware.getMemoryMap [] 1 1)
    ⟨circularMap, []⟩ 0x10000 growing_allocates rfl (by decide) (by decide) circularMap_layout
    (by decide +kernel)
  obtain ⟨-, ⟨short, -⟩ | ⟨-, -, -, last, walk, -⟩⟩ :=
    @translation_links ⟨circularMap, []⟩ _ _ _ circularMap_layout served
  · exact absurd short (by decide +kernel)
  · generalize (mergedEntries circularMap 0x10000 (descriptorCount circularMap 0x10000)).length -
      e820MaxEntriesZeropage = nrEntries at walk
    have head := @walkedMemory_head ⟨circularMap, []⟩ _ _ _ circularMap_layout (Or.inl (by decide)) nrEntries
    have own : Node.next.get (walkedMemory ⟨circularMap, []⟩ 0x10000 0x1001429 1956 nrEntries) 0x40000 =
        Node.next.get circularMap 0x40000 := by
      refine Field.get_congr _ fun x lower upper => ?_
      refine @walkedMemory_fixed ⟨circularMap, []⟩ _ _ _ circularMap_layout nrEntries _ ?_ ?_ <;>
        simp only [Writable, Node.next, Params.e820Table, e820MaxEntriesZeropage, sizeofBootE820Entry,
          sizeofSetupData] at * <;> omega
    have circle : Node.next.get circularMap 0x40000 = 0x40000 := by decide +kernel
    have first : Hdr.setupData.get circularMap (0x10000 + Params.hdr) = 0x40000 := by decide +kernel
    unfold lastSetupNode walkFrom at walk
    rw [← walkedMemory, head.trans first, lastNodeFrom_circle (by decide) (own.trans circle)] at walk
    cases walk

end Wboot.E820Sizing
