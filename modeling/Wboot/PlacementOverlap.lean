import Wboot.ElfPlacement

/-! When `wboot_get_kernel_entry` places an image exactly. The destinations may lie
over the image itself, so a segment can be copied over a header or over the file
bytes of a segment that is still to come. What each segment writes is known from
the original image, and so is what it may not change. -/

namespace Wboot.ElfPlacement
open StateProgram ByteMemory Machine LinuxBoot Wstdlib SegmentCopy

/-- A well-formed image of `size` bytes at `image`: headers and file ranges inside
it, no segment larger in the file than in memory, destinations apart. -/
structure WellFormed (memory : Memory) (image size : Nat) : Prop where
  bounded : image + size ≤ 2 ^ 64
  header : 64 ≤ size
  table : Ehdr.phoff.get memory image + Ehdr.phnum.get memory image * sizeofElf64Phdr ≤ size
  sizes : ∀ i < Ehdr.phnum.get memory image, isLoad memory image i = true →
    Phdr.filesz.get memory (headerAt memory image i) ≤ Phdr.memsz.get memory (headerAt memory image i)
  sources : ∀ i < Ehdr.phnum.get memory image, isLoad memory image i = true →
    Phdr.offset.get memory (headerAt memory image i) +
      Phdr.filesz.get memory (headerAt memory image i) ≤ size
  dests : ∀ i < Ehdr.phnum.get memory image, isLoad memory image i = true →
    Phdr.paddr.get memory (headerAt memory image i) +
      Phdr.memsz.get memory (headerAt memory image i) ≤ 2 ^ 64
  apart : DestsApart (loadSegments memory image (Ehdr.phnum.get memory image))

/-- What the loop needs of the sizes to be a run of placements. -/
structure Sized (original : Memory) (image : Nat) : Prop where
  narrow : image < 2 ^ 64
  fits : ∀ segment ∈ loadSegments original image (Ehdr.phnum.get original image),
    segment.fileSize ≤ segment.memSize
  unwrapped : ∀ segment ∈ loadSegments original image (Ehdr.phnum.get original image),
    segment.dest + segment.memSize ≤ 2 ^ 64

/-- Memory after the first `count` headers, each segment copied from what the
earlier ones left. -/
def placed (original : Memory) (image count : Nat) : Memory :=
  (loadSegments original image count).foldl place original

/-- Every segment holds its file bytes and zeros, and `entry` is the image's entry. -/
structure PlacedExactly (original final : Memory) (image entry : Nat) : Prop where
  file : ∀ i < Ehdr.phnum.get original image, isLoad original image i = true →
    ∀ k < Phdr.filesz.get original (headerAt original image i),
      final (Phdr.paddr.get original (headerAt original image i) + k) =
        original (image + Phdr.offset.get original (headerAt original image i) + k)
  zero : ∀ i < Ehdr.phnum.get original image, isLoad original image i = true →
    ∀ k, Phdr.filesz.get original (headerAt original image i) ≤ k →
      k < Phdr.memsz.get original (headerAt original image i) →
      final (Phdr.paddr.get original (headerAt original image i) + k) = 0
  entry : entry = Ehdr.entry.get original image

/-- Header fields that are still to be read when a segment is written are left
alone, in the sense of `leaves`: the program header count by every segment, the
headers that follow by each one before, and a segment's own sizes by its copy. -/
structure HeadersLeft (leaves : Segment → Nat → Nat → Prop) (memory : Memory) (image : Nat) :
    Prop where
  phnum : ∀ segment ∈ loadSegments memory image (Ehdr.phnum.get memory image),
    leaves segment (image + 56) 2
  type : ∀ i < Ehdr.phnum.get memory image, ∀ segment ∈ loadSegments memory image i,
    leaves segment (headerAt memory image i) 4
  offset : ∀ i < Ehdr.phnum.get memory image, isLoad memory image i = true →
    ∀ segment ∈ loadSegments memory image i, leaves segment (headerAt memory image i + 8) 8
  rest : ∀ i < Ehdr.phnum.get memory image, isLoad memory image i = true →
    ∀ segment ∈ loadSegments memory image i, leaves segment (headerAt memory image i + 24) 24
  own : ∀ i < Ehdr.phnum.get memory image, isLoad memory image i = true →
    leaves (segmentAt memory image (headerAt memory image i)).copied (headerAt memory image i + 32) 16

/-- The segment writes no byte of the range. -/
def Misses (segment : Segment) (address count : Nat) : Prop :=
  ∀ x, address ≤ x → x < address + count → ¬ segment.covers x

/-- No segment changes a file byte of a later one, or the entry address. -/
structure SourcesLeft (original : Memory) (image : Nat) : Prop where
  segments : SourcesKept original (loadSegments original image (Ehdr.phnum.get original image))
  entry : ∀ segment ∈ loadSegments original image (Ehdr.phnum.get original image),
    Harmless original segment (image + 24) 8

section Segments
variable {original : Memory} {image size : Nat}

theorem loadSegments_initial (original : Memory) (image : Nat) {first count : Nat} (early : first ≤ count) :
    loadSegments original image first <+: loadSegments original image count := by
  obtain ⟨more, rfl⟩ := Nat.exists_eq_add_of_le early
  refine ⟨((List.range more).map (first + ·)).filterMap (loadSegment original image), ?_⟩
  rw [loadSegments, loadSegments, List.range_add, List.filterMap_append]

theorem of_mem_loadSegments (segment : Segment)
    (member : segment ∈ loadSegments original image (Ehdr.phnum.get original image)) :
    ∃ i, i < Ehdr.phnum.get original image ∧ isLoad original image i = true ∧
      segment = segmentAt original image (headerAt original image i) := by
  obtain ⟨i, index, found⟩ := List.mem_filterMap.mp member
  simp only [loadSegment, Option.ite_none_right_eq_some, Option.some.injEq] at found
  exact ⟨i, List.mem_range.mp index, found.1, found.2.symm⟩

theorem loadSegments_succ (memory : Memory) (image count : Nat) :
    loadSegments memory image (count + 1) =
      loadSegments memory image count ++ (loadSegment memory image count).toList := by
  simp only [loadSegments, List.range_succ, List.filterMap_append, List.filterMap_cons,
    List.filterMap_nil]
  cases loadSegment memory image count <;> rfl

theorem mem_loadSegments (memory : Memory) (count i : Nat) (bound : i < count)
    (load : isLoad memory image i = true) :
    segmentAt memory image (headerAt memory image i) ∈ loadSegments memory image count :=
  List.mem_filterMap.mpr ⟨i, List.mem_range.mpr bound, by simp [loadSegment, load]⟩

theorem placed_succ (original : Memory) (image i : Nat) :
    placed original image (i + 1) =
      if isLoad original image i then
        place (placed original image i) (segmentAt original image (headerAt original image i))
      else placed original image i := by
  cases load : isLoad original image i <;> simp [placed, loadSegments_succ, loadSegment, load]

/-- A copy and a clearing that fit their segment are one placement. -/
theorem cleared_place (memory : Memory) (segment : Segment)
    (fits : segment.fileSize ≤ segment.memSize) (unwrapped : segment.dest + segment.memSize ≤ 2 ^ 64) :
    setLoop (moved memory segment.dest segment.src segment.fileSize)
        (u64 (segment.dest + segment.fileSize)) 0 (segment.memSize - segment.fileSize) =
      place memory segment := by
  rw [← place_loops memory segment fits]
  by_cases clears : segment.fileSize < segment.memSize
  · rw [show u64 (segment.dest + segment.fileSize) = segment.dest + segment.fileSize from
      Nat.mod_eq_of_lt (by omega)]
  · have none : segment.memSize - segment.fileSize = 0 := by omega
    rw [none]
    rfl

/-- Whenever the loop reads a header field, the field has its original bytes. -/
structure Stable (original : Memory) (image : Nat) : Prop where
  phnum : ∀ i ≤ Ehdr.phnum.get original image,
    SameOn (placed original image i) original (image + 56) 2
  type : ∀ i < Ehdr.phnum.get original image,
    SameOn (placed original image i) original (headerAt original image i) 4
  offset : ∀ i < Ehdr.phnum.get original image, isLoad original image i = true →
    SameOn (placed original image i) original (headerAt original image i + 8) 8
  rest : ∀ i < Ehdr.phnum.get original image, isLoad original image i = true →
    SameOn (placed original image i) original (headerAt original image i + 24) 24
  own : ∀ i < Ehdr.phnum.get original image, isLoad original image i = true →
    SameOn (place (placed original image i)
      (segmentAt original image (headerAt original image i)).copied) original
      (headerAt original image i + 32) 16

/-- The header fields of a PT_LOAD segment are read as they were. -/
theorem Stable.segment (stable : Stable original image) (i : Nat)
    (bound : i < Ehdr.phnum.get original image) (load : isLoad original image i = true) :
    segmentAt (placed original image i) image (headerAt original image i) =
      segmentAt original image (headerAt original image i) :=
  segmentAt_congr image (stable.offset i bound load) (stable.rest i bound load)

/-- The body for a header that stays as it was is the placement of its segment. -/
theorem Stable.loaded (stable : Stable original image) (sized : Sized original image) (i : Nat)
    (bound : i < Ehdr.phnum.get original image) (load : isLoad original image i = true) :
    loadedMemory (placed original image i) image (headerAt original image i) =
      place (placed original image i) (segmentAt original image (headerAt original image i)) := by
  have member := mem_loadSegments original (Ehdr.phnum.get original image) i bound load
  have own := stable.own i bound load
  rw [place_copied] at own
  -- the sizes are read again after the copy
  have again (part : Field) (inside : 32 ≤ part.offset ∧ part.offset + part.width ≤ 48) :
      part.get (moved (placed original image i)
          (segmentAt original image (headerAt original image i)).dest
          (segmentAt original image (headerAt original image i)).src
          (segmentAt original image (headerAt original image i)).fileSize)
        (headerAt original image i) = part.get original (headerAt original image i) :=
    part.get_congr fun x lower upper => own x (by omega) (by omega)
  rw [← cleared_place _ _ (sized.fits _ member) (sized.unwrapped _ member), loadedMemory,
    stable.segment i bound load]
  simp only [segmentAt] at again ⊢
  rw [again Phdr.filesz (by decide), again Phdr.memsz (by decide)]

/-- The loop's memory in the terms of segments. -/
theorem Stable.met_placed (stable : Stable original image) (sized : Sized original image) (i : Nat)
    (bound : i ≤ Ehdr.phnum.get original image) : met original image i = placed original image i := by
  induction i with
  | zero => rfl
  | succ i ih =>
      have before := ih (by omega)
      have type : Phdr.type.get (placed original image i) (headerAt original image i) =
          Phdr.type.get original (headerAt original image i) :=
        Phdr.type.get_congr (stable.type i bound)
      rw [placed_succ]
      simp only [met, before, type]
      cases load : isLoad original image i with
      | true =>
          have loads : Phdr.type.get original (headerAt original image i) = ptLoad :=
            of_decide_eq_true load
          rw [if_pos loads, if_pos rfl]
          exact stable.loaded sized i bound load
      | false =>
          have skips : Phdr.type.get original (headerAt original image i) ≠ ptLoad :=
            of_decide_eq_false load
          rw [if_neg skips, if_neg Bool.false_ne_true]

theorem WellFormed.sized (wf : WellFormed original image size) : Sized original image where
  narrow := by
    have bounded := wf.bounded
    have header := wf.header
    omega
  fits := fun segment member => by
    obtain ⟨i, bound, load, rfl⟩ := of_mem_loadSegments segment member
    exact wf.sizes i bound load
  unwrapped := fun segment member => by
    obtain ⟨i, bound, load, rfl⟩ := of_mem_loadSegments segment member
    exact wf.dests i bound load

/-- The headers before `i` have been placed as they would be from a separate copy
of the image. -/
theorem placed_laid (wf : WellFormed original image size)
    (kept : SourcesKept original (loadSegments original image (Ehdr.phnum.get original image)))
    (i : Nat) (bound : i ≤ Ehdr.phnum.get original image) :
    placed original image i = (loadSegments original image i).foldl (lay original) original :=
  have early := (loadSegments_initial original image bound).sublist
  foldl_place_lay [] _ (wf.apart.sublist early) (kept.sublist early)

/-- The copy of a segment whose sources were left alone leaves what it harmlessly covers. -/
theorem own_harmless (wf : WellFormed original image size)
    (kept : SourcesKept original (loadSegments original image (Ehdr.phnum.get original image)))
    (i : Nat) (bound : i < Ehdr.phnum.get original image) (load : isLoad original image i = true)
    (address count : Nat)
    (still : SameOn (placed original image i) original address count)
    (own : Harmless original (segmentAt original image (headerAt original image i)).copied address
      count) :
    SameOn (place (placed original image i)
      (segmentAt original image (headerAt original image i)).copied) original address count := by
  have whole := loadSegments_initial original image bound
  rw [loadSegments_succ, loadSegment, if_pos load] at whole
  have parts := List.pairwise_append.mp (kept.sublist whole.sublist)
  -- the file bytes of this segment are still the original ones
  have intact : SameOn (placed original image i) original
      (segmentAt original image (headerAt original image i)).src
      (segmentAt original image (headerAt original image i)).fileSize := by
    rw [placed_laid wf kept i (Nat.le_of_lt bound)]
    have early := (loadSegments_initial original image (Nat.le_of_lt bound)).sublist
    exact lay_harmless _ (wf.apart.sublist early) _ _ fun earlier member =>
      parts.2.2 earlier member _ (by simp)
  rw [place_eq_lay _ (segmentAt original image (headerAt original image i)).copied intact]
  intro x lower upper
  by_cases inside : (segmentAt original image (headerAt original image i)).copied.covers x
  · simp only [lay, inside, ↓reduceIte]
    exact own x lower upper inside
  · simp only [lay, inside, ↓reduceIte]
    exact still x lower upper

theorem stable_of_harmless (wf : WellFormed original image size)
    (left : HeadersLeft (Harmless original) original image)
    (kept : SourcesKept original (loadSegments original image (Ehdr.phnum.get original image))) :
    Stable original image := by
  have held (i : Nat) (bound : i ≤ Ehdr.phnum.get original image) (address count : Nat)
      (harmless : ∀ segment ∈ loadSegments original image i, Harmless original segment address count) :
      SameOn (placed original image i) original address count := by
    rw [placed_laid wf kept i bound]
    exact lay_harmless _ (wf.apart.sublist (loadSegments_initial original image bound).sublist) _ _ harmless
  constructor
  · intro i bound
    exact held i bound _ _ fun segment member =>
      left.phnum segment ((loadSegments_initial original image bound).subset member)
  · intro i bound
    exact held i (Nat.le_of_lt bound) _ _ (left.type i bound)
  · intro i bound load
    exact held i (Nat.le_of_lt bound) _ _ (left.offset i bound load)
  · intro i bound load
    exact held i (Nat.le_of_lt bound) _ _ (left.rest i bound load)
  · intro i bound load
    have still := held i (Nat.le_of_lt bound) _ _ (left.rest i bound load)
    exact own_harmless wf kept i bound load _ _
      (fun x lower upper => still x (by omega) (by omega)) (left.own i bound load)

/-- Headers that no segment covers are stable whatever happens to the sources. -/
theorem stable_of_misses (left : HeadersLeft Misses original image) : Stable original image := by
  have held (i address count : Nat)
      (misses : ∀ segment ∈ loadSegments original image i, Misses segment address count) :
      SameOn (placed original image i) original address count := fun x lower upper =>
    place_outside original _ x fun segment member => misses segment member x lower upper
  constructor
  · intro i bound
    exact held i _ _ fun segment member =>
      left.phnum segment ((loadSegments_initial original image bound).subset member)
  · intro i bound
    exact held i _ _ (left.type i bound)
  · intro i bound load
    exact held i _ _ (left.offset i bound load)
  · intro i bound load
    exact held i _ _ (left.rest i bound load)
  · intro i bound load x lower upper
    have still := held i _ _ (left.rest i bound load) x (by omega) (by omega)
    have uncovered := left.own i bound load x lower upper
    simp only [place, lay, uncovered, ↓reduceIte]
    exact still

/-- The property in the terms of the image is loading in the terms of segments. -/
theorem placedExactly_iff (wf : WellFormed original image size) (final : Memory) (entry : Nat) :
    PlacedExactly original final image entry ↔
      (∀ segment ∈ loadSegments original image (Ehdr.phnum.get original image),
        Loaded original final segment) ∧ entry = Ehdr.entry.get original image := by
  -- file bytes lie in the image, so their address does not wrap
  have source (i : Nat) (bound : i < Ehdr.phnum.get original image)
      (load : isLoad original image i = true) (k : Nat)
      (copied : k < Phdr.filesz.get original (headerAt original image i)) :
      u64 (image + Phdr.offset.get original (headerAt original image i)) =
        image + Phdr.offset.get original (headerAt original image i) := by
    have inside := wf.sources i bound load
    have bounded := wf.bounded
    exact Nat.mod_eq_of_lt (by omega)
  constructor
  · rintro ⟨file, zero, same⟩
    refine ⟨fun segment member x inside => ?_, same⟩
    obtain ⟨i, bound, load, rfl⟩ := of_mem_loadSegments segment member
    obtain ⟨lower, upper⟩ := inside
    simp only [segmentAt] at lower upper
    have offset : Phdr.paddr.get original (headerAt original image i) +
        (x - Phdr.paddr.get original (headerAt original image i)) = x := by omega
    simp only [Segment.byte, segmentAt]
    -- below the file size the byte comes from the image, above it is cleared
    by_cases copied : x < Phdr.paddr.get original (headerAt original image i) +
        Phdr.filesz.get original (headerAt original image i)
    · have here := file i bound load (x - Phdr.paddr.get original (headerAt original image i)) (by omega)
      rw [offset] at here
      simp only [copied, ↓reduceIte]
      rw [source i bound load (x - Phdr.paddr.get original (headerAt original image i)) (by omega),
        here]
    · have here := zero i bound load (x - Phdr.paddr.get original (headerAt original image i))
        (by omega) (by omega)
      rw [offset] at here
      simp only [copied, ↓reduceIte, here]
  · rintro ⟨loaded, same⟩
    have value (i : Nat) (bound : i < Ehdr.phnum.get original image)
        (load : isLoad original image i = true) (k : Nat)
        (inside : k < Phdr.memsz.get original (headerAt original image i)) :=
      loaded _ (mem_loadSegments original _ i bound load)
        (Phdr.paddr.get original (headerAt original image i) + k)
        ⟨Nat.le_add_right _ _, Nat.add_lt_add_left inside _⟩
    simp only [Segment.byte, segmentAt, Nat.add_lt_add_iff_left, Nat.add_sub_cancel_left] at value
    constructor
    · intro i bound load k copied
      have inside := wf.sizes i bound load
      rw [value i bound load k (by omega), source i bound load k copied]
      simp only [copied, ↓reduceIte]
    · intro i bound load k cleared inside
      have past : ¬ k < Phdr.filesz.get original (headerAt original image i) := by omega
      rw [value i bound load k inside]
      simp only [past, ↓reduceIte]
    · exact same

/-- Over headers that are left alone the image is placed exactly when its sources
are; headers that are rewritten with what they hold are as good as untouched. -/
theorem wbootGetKernelEntry_exact {start : Ram} (wf : WellFormed start.mem image size) :
    (HeadersLeft (Harmless start.mem) start.mem image → SourcesLeft start.mem image →
      PlacedExactly start.mem (wbootGetKernelEntry image start).2.mem image
        (wbootGetKernelEntry image start).1) ∧
    (HeadersLeft Misses start.mem image →
      (PlacedExactly start.mem (wbootGetKernelEntry image start).2.mem image
        (wbootGetKernelEntry image start).1 ↔ SourcesLeft start.mem image)) := by
  have sizes : ∀ segment ∈ loadSegments start.mem image (Ehdr.phnum.get start.mem image),
      segment.fileSize ≤ segment.memSize := wf.sized.fits
  have loads := @loaded_iff_kept start.mem _ wf.apart sizes
  -- the entry is read after the last copy, from bytes that no copy may have changed
  have entryBytes (kept : SourcesKept start.mem (loadSegments start.mem image
      (Ehdr.phnum.get start.mem image))) :
      Ehdr.entry.get (placed start.mem image (Ehdr.phnum.get start.mem image)) image =
        Ehdr.entry.get start.mem image ↔
      ∀ segment ∈ loadSegments start.mem image (Ehdr.phnum.get start.mem image),
        Harmless start.mem segment (image + 24) 8 := by
    rw [placed_laid wf kept _ (Nat.le_refl _)]
    constructor
    · intro equal
      exact harmless_of_same _ wf.apart _ _ (sameOn_of_load equal)
    · intro harmless
      exact load_congr (lay_harmless _ wf.apart _ _ harmless)
  have exact_iff (stable : Stable start.mem image) :
      PlacedExactly start.mem (wbootGetKernelEntry image start).2.mem image
        (wbootGetKernelEntry image start).1 ↔ SourcesLeft start.mem image := by
    obtain ⟨log, count, runs, rounds, -⟩ :=
      wbootGetKernelEntry_run start.mem wf.sized.narrow 0 start.accesses
    -- with stable headers the loop runs once for each program header
    have last := rounds.count_eq fun i bound => by
      rw [stable.met_placed wf.sized i bound]
      exact Ehdr.phnum.get_congr (stable.phnum i bound)
    rw [last, stable.met_placed wf.sized _ (Nat.le_refl _)] at runs
    have whole : wbootGetKernelEntry image start = _ := runs
    rw [whole, placedExactly_iff wf]
    constructor
    · rintro ⟨loaded, entry⟩
      have kept := loads.mp loaded
      exact ⟨kept, (entryBytes kept).mp entry⟩
    · rintro ⟨kept, harmless⟩
      exact ⟨loads.mpr kept, (entryBytes kept).mpr harmless⟩
  constructor
  · intro headers sources
    exact (exact_iff (stable_of_harmless wf headers sources.segments)).mpr sources
  · intro headers
    exact exact_iff (stable_of_misses headers)

end Segments

/-! An image of 184 bytes at 16 MiB with one segment of 64 bytes. Loaded over the
start of the image it replaces the header the entry address is read from. -/

def PlacesEveryImage : Prop :=
  ∀ (start : Ram) (image size : Nat), WellFormed start.mem image size →
    PlacedExactly start.mem (wbootGetKernelEntry image start).2.mem image
      (wbootGetKernelEntry image start).1

def oneSegment (paddr : Nat) : Memory :=
  let header := Ehdr.phnum.set (Ehdr.phoff.set (Ehdr.entry.set
    (store (fun _ => 0) 0x1000000 4 0x464C457F) 0x1000000 paddr) 0x1000000 64) 0x1000000 1
  Phdr.memsz.set (Phdr.filesz.set (Phdr.paddr.set (Phdr.offset.set (Phdr.type.set header
    0x1000040 1) 0x1000040 120) 0x1000040 paddr) 0x1000040 64) 0x1000040 64

theorem oneSegment_wellFormed (paddr : Nat) (segments : loadSegments (oneSegment paddr) 0x1000000
      (Ehdr.phnum.get (oneSegment paddr) 0x1000000) = [⟨paddr, 0x1000078, 64, 64⟩])
    (table : Ehdr.phoff.get (oneSegment paddr) 0x1000000 +
      Ehdr.phnum.get (oneSegment paddr) 0x1000000 * sizeofElf64Phdr ≤ 184)
    (header : ∀ i < Ehdr.phnum.get (oneSegment paddr) 0x1000000,
      Phdr.offset.get (oneSegment paddr) (headerAt (oneSegment paddr) 0x1000000 i) = 120 ∧
      Phdr.filesz.get (oneSegment paddr) (headerAt (oneSegment paddr) 0x1000000 i) = 64 ∧
      Phdr.memsz.get (oneSegment paddr) (headerAt (oneSegment paddr) 0x1000000 i) = 64 ∧
      Phdr.paddr.get (oneSegment paddr) (headerAt (oneSegment paddr) 0x1000000 i) < 2 ^ 32) :
    WellFormed (oneSegment paddr) 0x1000000 184 where
  bounded := by decide
  header := by decide
  table := table
  sizes := fun i bound _ => by
    obtain ⟨-, filesz, memsz, -⟩ := header i bound
    omega
  sources := fun i bound _ => by
    obtain ⟨offset, filesz, -, -⟩ := header i bound
    omega
  dests := fun i bound _ => by
    obtain ⟨-, -, memsz, small⟩ := header i bound
    omega
  apart := by
    rw [segments]
    exact List.pairwise_singleton _ _

theorem overlapping_image_misplaced : ¬ PlacesEveryImage := by
  intro places
  have wf := oneSegment_wellFormed 0x1000000 (by decide +kernel) (by decide +kernel) (by decide +kernel)
  have entry := (places ⟨oneSegment 0x1000000, []⟩ 0x1000000 184 wf).entry
  revert entry
  decide +kernel

/-- The one program header that `oneSegment` has, wherever the image is. -/
structure HoldsSegment (memory : Memory) (image dest : Nat) : Prop where
  phnum : Ehdr.phnum.get memory image = 1
  phoff : Ehdr.phoff.get memory image = 64
  header : headerAt memory image 0 = image + 64
  load : isLoad memory image 0 = true
  segment : segmentAt memory image (image + 64) = ⟨dest, image + 120, 64, 64⟩

theorem oneSegment_held {memory : Memory} {image dest : Nat} (bounded : image + 184 ≤ 2 ^ 64)
    (small : dest < 2 ^ 64)
    (bytes : SameOn (fun x => memory (image + x)) (fun x => oneSegment dest (0x1000000 + x)) 0 184) :
    HoldsSegment memory image dest := by
  -- fields only depend on the bytes, wherever the image lies
  have field (part : Field) (base : Nat) (inside : base + part.offset + part.width ≤ 184) :
      part.get memory (image + base) = part.get (oneSegment dest) (0x1000000 + base) := by
    unfold Field.get
    rw [Nat.add_assoc, load_shift, Nat.add_assoc, load_shift (oneSegment dest)]
    exact load_congr fun x lower upper => bytes x (Nat.zero_le x) (by omega)
  have phnum : Ehdr.phnum.get memory image = 1 := by
    rw [← Nat.add_zero image, field Ehdr.phnum 0 (by decide)]
    rfl
  have phoff : Ehdr.phoff.get memory image = 64 := by
    rw [← Nat.add_zero image, field Ehdr.phoff 0 (by decide)]
    rfl
  have header : headerAt memory image 0 = image + 64 := by
    unfold headerAt
    rw [phoff]
    exact Nat.mod_eq_of_lt (by simp only [phdrOffset, u64, sizeofElf64Phdr]; omega)
  refine ⟨phnum, phoff, header, ?_, ?_⟩
  · unfold isLoad
    rw [header, field Phdr.type 64 (by decide)]
    rfl
  · have place : Phdr.paddr.get (oneSegment dest) 0x1000040 = dest := by
      simp (disch := decide) only [oneSegment, Field.get_set_other, Field.get_set_same]
      exact Nat.mod_eq_of_lt small
    have source : Phdr.offset.get (oneSegment dest) 0x1000040 = 120 := by
      simp (disch := decide) only [oneSegment, Field.get_set_other, Field.get_set_same]
      rfl
    have filesz : Phdr.filesz.get (oneSegment dest) 0x1000040 = 64 := by
      simp (disch := decide) only [oneSegment, Field.get_set_other, Field.get_set_same]
      rfl
    have memsz : Phdr.memsz.get (oneSegment dest) 0x1000040 = 64 := by
      simp (disch := decide) only [oneSegment, Field.get_set_same]
      rfl
    have start : u64 (image + 120) = image + 120 := Nat.mod_eq_of_lt (by omega)
    unfold segmentAt
    rw [field Phdr.paddr 64 (by decide), field Phdr.offset 64 (by decide),
      field Phdr.filesz 64 (by decide), field Phdr.memsz 64 (by decide), place, source, filesz, memsz,
      start]

theorem HoldsSegment.loadSegments {memory : Memory} {image dest : Nat} (held : HoldsSegment memory image dest) :
    ElfPlacement.loadSegments memory image 1 = [⟨dest, image + 120, 64, 64⟩] := by
  have one : ElfPlacement.loadSegments memory image 1 = [segmentAt memory image (headerAt memory image 0)] := by
    simp [ElfPlacement.loadSegments, loadSegment, held.load, List.range_succ]
  rw [one, held.header, held.segment]

theorem HoldsSegment.copies {memory : Memory} {image dest : Nat} (held : HoldsSegment memory image dest)
    (moved : dest ≠ image + 120) :
    .placed dest 64 ∈ roundLog memory image (phdrOffset (Ehdr.phoff.get memory image) 0) := by
  have header : u64 (image + phdrOffset (Ehdr.phoff.get memory image) 0) = image + 64 := held.header
  have load : Phdr.type.get memory (image + 64) = ptLoad := by
    rw [← held.header]
    exact of_decide_eq_true held.load
  simp [roundLog, bodyLog, header, load, held.segment, copyAccesses, moved]

/-- Whatever spares the image up to the segment spares its headers. -/
theorem HoldsSegment.headersLeft {leaves : Segment → Nat → Nat → Prop} {memory : Memory} {image dest : Nat}
    (held : HoldsSegment memory image dest) (spares : ∀ address count, address + count ≤ image + 120 →
      leaves ⟨dest, image + 120, 64, 64⟩ address count) : HeadersLeft leaves memory image := by
  constructor
  · intro segment member
    rw [held.phnum, held.loadSegments] at member
    obtain rfl := List.mem_singleton.mp member
    exact spares _ _ (by omega)
  · intro i bound segment member
    have first : i = 0 := Nat.lt_one_iff.mp (held.phnum ▸ bound)
    exact absurd (first ▸ member) List.not_mem_nil
  · intro i bound load segment member
    have first : i = 0 := Nat.lt_one_iff.mp (held.phnum ▸ bound)
    exact absurd (first ▸ member) List.not_mem_nil
  · intro i bound load segment member
    have first : i = 0 := Nat.lt_one_iff.mp (held.phnum ▸ bound)
    exact absurd (first ▸ member) List.not_mem_nil
  · intro i bound load
    obtain rfl : i = 0 := Nat.lt_one_iff.mp (held.phnum ▸ bound)
    rw [held.header, held.segment]
    exact spares _ _ (by omega)

theorem separate_image_placed :
    PlacedExactly (oneSegment 0x2000000)
      (wbootGetKernelEntry 0x1000000 ⟨oneSegment 0x2000000, []⟩).2.mem 0x1000000
      (wbootGetKernelEntry 0x1000000 ⟨oneSegment 0x2000000, []⟩).1 := by
  have held : HoldsSegment (oneSegment 0x2000000) 0x1000000 0x2000000 :=
    oneSegment_held (by decide) (by decide) fun _ _ _ => rfl
  have segments : loadSegments (oneSegment 0x2000000) 0x1000000
      (Ehdr.phnum.get (oneSegment 0x2000000) 0x1000000) = [⟨0x2000000, 0x1000078, 64, 64⟩] := by
    rw [held.phnum]
    exact held.loadSegments
  have wf := oneSegment_wellFormed 0x2000000 segments (by decide +kernel) (by decide +kernel)
  have misses (address count : Nat) (low : address + count ≤ 0x2000000) :
      Misses ⟨0x2000000, 0x1000078, 64, 64⟩ address count :=
    fun x _ upper inside => absurd inside.1 (by dsimp only; omega)
  have headers : HeadersLeft Misses (oneSegment 0x2000000) 0x1000000 :=
    held.headersLeft fun address count low => misses address count (by omega)
  refine ((@wbootGetKernelEntry_exact 0x1000000 184 ⟨oneSegment 0x2000000, []⟩ wf).2 headers).mpr ⟨?_, ?_⟩
  · rw [segments]
    exact List.pairwise_singleton _ _
  · rw [segments]
    intro segment member x lower upper inside
    obtain rfl := List.mem_singleton.mp member
    exact absurd inside (misses _ _ (by decide) x lower upper)

end Wboot.ElfPlacement
