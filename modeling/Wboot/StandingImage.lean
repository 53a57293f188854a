import Wboot.PlacementOverlap
import Wboot.CString

/-! An ELF image as a list of bytes, and what `wboot_get_kernel_entry` makes of it wherever
it stands. All that the function goes by is in the image, so memories that agree on the
image agree on what the function places. -/

namespace Wboot.StandingImage
open StateProgram ByteMemory CString Machine LinuxBoot Wstdlib SegmentCopy ElfPlacement

/-- The image alone in memory. -/
def standing (address : Nat) (image : List UInt8) : Memory :=
  fun x => if address ≤ x then image.getD (x - address) 0 else 0

theorem standing_sameOn {memory : Memory} {address : Nat} {image : List UInt8} (here : TextAt memory address image) :
    SameOn memory (standing address image) address image.length := by
  intro x lower upper
  have byte := textAt_getD here (x - address) (by omega)
  rw [Nat.add_sub_cancel' lower] at byte
  rw [standing, if_pos lower, byte]

section Agreeing
variable {left right final : Memory} {image size : Nat}

theorem headerAt_unwrapped (wf : WellFormed left image size) {i : Nat} (bound : i < Ehdr.phnum.get left image) :
    headerAt left image i = image + Ehdr.phoff.get left image + i * sizeofElf64Phdr ∧
      headerAt left image i + sizeofElf64Phdr ≤ image + size := by
  have table := wf.table
  have bounded := wf.bounded
  have rows : (i + 1) * sizeofElf64Phdr ≤ Ehdr.phnum.get left image * sizeofElf64Phdr :=
    Nat.mul_le_mul_right _ bound
  rw [Nat.succ_mul] at rows
  have inner : phdrOffset (Ehdr.phoff.get left image) i = Ehdr.phoff.get left image + i * sizeofElf64Phdr := by
    refine Nat.mod_eq_of_lt ?_
    simp only [sizeofElf64Phdr] at *
    omega
  have outer : headerAt left image i = image + (Ehdr.phoff.get left image + i * sizeofElf64Phdr) := by
    rw [headerAt, inner]
    refine Nat.mod_eq_of_lt ?_
    simp only [sizeofElf64Phdr] at *
    omega
  omega

/-- The fields of the two kinds of header. -/
structure SameHeaders (left right : Memory) (image : Nat) : Prop where
  phnum : Ehdr.phnum.get right image = Ehdr.phnum.get left image
  phoff : Ehdr.phoff.get right image = Ehdr.phoff.get left image
  entry : Ehdr.entry.get right image = Ehdr.entry.get left image
  field : ∀ i < Ehdr.phnum.get left image, ∀ part : Field, part.offset + part.width ≤ sizeofElf64Phdr →
    part.get right (headerAt left image i) = part.get left (headerAt left image i)

theorem sameHeaders (same : SameOn left right image size) (wf : WellFormed left image size) :
    SameHeaders left right image := by
  have header := wf.header
  have first (part : Field) (inside : part.offset + part.width ≤ 64) : part.get right image = part.get left image :=
    (part.get_congr fun x lower upper => same x (by omega) (by omega)).symm
  refine ⟨first _ (by decide), first _ (by decide), first _ (by decide), fun i bound part inside => ?_⟩
  obtain ⟨place, upper⟩ := headerAt_unwrapped wf bound
  exact (part.get_congr fun x low high => same x (by omega) (by omega)).symm

theorem SameHeaders.headerAt (headers : SameHeaders left right image) (i : Nat) :
    headerAt right image i = ElfPlacement.headerAt left image i := by
  rw [ElfPlacement.headerAt, ElfPlacement.headerAt, headers.phoff]

theorem SameHeaders.isLoad (headers : SameHeaders left right image) {i : Nat} (bound : i < Ehdr.phnum.get left image) :
    isLoad right image i = ElfPlacement.isLoad left image i := by
  rw [ElfPlacement.isLoad, ElfPlacement.isLoad, headers.headerAt, headers.field i bound _ (by decide)]

theorem SameHeaders.segmentAt (headers : SameHeaders left right image) {i : Nat}
    (bound : i < Ehdr.phnum.get left image) :
    segmentAt right image (ElfPlacement.headerAt left image i) =
      ElfPlacement.segmentAt left image (ElfPlacement.headerAt left image i) := by
  have field := headers.field i bound
  simp only [ElfPlacement.segmentAt, field Phdr.paddr (by decide), field Phdr.offset (by decide),
    field Phdr.filesz (by decide), field Phdr.memsz (by decide)]

theorem SameHeaders.loadSegments (headers : SameHeaders left right image) {count : Nat}
    (few : count ≤ Ehdr.phnum.get left image) :
    loadSegments right image count = ElfPlacement.loadSegments left image count := by
  refine List.filterMap_congr fun i index => ?_
  have bound : i < Ehdr.phnum.get left image := Nat.lt_of_lt_of_le (List.mem_range.mp index) few
  rw [loadSegment, loadSegment, headers.isLoad bound, headers.headerAt, headers.segmentAt bound]

theorem wellFormed_congr (same : SameOn left right image size) (wf : WellFormed left image size) :
    WellFormed right image size := by
  have headers := sameHeaders same wf
  have whole := headers.loadSegments (Nat.le_refl _)
  have field := headers.field
  refine ⟨wf.bounded, wf.header, by rw [headers.phoff, headers.phnum]; exact wf.table, ?_, ?_, ?_, ?_⟩
  · intro i bound load
    rw [headers.phnum] at bound
    rw [headers.isLoad bound] at load
    rw [headers.headerAt, field i bound _ (by decide), field i bound _ (by decide)]
    exact wf.sizes i bound load
  · intro i bound load
    rw [headers.phnum] at bound
    rw [headers.isLoad bound] at load
    rw [headers.headerAt, field i bound _ (by decide), field i bound _ (by decide)]
    exact wf.sources i bound load
  · intro i bound load
    rw [headers.phnum] at bound
    rw [headers.isLoad bound] at load
    rw [headers.headerAt, field i bound _ (by decide), field i bound _ (by decide)]
    exact wf.dests i bound load
  · rw [headers.phnum, whole]
    exact wf.apart

/-- Which header bytes a segment misses depends on addresses alone. -/
theorem headersMissed_congr (same : SameOn left right image size) (wf : WellFormed left image size)
    (missed : HeadersLeft Misses left image) : HeadersLeft Misses right image := by
  have headers := sameHeaders same wf
  have segments (i : Nat) (few : i ≤ Ehdr.phnum.get left image) := headers.loadSegments few
  refine ⟨?_, ?_, ?_, ?_, ?_⟩
  · rw [headers.phnum, segments _ (Nat.le_refl _)]
    exact missed.phnum
  · intro i bound
    rw [headers.phnum] at bound
    rw [segments i (Nat.le_of_lt bound), headers.headerAt]
    exact missed.type i bound
  · intro i bound load
    rw [headers.phnum] at bound
    rw [headers.isLoad bound] at load
    rw [segments i (Nat.le_of_lt bound), headers.headerAt]
    exact missed.offset i bound load
  · intro i bound load
    rw [headers.phnum] at bound
    rw [headers.isLoad bound] at load
    rw [segments i (Nat.le_of_lt bound), headers.headerAt]
    exact missed.rest i bound load
  · intro i bound load
    rw [headers.phnum] at bound
    rw [headers.isLoad bound] at load
    rw [headers.headerAt, headers.segmentAt bound]
    exact missed.own i bound load

/-- File bytes are copied from the image. -/
theorem source_inside (wf : WellFormed left image size) {segment : Segment}
    (member : segment ∈ loadSegments left image (Ehdr.phnum.get left image)) :
    segment.fileSize = 0 ∨ (image ≤ segment.src ∧ segment.src + segment.fileSize ≤ image + size) := by
  obtain ⟨i, bound, load, rfl⟩ := of_mem_loadSegments segment member
  have inside := wf.sources i bound load
  have bounded := wf.bounded
  simp only [ElfPlacement.segmentAt]
  rcases Nat.eq_zero_or_pos (Phdr.filesz.get left (headerAt left image i)) with none | some
  · exact Or.inl none
  · have whole : u64 (image + Phdr.offset.get left (headerAt left image i)) =
        image + Phdr.offset.get left (headerAt left image i) := Nat.mod_eq_of_lt (by omega)
    rw [whole]
    exact Or.inr ⟨by omega, by omega⟩

theorem byte_congr (same : SameOn left right image size) (wf : WellFormed left image size) {segment : Segment}
    (member : segment ∈ loadSegments left image (Ehdr.phnum.get left image)) {x : Nat} (covers : segment.covers x) :
    segment.byte right x = segment.byte left x := by
  obtain ⟨lower, -⟩ := covers
  simp only [Segment.byte]
  by_cases copied : x < segment.dest + segment.fileSize
  · rw [if_pos copied, if_pos copied]
    rcases source_inside wf member with none | ⟨low, high⟩
    · omega
    · exact (same _ (by omega) (by omega)).symm
  · rw [if_neg copied, if_neg copied]

theorem sourcesLeft_congr (same : SameOn left right image size) (wf : WellFormed left image size)
    (kept : SourcesLeft left image) : SourcesLeft right image := by
  have headers := sameHeaders same wf
  have whole := headers.loadSegments (Nat.le_refl _)
  have header := wf.header
  constructor
  · rw [headers.phnum, whole]
    refine kept.segments.imp_of_mem fun {earlier later} first second harmless x lower upper covers => ?_
    rcases source_inside wf second with none | ⟨low, high⟩
    · omega
    · rw [byte_congr same wf first covers, harmless x lower upper covers]
      exact same x (by omega) (by omega)
  · rw [headers.phnum, whole]
    intro segment member x lower upper covers
    rw [byte_congr same wf member covers, kept.entry segment member x lower upper covers]
    exact same x (by omega) (by omega)

theorem placedExactly_congr (same : SameOn left right image size) (wf : WellFormed left image size) {entry : Nat}
    (placed : PlacedExactly right final image entry) : PlacedExactly left final image entry := by
  have headers := sameHeaders same wf
  have field := headers.field
  constructor
  · intro i bound load k copied
    have inside := wf.sources i bound load
    have here := placed.file i (headers.phnum ▸ bound) ((headers.isLoad bound).trans load) k
    rw [headers.headerAt, field i bound _ (by decide), field i bound _ (by decide), field i bound _ (by decide)] at here
    rw [here copied]
    exact (same _ (by omega) (by omega)).symm
  · intro i bound load k cleared inside
    have here := placed.zero i (headers.phnum ▸ bound) ((headers.isLoad bound).trans load) k
    rw [headers.headerAt, field i bound _ (by decide), field i bound _ (by decide), field i bound _ (by decide)] at here
    exact here cleared inside
  · rw [placed.entry, headers.entry]

end Agreeing

/-- Over headers and sources that are left alone, the function places the image and
writes to the destinations only. -/
theorem places {memory : Memory} {image size : Nat} (wf : WellFormed memory image size)
    (missed : HeadersLeft Misses memory image) (kept : SourcesLeft memory image) (accesses : List Access) :
    let placed := wbootGetKernelEntry image ⟨memory, accesses⟩
    PlacedExactly memory placed.2.mem image placed.1 ∧
      ∀ x, (∀ segment ∈ loadSegments memory image (Ehdr.phnum.get memory image), ¬ segment.covers x) →
        placed.2.mem x = memory x := by
  have stable := stable_of_misses missed
  obtain ⟨count, runs, rounds⟩ := wbootGetKernelEntry_apply memory wf.sized.narrow accesses
  have last : count = Ehdr.phnum.get memory image := rounds.count_eq fun i bound => by
    rw [stable.met_placed wf.sized i bound]
    exact Ehdr.phnum.get_congr (stable.phnum i bound)
  have copies := stable.met_placed wf.sized _ (Nat.le_refl _)
  rw [last, copies] at runs
  rw [runs]
  refine ⟨(placedExactly_iff wf _ _).mpr ⟨?_, ?_⟩, fun x outside => place_outside memory _ x outside⟩
  · exact (loaded_iff_kept _ wf.apart wf.sized.fits).mpr kept.segments
  · dsimp only
    rw [placed_laid wf kept.segments _ (Nat.le_refl _)]
    exact load_congr (lay_harmless _ wf.apart _ _ kept.entry)

end Wboot.StandingImage
