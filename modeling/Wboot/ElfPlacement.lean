import Wboot.SegmentCopy
import Wboot.LinuxBoot
import Wboot.Wstdlib

/-! `wboot_get_kernel_entry` (src/phase3/wboot.c). The image and the destinations
of its segments share one memory, and the loop reads `e_phnum` and each program
header from that memory when it needs them. `Elf64_Ehdr` and `Elf64_Phdr` are
src/shared/elf.h. -/

namespace Wboot.ElfPlacement
open StateProgram ByteMemory Machine LinuxBoot Wstdlib SegmentCopy

namespace Ehdr
def entry : Field := ⟨24, 8⟩
def phoff : Field := ⟨32, 8⟩
def phnum : Field := ⟨56, 2⟩
end Ehdr

namespace Phdr
def type : Field := ⟨0, 4⟩
def offset : Field := ⟨8, 8⟩
def paddr : Field := ⟨24, 8⟩
def filesz : Field := ⟨32, 8⟩
def memsz : Field := ⟨40, 8⟩
end Phdr

def sizeofElf64Phdr : Nat := 56
def ptLoad : Nat := 1

/-- Where `phdrs[i]` starts, as an offset into the image. -/
def phdrOffset (phoff i : Nat) : Nat := u64 (phoff + i * sizeofElf64Phdr)

/-- A field of the record that starts at `offset` in the image. -/
def imageField (offset : Nat) (field : Field) : Access :=
  .image (offset + field.offset) field.width

def readImage (image offset : Nat) (field : Field) : Prog Ram Nat := do
  recordAccess (imageField offset field)
  loadField (u64 (image + offset)) field

def copySegment (image dest offset filesz : Nat) : Prog Ram Unit := do
  let src := u64 (image + offset)
  -- memmove touches nothing when source and destination are the same
  if dest ≠ src then
    recordAccess (.image offset filesz)
    recordAccess (.placed dest filesz)
  memmove dest src filesz

def clearSegment (dest filesz memsz : Nat) : Prog Ram Unit := do
  if memsz > filesz then
    recordAccess (.placed (u64 (dest + filesz)) (memsz - filesz))
    memset (u64 (dest + filesz)) 0 (memsz - filesz)

/-- The body of the loop for a segment of type PT_LOAD. The sizes are read again
after the copy. -/
def placeSegment (image header : Nat) : Prog Ram Unit := do
  let dest ← readImage image header Phdr.paddr
  let offset ← readImage image header Phdr.offset
  let filesz ← readImage image header Phdr.filesz
  copySegment image dest offset filesz
  let memsz ← readImage image header Phdr.memsz
  let filesz ← readImage image header Phdr.filesz
  clearSegment dest filesz memsz

/-- `e_phnum` has 16 bits, so 65536 rounds are never used up. -/
def placementLoop (image phoff : Nat) : Nat → Nat → Prog Ram Unit
  | 0, _ => pure ()
  | fuel + 1, i => do
      let phnum ← readImage image 0 Ehdr.phnum
      if i < phnum then
        let type ← readImage image (phdrOffset phoff i) Phdr.type
        if type = ptLoad then
          placeSegment image (phdrOffset phoff i)
        placementLoop image phoff fuel (i + 1)

def wbootGetKernelEntry (image : Nat) : Prog Ram Nat := do
  let phoff ← readImage image 0 Ehdr.phoff
  placementLoop image phoff 65536 0
  readImage image 0 Ehdr.entry

/-! ### Headers as segments -/

def headerAt (memory : Memory) (image i : Nat) : Nat :=
  u64 (image + phdrOffset (Ehdr.phoff.get memory image) i)

def segmentAt (memory : Memory) (image header : Nat) : Segment :=
  ⟨Phdr.paddr.get memory header, u64 (image + Phdr.offset.get memory header),
    Phdr.filesz.get memory header, Phdr.memsz.get memory header⟩

def isLoad (memory : Memory) (image i : Nat) : Bool :=
  decide (Phdr.type.get memory (headerAt memory image i) = ptLoad)

def loadSegment (memory : Memory) (image i : Nat) : Option Segment :=
  if isLoad memory image i then some (segmentAt memory image (headerAt memory image i)) else none

/-- The PT_LOAD segments among the first `count` program headers. -/
def loadSegments (memory : Memory) (image count : Nat) : List Segment :=
  (List.range count).filterMap (loadSegment memory image)

def copyAccesses (dest src offset filesz : Nat) : List Access :=
  if dest ≠ src then [.placed dest filesz, .image offset filesz] else []

def clearAccesses (dest filesz memsz : Nat) : List Access :=
  if memsz > filesz then [.placed (u64 (dest + filesz)) (memsz - filesz)] else []

/-- The fields of a PT_LOAD header that the body goes by. -/
theorem segmentAt_congr (image : Nat) {left right : Memory} {header : Nat}
    (low : SameOn left right (header + 8) 8) (high : SameOn left right (header + 24) 24) :
    segmentAt left image header = segmentAt right image header := by
  have offset : Phdr.offset.get left header = Phdr.offset.get right header := Phdr.offset.get_congr low
  have field (part : Field) (inside : 24 ≤ part.offset ∧ part.offset + part.width ≤ 48) :
      part.get left header = part.get right header :=
    part.get_congr fun x lower upper => high x (by omega) (by omega)
  simp only [segmentAt, offset, field Phdr.paddr (by decide), field Phdr.filesz (by decide),
    field Phdr.memsz (by decide)]

theorem readImage_apply (image offset : Nat) (field : Field) (ram : Ram) :
    readImage image offset field ram = (field.get ram.mem (u64 (image + offset)),
      ⟨ram.mem, imageField offset field :: ram.accesses⟩) := rfl

theorem copySegment_apply (image dest offset filesz : Nat) (ram : Ram) :
    copySegment image dest offset filesz ram =
      ((), ⟨moved ram.mem dest (u64 (image + offset)) filesz,
        copyAccesses dest (u64 (image + offset)) offset filesz ++ ram.accesses⟩) := by
  simp only [copySegment, bind_apply, branch_apply, memmove, modifyState_apply, recordAccess,
    memmoveMemory_moved, copyAccesses]
  split <;> rfl

/-- However source and destination lie, memmove copies the source as it was before the
call and changes nothing else; the copy of a segment is such a copy. -/
theorem memmove_copies (ram : Ram) (dest src n : Nat) :
    Copied ram.mem (memmove dest src n ram).2.mem dest src n ∧
      ∀ image offset, Copied ram.mem (copySegment image dest offset n ram).2.mem dest (u64 (image + offset)) n := by
  constructor
  · have after : (memmove dest src n ram).2.mem = moved ram.mem dest src n := memmoveMemory_moved ram.mem dest src n
    rw [after]
    exact moved_copied ram.mem dest src n
  · intro image offset
    rw [copySegment_apply]
    exact moved_copied ram.mem dest _ n

theorem clearSegment_apply (dest filesz memsz : Nat) (ram : Ram) :
    clearSegment dest filesz memsz ram =
      ((), ⟨setLoop ram.mem (u64 (dest + filesz)) 0 (memsz - filesz),
        clearAccesses dest filesz memsz ++ ram.accesses⟩) := by
  simp only [clearSegment, bind_apply, branch_apply, memset, modifyState_apply, recordAccess, pure_apply,
    clearAccesses]
  by_cases clears : memsz > filesz
  · rw [if_pos clears, if_pos clears]
    rfl
  · have none : memsz - filesz = 0 := by omega
    rw [if_neg clears, if_neg clears, none]
    rfl

theorem u64_add_left (image offset : Nat) : u64 (u64 image + offset) = u64 (image + offset) :=
  Nat.mod_add_mod image (2 ^ 64) offset

/-- Addresses are formed in 64 bits, so a pointer counts modulo 2^64. -/
theorem wbootGetKernelEntry_u64 (image : Nat) :
    wbootGetKernelEntry (u64 image) = wbootGetKernelEntry image := by
  have reads (offset : Nat) (field : Field) :
      readImage (u64 image) offset field = readImage image offset field := by
    simp only [readImage, u64_add_left]
  have copies (dest offset filesz : Nat) :
      copySegment (u64 image) dest offset filesz = copySegment image dest offset filesz := by
    simp only [copySegment, u64_add_left]
  have loops (phoff fuel i : Nat) :
      placementLoop (u64 image) phoff fuel i = placementLoop image phoff fuel i := by
    induction fuel generalizing i with
    | zero => rfl
    | succ fuel ih => simp only [placementLoop, placeSegment, reads, copies, ih]
  simp only [wbootGetKernelEntry, reads, loops]

/-! ### One round after another -/

/-- Memory after the body for a PT_LOAD header. The copy may have changed the
sizes the clearing goes by. -/
def loadedMemory (memory : Memory) (image header : Nat) : Memory :=
  let segment := segmentAt memory image header
  let copied := moved memory segment.dest segment.src segment.fileSize
  let again := segmentAt copied image header
  setLoop copied (u64 (segment.dest + again.fileSize)) 0 (again.memSize - again.fileSize)

/-- Memory after `i` rounds of the loop, each header as it is met. -/
def met (original : Memory) (image : Nat) : Nat → Memory
  | 0 => original
  | i + 1 =>
      let before := met original image i
      let header := headerAt original image i
      if Phdr.type.get before header = ptLoad then loadedMemory before image header else before

/-- The loop makes `count` rounds. -/
structure Rounds (original : Memory) (image count : Nat) : Prop where
  running : ∀ i < count, i < Ehdr.phnum.get (met original image i) image
  stopped : Ehdr.phnum.get (met original image count) image ≤ count

/-- An access to the image stays below `size`. -/
def WithinImage (size : Nat) : Access → Prop
  | .image offset count => count = 0 ∨ offset + count ≤ size
  | _ => True

/-- The bytes a PT_LOAD body reads lie below `size`: its header, and its file
bytes unless it is in place already. -/
def BodyFits (memory : Memory) (image offset size : Nat) : Prop :=
  let segment := segmentAt memory image (u64 (image + offset))
  offset + 48 ≤ size ∧
    (segment.dest = segment.src ∨ segment.fileSize = 0 ∨
      Phdr.offset.get memory (u64 (image + offset)) + segment.fileSize ≤ size)

/-- The same for a whole round. -/
def HeaderFits (memory : Memory) (image offset size : Nat) : Prop :=
  offset + 4 ≤ size ∧
    (Phdr.type.get memory (u64 (image + offset)) = ptLoad → BodyFits memory image offset size)

theorem withinImage_field (size offset : Nat) (field : Field) (wide : field.width ≠ 0) :
    WithinImage size (imageField offset field) ↔ offset + field.offset + field.width ≤ size := by
  simp only [WithinImage, imageField, wide, false_or]

theorem copyAccesses_within (dest src offset filesz size : Nat) :
    (∀ access ∈ copyAccesses dest src offset filesz, WithinImage size access) ↔
      dest = src ∨ filesz = 0 ∨ offset + filesz ≤ size := by
  by_cases same : dest = src
  · simp [copyAccesses, same]
  · simp [copyAccesses, same, WithinImage]

theorem clearAccesses_within (dest filesz memsz size : Nat) :
    ∀ access ∈ clearAccesses dest filesz memsz, WithinImage size access := by
  intro access member
  simp only [clearAccesses] at member
  split at member
  · obtain rfl := List.mem_singleton.mp member
    trivial
  · exact absurd member List.not_mem_nil

/-- The accesses of the body for a PT_LOAD header, newest first. -/
def bodyLog (memory : Memory) (image offset : Nat) : List Access :=
  let segment := segmentAt memory image (u64 (image + offset))
  let again := segmentAt (moved memory segment.dest segment.src segment.fileSize) image
    (u64 (image + offset))
  clearAccesses segment.dest again.fileSize again.memSize ++
    imageField offset Phdr.filesz :: imageField offset Phdr.memsz ::
    (copyAccesses segment.dest segment.src (Phdr.offset.get memory (u64 (image + offset)))
        segment.fileSize ++
      [imageField offset Phdr.filesz, imageField offset Phdr.offset, imageField offset Phdr.paddr])

/-- The accesses of a round that finds its header at `offset`. -/
def roundLog (memory : Memory) (image offset : Nat) : List Access :=
  (if Phdr.type.get memory (u64 (image + offset)) = ptLoad then bodyLog memory image offset else []) ++
    [imageField offset Phdr.type, imageField 0 Ehdr.phnum]

/-- The accesses of `left` rounds from round `i` on, each header as it is met. -/
def roundsLog (original : Memory) (image : Nat) : Nat → Nat → List Access
  | _, 0 => []
  | i, left + 1 => roundsLog original image (i + 1) left ++
      roundLog (met original image i) image (phdrOffset (Ehdr.phoff.get original image) i)

/-- The accesses of the whole function when it makes `count` rounds. -/
def placementLog (original : Memory) (image count : Nat) : List Access :=
  imageField 0 Ehdr.entry :: imageField 0 Ehdr.phnum ::
    (roundsLog original image 0 count ++ [imageField 0 Ehdr.phoff])

theorem roundsLog_all (allowed : Access → Prop) (original : Memory) (image i left : Nat) :
    (∀ access ∈ roundsLog original image i left, allowed access) ↔ ∀ j, i ≤ j → j < i + left →
      ∀ access ∈ roundLog (met original image j) image (phdrOffset (Ehdr.phoff.get original image) j),
        allowed access := by
  induction left generalizing i with
  | zero =>
      simp only [roundsLog, List.not_mem_nil, false_implies, implies_true, true_iff]
      exact fun j lower upper => by omega
  | succ left ih =>
      rw [roundsLog, List.forall_mem_append, ih (i + 1)]
      constructor
      · rintro ⟨later, here⟩ j lower upper
        by_cases same : j = i
        · exact same ▸ here
        · exact later j (by omega) (by omega)
      · intro all
        exact ⟨fun j lower upper => all j (by omega) (by omega), all i (Nat.le_refl i) (by omega)⟩

theorem placementLog_all (allowed : Access → Prop) (original : Memory) (image count : Nat) :
    (∀ access ∈ placementLog original image count, allowed access) ↔
      (allowed (imageField 0 Ehdr.entry) ∧ allowed (imageField 0 Ehdr.phnum) ∧
        allowed (imageField 0 Ehdr.phoff)) ∧ ∀ i < count,
          ∀ access ∈ roundLog (met original image i) image (phdrOffset (Ehdr.phoff.get original image) i),
            allowed access := by
  simp only [placementLog, List.forall_mem_cons, List.forall_mem_append, roundsLog_all, Nat.zero_le,
    Nat.zero_add, forall_const, List.not_mem_nil, false_implies, implies_true, and_true]
  constructor
  · rintro ⟨entry, phnum, rounds, phoff⟩
    exact ⟨⟨entry, phnum, phoff⟩, rounds⟩
  · rintro ⟨⟨entry, phnum, phoff⟩, rounds⟩
    exact ⟨entry, phnum, rounds, phoff⟩

theorem placeSegment_apply (image offset : Nat) (ram : Ram) :
    placeSegment image offset ram =
      ((), ⟨loadedMemory ram.mem image (u64 (image + offset)),
        bodyLog ram.mem image offset ++ ram.accesses⟩) := by
  simp only [placeSegment, bind_apply, readImage_apply, copySegment_apply, clearSegment_apply, bodyLog,
    List.append_assoc, List.cons_append, List.nil_append]
  rfl

/-- What a body reads lies in the image exactly when its header says so. -/
theorem bodyLog_within (memory : Memory) (image offset size : Nat) :
    (∀ access ∈ bodyLog memory image offset, WithinImage size access) ↔
      BodyFits memory image offset size := by
  simp only [bodyLog, List.forall_mem_append, List.forall_mem_cons, copyAccesses_within,
    withinImage_field _ _ Phdr.filesz (by decide), withinImage_field _ _ Phdr.memsz (by decide),
    withinImage_field _ _ Phdr.offset (by decide), withinImage_field _ _ Phdr.paddr (by decide)]
  constructor
  · rintro ⟨-, -, memsz, copied, -⟩
    exact ⟨memsz, copied⟩
  · rintro ⟨inside, copied⟩
    have sizes : offset + Phdr.filesz.offset + Phdr.filesz.width ≤ size ∧
        offset + Phdr.offset.offset + Phdr.offset.width ≤ size ∧
        offset + Phdr.paddr.offset + Phdr.paddr.width ≤ size := by
      simp only [Phdr.filesz, Phdr.offset, Phdr.paddr]
      omega
    exact ⟨clearAccesses_within _ _ _ _, sizes.1, inside, copied, sizes.1, sizes.2.1, sizes.2.2,
      by simp⟩

theorem roundLog_within (memory : Memory) (image offset size : Nat) :
    (∀ access ∈ roundLog memory image offset, WithinImage size access) ↔
      58 ≤ size ∧ HeaderFits memory image offset size := by
  have type : WithinImage size (imageField offset Phdr.type) ↔ offset + 4 ≤ size :=
    withinImage_field size offset Phdr.type (by decide)
  have phnum : WithinImage size (imageField 0 Ehdr.phnum) ↔ 58 ≤ size :=
    withinImage_field size 0 Ehdr.phnum (by decide)
  simp only [roundLog, List.forall_mem_append, List.forall_mem_cons, type, phnum, HeaderFits,
    List.not_mem_nil, false_implies, implies_true, and_true]
  by_cases loads : Phdr.type.get memory (u64 (image + offset)) = ptLoad
  · simp only [loads, ↓reduceIte, bodyLog_within, forall_const]
    constructor
    · rintro ⟨body, header, first⟩
      exact ⟨first, header, body⟩
    · rintro ⟨first, header, body⟩
      exact ⟨body, header, first⟩
  · simp only [loads, ↓reduceIte, List.not_mem_nil, false_implies, implies_true, true_and, and_true]
    exact and_comm

/-- One round of the loop. -/
theorem placementLoop_succ (image phoff fuel i : Nat) (ram : Ram) :
    placementLoop image phoff (fuel + 1) i ram =
      if i < Ehdr.phnum.get ram.mem (u64 (image + 0)) then
        placementLoop image phoff fuel (i + 1)
          ⟨if Phdr.type.get ram.mem (u64 (image + phdrOffset phoff i)) = ptLoad then
            loadedMemory ram.mem image (u64 (image + phdrOffset phoff i)) else ram.mem,
          roundLog ram.mem image (phdrOffset phoff i) ++ ram.accesses⟩
      else ((), ⟨ram.mem, imageField 0 Ehdr.phnum :: ram.accesses⟩) := by
  rw [placementLoop, bind_apply, readImage_apply]
  dsimp only
  rw [branch_apply, bind_apply, readImage_apply]
  dsimp only
  by_cases loads : Phdr.type.get ram.mem (u64 (image + phdrOffset phoff i)) = ptLoad
  · simp only [loads, ↓reduceIte, bind_apply, placeSegment_apply, roundLog, List.append_assoc,
      List.cons_append, List.nil_append]
    rfl
  · simp only [loads, ↓reduceIte, roundLog, List.cons_append, List.nil_append]
    rfl

section Loop
variable {original : Memory} {image : Nat}

/-- From round `i` on, the loop runs to the end of the headers as they are met. -/
theorem placementLoop_run (narrow : image < 2 ^ 64) (fuel i : Nat) (ram : Ram)
    (reached : ram.mem = met original image i)
    (running : ∀ j < i, j < Ehdr.phnum.get (met original image j) image)
    (enough : 65536 ≤ fuel + i) :
    ∃ left, placementLoop image (Ehdr.phoff.get original image) fuel i ram =
        ((), ⟨met original image (i + left),
          imageField 0 Ehdr.phnum :: (roundsLog original image i left ++ ram.accesses)⟩) ∧
      Rounds original image (i + left) := by
  have base : u64 (image + 0) = image := Nat.mod_eq_of_lt narrow
  have small (j : Nat) : Ehdr.phnum.get (met original image j) image < 65536 := load_lt _ _ 2
  induction fuel generalizing i ram with
  | zero =>
      -- more rounds than a 16-bit count allows
      have last := running (i - 1) (by omega)
      have bound := small (i - 1)
      omega
  | succ fuel ih =>
      rw [placementLoop_succ, base, reached]
      by_cases more : i < Ehdr.phnum.get (met original image i) image
      · have started : ∀ j < i + 1, j < Ehdr.phnum.get (met original image j) image := by
          intro j early
          by_cases here : j = i
          · exact here ▸ more
          · exact running j (by omega)
        obtain ⟨left, runs, rounds⟩ := ih (i + 1) ⟨met original image (i + 1),
          roundLog (met original image i) image (phdrOffset (Ehdr.phoff.get original image) i) ++
            ram.accesses⟩ rfl started (by omega)
        have next : i + 1 + left = i + (left + 1) := by omega
        refine ⟨left + 1, ?_, next ▸ rounds⟩
        rw [if_pos more, roundsLog, ← next, List.append_assoc, ← runs]
        rfl
      · rw [if_neg more]
        exact ⟨0, rfl, running, Nat.le_of_not_lt more⟩

/-- A count that the rounds leave alone is the number of rounds. -/
theorem Rounds.count_eq {count : Nat} (rounds : Rounds original image count)
    (kept : ∀ i ≤ Ehdr.phnum.get original image,
      Ehdr.phnum.get (met original image i) image = Ehdr.phnum.get original image) :
    count = Ehdr.phnum.get original image := by
  rcases Nat.lt_trichotomy count (Ehdr.phnum.get original image) with short | same | long
  · have stopped := rounds.stopped
    rw [kept count (Nat.le_of_lt short)] at stopped
    omega
  · exact same
  · have running := rounds.running _ long
    rw [kept _ (Nat.le_refl _)] at running
    omega

/-- The whole function: its result, the memory it leaves, and its accesses. -/
theorem wbootGetKernelEntry_apply (original : Memory) (narrow : image < 2 ^ 64)
    (accesses : List Access) :
    ∃ count, wbootGetKernelEntry image ⟨original, accesses⟩ =
        (Ehdr.entry.get (met original image count) image,
          ⟨met original image count, placementLog original image count ++ accesses⟩) ∧
      Rounds original image count := by
  have base : u64 (image + 0) = image := Nat.mod_eq_of_lt narrow
  obtain ⟨count, runs, rounds⟩ := placementLoop_run narrow 65536 0
    ⟨original, imageField 0 Ehdr.phoff :: accesses⟩ rfl (by simp) (Nat.le_refl _)
  rw [Nat.zero_add] at runs rounds
  refine ⟨count, ?_, rounds⟩
  simp only [wbootGetKernelEntry, bind_apply, readImage_apply, base, runs, placementLog]
  simp

/-- Its reads of the image. -/
theorem wbootGetKernelEntry_run (original : Memory) (narrow : image < 2 ^ 64) (size : Nat)
    (accesses : List Access) :
    ∃ log count, wbootGetKernelEntry image ⟨original, accesses⟩ =
        (Ehdr.entry.get (met original image count) image,
          ⟨met original image count, log ++ accesses⟩) ∧
      Rounds original image count ∧
      ((∀ access ∈ log, WithinImage size access) ↔ 58 ≤ size ∧ ∀ i < count,
        HeaderFits (met original image i) image (phdrOffset (Ehdr.phoff.get original image) i) size) := by
  obtain ⟨count, runs, rounds⟩ := wbootGetKernelEntry_apply original narrow accesses
  refine ⟨placementLog original image count, count, runs, rounds, ?_⟩
  have phnum : WithinImage size (imageField 0 Ehdr.phnum) ↔ 58 ≤ size :=
    withinImage_field size 0 Ehdr.phnum (by decide)
  simp only [placementLog_all, roundLog_within, withinImage_field _ _ Ehdr.entry (by decide),
    withinImage_field _ _ Ehdr.phoff (by decide), phnum]
  constructor
  · rintro ⟨⟨-, header, -⟩, all⟩
    exact ⟨header, fun i bound => (all i bound).2⟩
  · rintro ⟨header, all⟩
    have early : 0 + Ehdr.entry.offset + Ehdr.entry.width ≤ size ∧
        0 + Ehdr.phoff.offset + Ehdr.phoff.width ≤ size := by
      simp only [Ehdr.entry, Ehdr.phoff]
      omega
    exact ⟨⟨early.1, header, early.2⟩, fun i bound => ⟨header, all i bound⟩⟩

end Loop

end Wboot.ElfPlacement
