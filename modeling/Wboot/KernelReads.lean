import Wboot.KernelImage
import Wboot.PlacementOverlap

/-! Which bytes of the payload and of the unpacked image `wboot_decompress_kernel`
and `wboot_get_kernel_entry` read. The image's size is known to the first and not
to the second, and both take the sizes in the file at their word. -/

namespace Wboot.KernelReads
open StateProgram ByteMemory CString Machine LinuxBoot Wstdlib Effects KernelImage ElfPlacement SegmentCopy

/-! ### The headers of the image -/

/-- Every round reads inside the image, each header as it is met. -/
def HeadersMetFit (memory : Memory) (image size : Nat) : Prop :=
  58 ≤ size ∧ ∀ i, (∀ j ≤ i, j < Ehdr.phnum.get (met memory image j) image) →
    HeaderFits (met memory image i) image (phdrOffset (Ehdr.phoff.get memory image) i) size

/-- The same of the headers as they stand before the first round. -/
def HeadersFit (memory : Memory) (image size : Nat) : Prop :=
  58 ≤ size ∧ ∀ i < Ehdr.phnum.get memory image,
    HeaderFits memory image (phdrOffset (Ehdr.phoff.get memory image) i) size

/-- The bytes a segment writes: its copy unless it is in place, and what it clears. -/
def writes (segment : Segment) (x : Nat) : Prop :=
  (segment.dest ≠ segment.src ∧ segment.dest ≤ x ∧ x < segment.dest + segment.fileSize) ∨
    (u64 (segment.dest + segment.fileSize) ≤ x ∧
      x < u64 (segment.dest + segment.fileSize) + (segment.memSize - segment.fileSize))

def Spares (segment : Segment) (address count : Nat) : Prop :=
  ∀ x, address ≤ x → x < address + count → ¬ writes segment x

section Headers
variable {memory : Memory} {image : Nat}

theorem moved_spared (memory : Memory) (segment : Segment) (x : Nat)
    (spared : ¬ (segment.dest ≠ segment.src ∧ segment.dest ≤ x ∧ x < segment.dest + segment.fileSize)) :
    moved memory segment.dest segment.src segment.fileSize x = memory x := by
  simp only [moved]
  by_cases inside : segment.dest ≤ x ∧ x < segment.dest + segment.fileSize
  · have same : segment.dest = segment.src := by
      by_contra different
      exact spared ⟨different, inside⟩
    have source : segment.src + (x - segment.dest) = x := by omega
    rw [if_pos inside, source]
  · rw [if_neg inside]

/-- A copy that leaves its own sizes alone is followed by the clearing that was stored. -/
theorem copied_sizes {header : Nat}
    (own : Spares (segmentAt memory image header).copied (header + 32) 16) :
    let segment := segmentAt memory image header
    let again := segmentAt (moved memory segment.dest segment.src segment.fileSize) image header
    again.fileSize = segment.fileSize ∧ again.memSize = segment.memSize := by
  have sizes : SameOn (moved memory (segmentAt memory image header).dest (segmentAt memory image header).src
      (segmentAt memory image header).fileSize) memory (header + 32) 16 := fun y lower upper =>
    moved_spared memory _ y fun copied => own y lower upper (Or.inl copied)
  have again (part : Field) (inside : 32 ≤ part.offset ∧ part.offset + part.width ≤ 48) :
      part.get (moved memory (segmentAt memory image header).dest (segmentAt memory image header).src
        (segmentAt memory image header).fileSize) header = part.get memory header :=
    part.get_congr fun y lower upper => sizes y (by omega) (by omega)
  exact ⟨again Phdr.filesz (by decide), again Phdr.memsz (by decide)⟩

/-- A body that leaves its own sizes alone writes what its segment writes. -/
theorem loadedMemory_spared {header x : Nat}
    (own : Spares (segmentAt memory image header).copied (header + 32) 16)
    (spared : ¬ writes (segmentAt memory image header) x) :
    loadedMemory memory image header x = memory x := by
  obtain ⟨filesz, memsz⟩ := copied_sizes own
  have uncleared := fun here => spared (Or.inr here)
  rw [loadedMemory, filesz, memsz, setLoop_apply, if_neg uncleared]
  exact moved_spared memory _ x fun here => spared (Or.inl here)

/-- What no segment of the headers so far writes is as it was. -/
theorem met_spared (left : HeadersLeft Spares memory image) (i : Nat)
    (bound : i ≤ Ehdr.phnum.get memory image) (x : Nat)
    (spared : ∀ segment ∈ loadSegments memory image i, ¬ writes segment x) :
    met memory image i x = memory x := by
  induction i generalizing x with
  | zero => rfl
  | succ i ih =>
      have kept (address count : Nat)
          (spares : ∀ segment ∈ loadSegments memory image i, Spares segment address count) :
          SameOn (met memory image i) memory address count := fun y lower upper =>
        ih (by omega) y fun segment member => spares segment member y lower upper
      have type : Phdr.type.get (met memory image i) (headerAt memory image i) =
          Phdr.type.get memory (headerAt memory image i) :=
        Phdr.type.get_congr (kept _ _ (left.type i bound))
      have early := ih (by omega) x fun segment member => spared segment (by
        rw [loadSegments_succ]
        exact List.mem_append_left _ member)
      simp only [met, type]
      cases load : isLoad memory image i with
      | true =>
          have loads : Phdr.type.get memory (headerAt memory image i) = ptLoad := of_decide_eq_true load
          have segment := segmentAt_congr image (kept _ _ (left.offset i bound load))
            (kept _ _ (left.rest i bound load))
          have here := mem_loadSegments memory (i + 1) i (Nat.lt_succ_self i) load
          rw [if_pos loads, loadedMemory_spared, early]
          · rw [segment]
            exact left.own i bound load
          · rw [segment]
            exact spared _ here
      | false =>
          have skips : Phdr.type.get memory (headerAt memory image i) ≠ ptLoad := of_decide_eq_false load
          rw [if_neg skips, early]

theorem met_phnum (left : HeadersLeft Spares memory image) (i : Nat)
    (bound : i ≤ Ehdr.phnum.get memory image) :
    Ehdr.phnum.get (met memory image i) image = Ehdr.phnum.get memory image :=
  Ehdr.phnum.get_congr fun y lower upper => met_spared left i bound y fun segment member =>
    left.phnum segment ((loadSegments_initial memory image bound).subset member) y lower upper

theorem met_type (left : HeadersLeft Spares memory image) (i : Nat)
    (bound : i < Ehdr.phnum.get memory image) :
    Phdr.type.get (met memory image i) (headerAt memory image i) =
      Phdr.type.get memory (headerAt memory image i) :=
  Phdr.type.get_congr fun y lower upper => met_spared left i (Nat.le_of_lt bound) y fun segment member =>
    left.type i bound segment member y lower upper

/-- The header of a PT_LOAD segment is met as it stands. -/
theorem met_segment (left : HeadersLeft Spares memory image) (i : Nat)
    (bound : i < Ehdr.phnum.get memory image) (load : isLoad memory image i = true) :
    SameOn (met memory image i) memory (headerAt memory image i + 8) 8 ∧
      segmentAt (met memory image i) image (headerAt memory image i) =
        segmentAt memory image (headerAt memory image i) := by
  have kept (address count : Nat)
      (spares : ∀ segment ∈ loadSegments memory image i, Spares segment address count) :
      SameOn (met memory image i) memory address count := fun y lower upper =>
    met_spared left i (Nat.le_of_lt bound) y fun segment member => spares segment member y lower upper
  have low := kept _ _ (left.offset i bound load)
  exact ⟨low, segmentAt_congr image low (kept _ _ (left.rest i bound load))⟩

/-- Headers that no segment writes over are met as they stand. -/
theorem headersMetFit_iff (left : HeadersLeft Spares memory image) (size : Nat) :
    HeadersMetFit memory image size ↔ HeadersFit memory image size := by
  have fits (i : Nat) (bound : i < Ehdr.phnum.get memory image) :
      HeaderFits (met memory image i) image (phdrOffset (Ehdr.phoff.get memory image) i) size ↔
        HeaderFits memory image (phdrOffset (Ehdr.phoff.get memory image) i) size := by
    have type := met_type left i bound
    simp only [headerAt] at type
    simp only [HeaderFits, type]
    by_cases loads : Phdr.type.get memory (u64 (image +
        phdrOffset (Ehdr.phoff.get memory image) i)) = ptLoad
    · have load : isLoad memory image i = true := decide_eq_true loads
      obtain ⟨low, segment⟩ := met_segment left i bound load
      have offset : Phdr.offset.get (met memory image i) (headerAt memory image i) =
          Phdr.offset.get memory (headerAt memory image i) := Phdr.offset.get_congr low
      simp only [headerAt] at segment offset
      simp only [BodyFits, segment, offset]
    · simp only [loads, false_implies, and_true]
  constructor
  · rintro ⟨header, all⟩
    refine ⟨header, fun i bound => (fits i bound).mp (all i fun j early => ?_)⟩
    rw [met_phnum left j (by omega)]
    omega
  · rintro ⟨header, all⟩
    refine ⟨header, fun i running => ?_⟩
    have bound : i < Ehdr.phnum.get memory image := by
      -- a count that stays cannot let a round beyond it start
      by_contra beyond
      have last := running (Ehdr.phnum.get memory image) (by omega)
      rw [met_phnum left _ (Nat.le_refl _)] at last
      omega
    exact (fits i bound).mpr (all i bound)

end Headers

/-! ### The kernel file -/

/-- libzstd stays within the buffers it is given: a frame ends inside its source,
and what is decompressed is as long as reported and fits the capacity. -/
structure ZstdSound (zstd : Zstd) : Prop where
  frame : ∀ bytes, zstd.isError (zstd.findFrameCompressedSize bytes) = false →
    zstd.findFrameCompressedSize bytes ≤ bytes.length
  size : ∀ history capacity bytes,
    zstd.isError (zstd.decompressDCtx history capacity bytes).1 = false →
      (zstd.decompressDCtx history capacity bytes).2.length =
          (zstd.decompressDCtx history capacity bytes).1 ∧
        (zstd.decompressDCtx history capacity bytes).1 ≤ capacity

/-- The first four bytes as a number. -/
def firstWord (bytes : List UInt8) : Nat := load (fun x => bytes.getD x 0) 0 4

/-- A payload that was read in full, where it was put, and the calls so far. -/
structure Payload where
  pointer : Nat
  bytes : List UInt8
  history : History

/-- What zstd made of it: where it was put, its reported size and its bytes. -/
structure Unpacked where
  pointer : Nat
  size : Nat
  bytes : List UInt8
  deriving DecidableEq

section File
variable (fw : Firmware) (zstd : Zstd) (header : SetupHeader) (file : Nat)

/-- The payload as far as the firmware delivers it. -/
def payloadOf (history : History) : Option Payload :=
  let size := header.get Hdr.payloadLength
  let pool := fw.allocatePool history size
  let requested := .allocatePool size pool.1 pool.2 :: history
  let status := fw.fileSetPosition requested file (payloadStart header)
  let positioned := .fileSetPosition file (payloadStart header) status :: requested
  let reply := fw.fileRead positioned file size
  if efiError pool.1 ∨ pool.2 = 0 ∨ efiError status ∨ efiError reply.1 ∨
      (reply.2.take size).length ≠ size then none
  else some ⟨pool.2, reply.2.take size,
    .fileRead file size reply.1 (reply.2.take size).length :: positioned⟩

/-- The pages for the image and the calls made for them. -/
def imagePages (history : History) : (EfiStatus × Nat) × History :=
  let ask (kind : AllocateType) (history : History) : (EfiStatus × Nat) × History :=
    let reply := fw.allocatePages history kind (kernelPages header) (header.get Hdr.prefAddress)
    (reply, .allocatePages kind (kernelPages header) (header.get Hdr.prefAddress) reply.1 reply.2 ::
      history)
  if header.get Hdr.prefAddress = 0 then ask .anyPages history
  else if efiError (ask .address history).1.1 then ask .anyPages (ask .address history).2
  else ask .address history

/-- A decompression context is there or can be made. -/
def contextReady (world : World) : Prop := world.dctx ≠ 0 ∨ zstd.createDCtx world.history ≠ 0

instance (world : World) : Decidable (contextReady zstd world) :=
  inferInstanceAs (Decidable (_ ∨ _))

/-- The image zstd produced from a payload, if it got that far and succeeded. -/
def unpackedOf (payload : Payload) : Option Unpacked :=
  let frame := zstd.findFrameCompressedSize payload.bytes
  let pages := imagePages fw header payload.history
  let result := zstd.decompressDCtx pages.2 (header.get Hdr.initSize) (payload.bytes.take frame)
  if payload.bytes.length < 4 ∨ firstWord payload.bytes ≠ zstdMagic ∨ zstd.isError frame ∨
      efiError pages.1.1 ∨ zstd.isError result.1 then none
  else some ⟨pages.1.2, result.1, result.2⟩

def payloadReached (world : World) : Option Payload :=
  if contextReady zstd world then payloadOf fw header file world.history else none

def imageReached (world : World) : Option Unpacked :=
  (payloadReached fw zstd header file world).bind (unpackedOf fw zstd header)

/-- The decompressed size, once there is one. -/
def imageSize (world : World) : Nat :=
  match imageReached fw zstd header file world with
  | some image => image.size
  | none => 0

end File

/-- Reads of the payload and of the image stay below the two sizes. -/
def WithinBuffers (payloadLength size : Nat) : Access → Prop
  | .payload offset count => offset + count ≤ payloadLength
  | .image offset count => count = 0 ∨ offset + count ≤ size
  | _ => True

section Unpacking
variable {fw : Firmware} {zstd : Zstd} {header : SetupHeader} {file : Nat}
variable {before after : World} {payloadLength size : Nat}

theorem buffers_absorb : Absorbs fw (Logs (WithinBuffers payloadLength size)) :=
  logs_absorbs fw (fun _ => trivial) fun _ => trivial

theorem readPayload_logs : Relates (Logs (WithinBuffers payloadLength size))
    (readPayload fw header file) := by
  have absorbs : Absorbs fw (Logs (WithinBuffers payloadLength size)) := buffers_absorb
  unfold readPayload
  refine (absorbs.malloc _).bind fun compressed => .ite (fun _ => ?_) fun _ => ?_
  · exact (Relates.read _).bind fun errno => (absorbs.perror _ _).bind fun _ => .pure _
  · refine (service_logs _ _).bind fun status => .ite (fun _ => ?_) fun _ => ?_
    · exact (absorbs.perror _ _).bind fun _ => (absorbs.free _).bind fun _ => .pure _
    · refine Relates.bind (Relates.bind (service_logs _ _) fun _ => (deliver_logs _ _).bind fun _ =>
        .pure _) fun reply => ?_
      refine .ite (fun _ => ?_) fun _ => .ite (fun _ => ?_) fun _ => .pure _
      · exact (absorbs.perror _ _).bind fun _ => (absorbs.free _).bind fun _ => .pure _
      · exact (absorbs.printf _ _).bind fun _ => (absorbs.free _).bind fun _ => .pure _

theorem readPayload_run {outcome : Except EfiStatus Nat} (early : before.bsExited = false)
    (run : readPayload fw header file before = (outcome, after)) :
    (payloadOf fw header file before.history = none ∧
      ∃ status, outcome = .error status ∧ efiError status = true) ∨
    ∃ payload, payloadOf fw header file before.history = some payload ∧
      payload.bytes.length = header.get Hdr.payloadLength ∧ outcome = .ok payload.pointer ∧
      after = { before with
        mem := storeBytes before.mem payload.pointer payload.bytes, history := payload.history } := by
  unfold readPayload at run
  rw [run_bind] at run
  obtain ⟨compressed, allocated, malloced, run⟩ := run
  rw [malloc_apply fw _ _ early] at malloced
  simp only [payloadOf]
  -- the five ways to fail are those of `payloadOf`, tested in the same order
  by_cases refused : efiError (fw.allocatePool before.history (header.get Hdr.payloadLength)).1
  · rw [if_pos refused] at malloced
    cases malloced
    rw [if_pos rfl] at run
    exact Or.inl ⟨if_pos (Or.inl refused), _, (congrArg Prod.fst run).symm, rfl⟩
  rw [if_neg refused] at malloced
  cases malloced
  rw [run_ite] at run
  rcases run with ⟨null, run⟩ | ⟨present, run⟩
  · exact Or.inl ⟨if_pos (Or.inr (Or.inl null)), _, (congrArg Prod.fst run).symm, rfl⟩
  rw [run_bind] at run
  obtain ⟨status, positioned, sought, run⟩ := run
  cases sought
  rw [run_ite] at run
  rcases run with ⟨failed, run⟩ | ⟨found, run⟩
  · exact Or.inl ⟨if_pos (Or.inr (Or.inr (Or.inl failed))), _, (congrArg Prod.fst run).symm, failed⟩
  rw [run_bind] at run
  obtain ⟨reply, delivered, reading, run⟩ := run
  cases reading
  rw [run_ite] at run
  rcases run with ⟨failed, run⟩ | ⟨done, run⟩
  · exact Or.inl ⟨if_pos (Or.inr (Or.inr (Or.inr (Or.inl failed)))), _, (congrArg Prod.fst run).symm, failed⟩
  rw [run_ite] at run
  rcases run with ⟨short, run⟩ | ⟨whole, run⟩
  · exact Or.inl ⟨if_pos (Or.inr (Or.inr (Or.inr (Or.inr short)))), _, (congrArg Prod.fst run).symm, rfl⟩
  cases run
  refine Or.inr ⟨_, if_neg ?_, Decidable.not_not.mp whole, rfl, rfl⟩
  rintro (pool | null | position | answer | short)
  · exact refused pool
  · exact present null
  · exact found position
  · exact done answer
  · exact whole short

/-- The two magic tests: a buffer of four bytes or more is read inside, a shorter
one is read by its error message. -/
theorem magic_run {allowed : Access → Prop} {magic p : Nat} {access : Access} {word : Prog Ram Nat}
    {refuse : Nat → Boot (Except EfiStatus Nat)} {rest : Boot (Except EfiStatus Nat)}
    {outcome : Except EfiStatus Nat}
    (reads : ∀ ram, word ram = (load ram.mem p 4, ⟨ram.mem, access :: ram.accesses⟩))
    (bounded : allowed access ↔ 4 ≤ size) (refuses : ∀ w, Relates (Logs allowed) (refuse w))
    (rests : Relates (Logs allowed) rest)
    (run : (do
      let lacking ← lacksMagic size magic word
      if lacking then do
        let w ← inRam word
        refuse w
      else rest) before = (outcome, after)) :
    (Logs allowed before after ↔ 4 ≤ size) ∧
      (((size < 4 ∨ load before.mem p 4 ≠ magic) ∧ ∃ w middle, refuse w middle = (outcome, after)) ∨
        (4 ≤ size ∧ load before.mem p 4 = magic ∧
          rest { before with accesses := access :: before.accesses } = (outcome, after))) := by
  have word_apply (world : World) : inRam word world =
      (load world.mem p 4, { world with accesses := access :: world.accesses }) := by
    rw [inRam_apply, reads]
  have one (world : World) : Logs (fun _ => True) world { world with accesses := access :: world.accesses } :=
    ⟨[access], rfl, fun _ _ => trivial⟩
  -- the access is allowed exactly when four bytes are there
  have judged (world : World) :
      Logs allowed world { world with accesses := access :: world.accesses } ↔ 4 ≤ size :=
    (@logs_iff allowed world _ [access] rfl).trans (List.forall_mem_singleton.trans bounded)
  rw [run_bind] at run
  obtain ⟨lacking, tested, test, run⟩ := run
  -- a short buffer is refused without the test, but the message reads the word
  by_cases short : size < 4
  · rw [lacksMagic, if_pos short] at test
    cases test
    rw [if_pos rfl, run_bind] at run
    obtain ⟨w, printed, read, run⟩ := run
    rw [word_apply] at read
    cases read
    have later := (refuses _).run run
    refine ⟨?_, Or.inl ⟨Or.inl short, _, _, run⟩⟩
    rw [Logs.split (one before) later.any, judged]
    exact ⟨And.left, fun long => ⟨long, later⟩⟩
  · rw [lacksMagic, if_neg short, run_bind] at test
    obtain ⟨found, looked, read, decided⟩ := test
    rw [word_apply] at read
    cases read
    cases decided
    have first := (judged before).mpr (by omega)
    -- a wrong magic is read a second time for the message
    by_cases other : load before.mem p 4 ≠ magic
    · rw [if_pos (decide_eq_true other), run_bind] at run
      obtain ⟨w, printed, read, run⟩ := run
      rw [word_apply] at read
      cases read
      have again := (judged { before with accesses := access :: before.accesses }).mpr (by omega)
      have later := (refuses _).run run
      refine ⟨⟨fun _ => by omega, fun _ => ?_⟩, Or.inl ⟨Or.inr other, _, _, run⟩⟩
      exact IsTrans.trans _ _ _ first (IsTrans.trans _ _ _ again later)
    · rw [if_neg (by simpa using other)] at run
      refine ⟨⟨fun _ => by omega, fun _ => ?_⟩, Or.inr ⟨by omega, Decidable.not_not.mp other, run⟩⟩
      exact IsTrans.trans _ _ _ first (rests.run run)

/-- With the payload in its buffer, its magic is read inside it exactly when it
has four bytes, and the frame follows from the payload alone. -/
theorem payloadFrame_run {outcome : Except EfiStatus Nat} {compressed : Nat} {bytes : List UInt8}
    (here : TextAt before.mem compressed bytes)
    (whole : bytes.length = header.get Hdr.payloadLength)
    (run : payloadFrame fw zstd header compressed before = (outcome, after)) :
    (Logs (WithinBuffers bytes.length size) before after ↔ 4 ≤ bytes.length) ∧
      ((outcome = .error efiInvalidParameter ∧ (bytes.length < 4 ∨ firstWord bytes ≠ zstdMagic ∨
          zstd.isError (zstd.findFrameCompressedSize bytes) = true)) ∨
        (outcome = .ok (zstd.findFrameCompressedSize bytes) ∧ 4 ≤ bytes.length ∧
          firstWord bytes = zstdMagic ∧ zstd.isError (zstd.findFrameCompressedSize bytes) = false ∧
          after = { before with accesses := .payload 0 4 :: before.accesses })) := by
  have absorbs : Absorbs fw (Logs (WithinBuffers bytes.length size)) := buffers_absorb
  unfold payloadFrame at run
  rw [← whole] at run
  obtain ⟨logs, ending⟩ := @magic_run before after bytes.length (WithinBuffers bytes.length size)
    zstdMagic compressed (.payload 0 4) (payloadWord compressed) _ _ outcome (fun ram => rfl) Iff.rfl
    (fun w => (absorbs.printf _ _).bind fun _ => (absorbs.free _).bind fun _ => .pure _)
    ((Relates.read _).bind fun frame => .ite
      (fun _ => (absorbs.printf _ _).bind fun _ => (absorbs.free _).bind fun _ => .pure _)
      fun _ => .pure _) run
  refine ⟨logs, ?_⟩
  -- the first word is that of the payload, since all of it was stored
  rcases ending with ⟨lacking, w, middle, refused⟩ | ⟨long, magic, run⟩
  · refine Or.inl ⟨(congrArg Prod.fst refused).symm, ?_⟩
    by_cases short : bytes.length < 4
    · exact Or.inl short
    · rw [load_textAt here 4 (by omega)] at lacking
      exact Or.inr (Or.inl (lacking.resolve_left short))
  · rw [load_textAt here 4 long] at magic
    rw [run_bind] at run
    obtain ⟨frame, asked, found, run⟩ := run
    have source := bytesAt_textAt here bytes.length (Nat.le_refl _)
    rw [List.take_length] at source
    rw [readState_apply, source] at found
    cases found
    rw [run_ite] at run
    rcases run with ⟨bad, run⟩ | ⟨good, run⟩
    · exact Or.inl ⟨(congrArg Prod.fst run).symm, Or.inr (Or.inr bad)⟩
    · cases run
      exact Or.inr ⟨rfl, long, magic, by simpa using good, rfl⟩

theorem allocateImage_run {reply : EfiStatus × Nat}
    (run : allocateImage fw header before = (reply, after)) :
    (reply, after.history) = imagePages fw header before.history ∧ after.mem = before.mem ∧
      Logs (WithinBuffers payloadLength size) before after := by
  unfold allocateImage at run
  simp only [imagePages]
  rw [run_ite] at run
  rcases run with ⟨none, run⟩ | ⟨preferred, run⟩
  · cases run
    rw [if_pos none]
    exact ⟨rfl, rfl, [], rfl, by simp⟩
  · rw [if_neg preferred]
    rw [run_bind] at run
    obtain ⟨first, asked, asks, run⟩ := run
    cases asks
    rw [run_ite] at run
    rcases run with ⟨taken, run⟩ | ⟨granted, run⟩
    · rw [if_pos taken, run_bind] at *
      obtain ⟨_, warned, warns, run⟩ := run
      have quiet := (printf_prints fw _ _ (by decide +kernel)).run warns
      cases run
      rw [quiet.history]
      refine ⟨rfl, quiet.mem, ?_⟩
      have logs : Logs (WithinBuffers payloadLength size) _ _ := quiet.logs fun _ => trivial
      exact logs
    · rw [if_neg granted]
      cases run
      exact ⟨rfl, rfl, [], rfl, by simp⟩

/-- What was decompressed is read inside exactly when it has four bytes. -/
theorem unpackImage_run {outcome : Except EfiStatus Nat} {compressed frame image : Nat}
    {bytes : List UInt8} {result : Nat × List UInt8} (sound : ZstdSound zstd)
    (here : TextAt before.mem compressed bytes) (inside : frame ≤ bytes.length)
    (produced : zstd.decompressDCtx before.history (header.get Hdr.initSize) (bytes.take frame) = result)
    (sized : zstd.isError result.1 = false → size = result.1)
    (run : unpackImage fw zstd header compressed frame image before = (outcome, after)) :
    (Logs (WithinBuffers payloadLength size) before after ↔
        (zstd.isError result.1 = false → 4 ≤ result.1)) ∧
      ((outcome = .error efiInvalidParameter ∧
          (zstd.isError result.1 = true ∨ result.1 < 4 ∨ firstWord result.2 ≠ elfMagic)) ∨
        (outcome = .ok result.1 ∧ zstd.isError result.1 = false ∧ 4 ≤ result.1 ∧
          firstWord result.2 = elfMagic)) := by
  have absorbs : Absorbs fw (Logs (WithinBuffers payloadLength size)) := buffers_absorb
  -- the refusals print, unmap and free, none of which reads a buffer
  have refuses (message : List UInt16) (args : List Arg) :
      Relates (Logs (WithinBuffers payloadLength size)) (do
        printf fw message args
        let _ ← freePages fw image (kernelPages header)
        free fw compressed
        return .error efiInvalidParameter : Boot (Except EfiStatus Nat)) :=
    (absorbs.printf _ _).bind fun _ => (service_logs _ _).bind fun _ =>
      (absorbs.free _).bind fun _ => .pure _
  unfold unpackImage at run
  rw [run_bind] at run
  obtain ⟨reported, filled, decompressed, run⟩ := run
  have source := bytesAt_textAt here frame inside
  have unpacked : zstdDecompress zstd image (header.get Hdr.initSize) compressed frame before =
      (result.1, { before with
        mem := storeBytes before.mem image (result.2.take (header.get Hdr.initSize)) }) := by
    simp only [zstdDecompress, bind_apply, readState_apply, inRam_apply, deliver, modifyState_apply,
      pure_apply, source, produced]
  rw [unpacked] at decompressed
  cases decompressed
  have silent : Logs (WithinBuffers payloadLength size) before { before with
      mem := storeBytes before.mem image (result.2.take (header.get Hdr.initSize)) } :=
    ⟨[], rfl, by simp⟩
  rw [run_ite] at run
  rcases run with ⟨bad, run⟩ | ⟨good, run⟩
  · refine ⟨⟨fun _ fine => absurd bad (by simp [fine]), fun _ => ?_⟩,
      Or.inl ⟨(congrArg Prod.fst run).symm, Or.inl bad⟩⟩
    exact IsTrans.trans _ _ _ silent ((refuses _ _).run run)
  have fine : zstd.isError result.1 = false := by simpa using good
  -- a decompressor that reports a size has written that many bytes into the room it was given
  have fits : result.2.length = result.1 ∧ result.1 ≤ header.get Hdr.initSize := by
    have contract := sound.size before.history (header.get Hdr.initSize) (bytes.take frame)
    rw [produced] at contract
    exact contract fine
  have whole : result.2.take (header.get Hdr.initSize) = result.2 := List.take_of_length_le (by omega)
  rw [whole] at run
  have stored := textAt_storeBytes before.mem image result.2
  obtain ⟨logs, ending⟩ := @magic_run _ after result.1 (WithinBuffers payloadLength size)
    elfMagic image (.image 0 4) (imageWord image) _ _ outcome (fun ram => rfl)
    (by simp [WithinBuffers, sized fine]) (fun w => refuses _ _) (.pure _) run
  refine ⟨⟨fun held _ => logs.mp held, fun long => logs.mpr (long fine)⟩, ?_⟩
  rcases ending with ⟨lacking, w, middle, refused⟩ | ⟨long, magic, run⟩
  · refine Or.inl ⟨(congrArg Prod.fst refused).symm, Or.inr ?_⟩
    by_cases short : result.1 < 4
    · exact Or.inl short
    · rw [load_textAt stored 4 (by omega)] at lacking
      exact Or.inr (lacking.resolve_left short)
  · rw [load_textAt stored 4 (by omega)] at magic
    cases run
    exact Or.inr ⟨rfl, fine, long, magic⟩

theorem readyContext_run {ready : Bool} (run : readyContext zstd before = (ready, after)) :
    (ready = true ↔ contextReady zstd before) ∧ after.history = before.history ∧
      after.bsExited = before.bsExited ∧ after.mem = before.mem ∧ after.accesses = before.accesses := by
  unfold readyContext at run
  rw [run_bind] at run
  obtain ⟨dctx, _, seen, run⟩ := run
  cases seen
  rw [run_ite] at run
  rcases run with ⟨present, run⟩ | ⟨absent, run⟩
  · cases run
    exact ⟨⟨fun _ => Or.inl present, fun _ => rfl⟩, rfl, rfl, rfl, rfl⟩
  · cases run
    have missing : before.dctx = 0 := by simpa using absent
    refine ⟨?_, rfl, rfl, rfl, rfl⟩
    simp only [decide_eq_true_eq, contextReady, missing, ne_eq, not_true_eq_false, false_or]
    exact Iff.rfl

theorem payloadFrame_grows (compressed : Nat) :
    Relates (Logs fun _ => True) (payloadFrame fw zstd header compressed) := by
  have absorbs : Absorbs fw (Logs fun _ => True) := logs_absorbs fw (fun _ => trivial) fun _ => trivial
  have word : Relates (Logs fun _ => True) (inRam (payloadWord compressed)) :=
    fun _ => ⟨[.payload 0 4], rfl, fun _ _ => trivial⟩
  unfold payloadFrame lacksMagic
  refine Relates.bind (.ite (fun _ => .pure _) fun _ => word.bind fun _ => .pure _) fun lacking => ?_
  refine .ite (fun _ => word.bind fun _ => ?_) fun _ => (Relates.read _).bind fun frame => ?_
  · exact (absorbs.printf _ _).bind fun _ => (absorbs.free _).bind fun _ => .pure _
  · refine .ite (fun _ => ?_) fun _ => .pure _
    exact (absorbs.printf _ _).bind fun _ => (absorbs.free _).bind fun _ => .pure _

theorem unpackImage_grows (compressed frame image : Nat) :
    Relates (Logs fun _ => True) (unpackImage fw zstd header compressed frame image) := by
  have absorbs : Absorbs fw (Logs fun _ => True) := logs_absorbs fw (fun _ => trivial) fun _ => trivial
  have word : Relates (Logs fun _ => True) (inRam (imageWord image)) :=
    fun _ => ⟨[.image 0 4], rfl, fun _ _ => trivial⟩
  have refuses (message : List UInt16) (args : List Arg) : Relates (Logs fun _ => True) (do
      printf fw message args
      let _ ← freePages fw image (kernelPages header)
      free fw compressed
      return .error efiInvalidParameter : Boot (Except EfiStatus Nat)) :=
    (absorbs.printf _ _).bind fun _ => (service_logs _ _).bind fun _ =>
      (absorbs.free _).bind fun _ => .pure _
  unfold unpackImage zstdDecompress lacksMagic
  refine Relates.bind ((Relates.read _).bind fun _ => (deliver_logs _ _).bind fun _ => .pure _) fun size => ?_
  refine .ite (fun _ => refuses _ _) fun _ => ?_
  refine Relates.bind (.ite (fun _ => .pure _) fun _ => word.bind fun _ => .pure _) fun lacking => ?_
  exact .ite (fun _ => word.bind fun _ => refuses _ _) fun _ => .pure _

/-! ### The ways out of `wboot_decompress_kernel` -/

/-- A run that has the payload in its buffer. -/
structure Delivering (fw : Firmware) (zstd : Zstd) (header : SetupHeader) (file : Nat) (before : World) where
  payload : Payload
  prepared : World
  delivered : World
  prepares : readyContext zstd before = (true, prepared)
  reads : readPayload fw header file prepared = (.ok payload.pointer, delivered)
  reached : payloadReached fw zstd header file before = some payload
  whole : payload.bytes.length = header.get Hdr.payloadLength
  stored : TextAt delivered.mem payload.pointer payload.bytes
  called : delivered.history = payload.history

/-- A run that has found a frame in the payload and asked for the pages of the image. -/
structure Placing (fw : Firmware) (zstd : Zstd) (header : SetupHeader) (file : Nat) (before : World) extends
    Delivering fw zstd header file before where
  tested : World
  reply : EfiStatus × Nat
  allocated : World
  frames : payloadFrame fw zstd header payload.pointer delivered =
    (.ok (zstd.findFrameCompressedSize payload.bytes), tested)
  long : 4 ≤ payload.bytes.length
  magic : firstWord payload.bytes = zstdMagic
  good : zstd.isError (zstd.findFrameCompressedSize payload.bytes) = false
  allocates : allocateImage fw header tested = (reply, allocated)
  asked : imagePages fw header payload.history = (reply, allocated.history)
  held : TextAt allocated.mem payload.pointer payload.bytes

inductive KernelCourse (fw : Firmware) (zstd : Zstd) (header : SetupHeader) (file : Nat) (out : KernelBuffer)
    (before : World) : EfiStatus × KernelBuffer → World → Prop
  | unready {prepared after : World} {format : List UInt16} {args : List Arg}
      (prepares : readyContext zstd before = (false, prepared))
      (missing : payloadReached fw zstd header file before = none)
      (tells : printf fw format args prepared = ((), after)) :
      KernelCourse fw zstd header file out before (efiOutOfResources, out) after
  | unread {prepared after : World} {status : EfiStatus} (prepares : readyContext zstd before = (true, prepared))
      (reads : readPayload fw header file prepared = (.error status, after)) (bad : efiError status = true)
      (missing : payloadReached fw zstd header file before = none) :
      KernelCourse fw zstd header file out before (status, out) after
  | unframed (steps : Delivering fw zstd header file before) {after : World}
      (frames : payloadFrame fw zstd header steps.payload.pointer steps.delivered =
        (.error efiInvalidParameter, after))
      (refused : steps.payload.bytes.length < 4 ∨ firstWord steps.payload.bytes ≠ zstdMagic ∨
        zstd.isError (zstd.findFrameCompressedSize steps.payload.bytes) = true) :
      KernelCourse fw zstd header file out before (efiInvalidParameter, out) after
  | unplaced (steps : Placing fw zstd header file before) {told after : World} {format : List UInt16}
      {args : List Arg} (refused : efiError steps.reply.1 = true)
      (tells : printf fw format args steps.allocated = ((), told))
      (frees : free fw steps.payload.pointer told = ((), after)) :
      KernelCourse fw zstd header file out before (steps.reply.1, out) after
  | unpacked (steps : Placing fw zstd header file before) {after : World} {status : EfiStatus}
      (granted : efiError steps.reply.1 = false)
      (unpacks : unpackImage fw zstd header steps.payload.pointer
        (zstd.findFrameCompressedSize steps.payload.bytes) steps.reply.2 steps.allocated = (.error status, after)) :
      KernelCourse fw zstd header file out before (status, out) after
  | placed (steps : Placing fw zstd header file before) {size : Nat} {unpacked after : World}
      (granted : efiError steps.reply.1 = false)
      (unpacks : unpackImage fw zstd header steps.payload.pointer
        (zstd.findFrameCompressedSize steps.payload.bytes) steps.reply.2 steps.allocated = (.ok size, unpacked))
      (frees : free fw steps.payload.pointer unpacked = ((), after)) :
      KernelCourse fw zstd header file out before (efiSuccess, ⟨steps.reply.2, size⟩) after

theorem wbootDecompressKernel_course {out : KernelBuffer} {outcome : EfiStatus × KernelBuffer}
    (early : before.bsExited = false)
    (run : wbootDecompressKernel fw zstd header file out before = (outcome, after)) :
    KernelCourse fw zstd header file out before outcome after := by
  unfold wbootDecompressKernel at run
  rw [run_bind] at run
  obtain ⟨ready, prepared, prepares, run⟩ := run
  obtain ⟨known, history, exited, -, -⟩ := readyContext_run prepares
  rw [run_ite] at run
  rcases run with ⟨unready, run⟩ | ⟨able, run⟩
  · have never : ready = false := by simpa using unready
    subst never
    rw [run_bind] at run
    obtain ⟨_, told, tells, run⟩ := run
    cases run
    exact .unready prepares (if_neg fun there => unready (known.mpr there)) tells
  have always : ready = true := by simpa using able
  subst always
  -- the context is at hand, so the payload is what the reads deliver
  have there : payloadReached fw zstd header file before = payloadOf fw header file prepared.history := by
    rw [history]
    exact if_pos (known.mp rfl)
  rw [run_bind] at run
  obtain ⟨read, delivered, reads, run⟩ := run
  rcases readPayload_run (exited.trans early) reads with
    ⟨missing, status, rfl, bad⟩ | ⟨payload, found, whole, rfl, filled⟩
  · cases run
    exact .unread prepares reads bad (there.trans missing)
  have stored : TextAt delivered.mem payload.pointer payload.bytes := by
    rw [filled]
    exact textAt_storeBytes _ _ _
  have called : delivered.history = payload.history := by rw [filled]
  let steps : Delivering fw zstd header file before :=
    { payload, prepared, delivered, prepares, reads, whole, stored, called
      reached := there.trans found }
  dsimp only at run
  rw [run_bind] at run
  obtain ⟨framed, tested, frames, run⟩ := run
  obtain ⟨-, ending⟩ := @payloadFrame_run fw zstd header delivered tested 0 framed _ _ stored whole frames
  -- the payload is kept in memory by every step up to the decompression
  rcases ending with ⟨rfl, refused⟩ | ⟨rfl, long, magic, good, logged⟩
  · cases run
    exact .unframed steps frames refused
  dsimp only at run
  rw [run_bind] at run
  obtain ⟨reply, allocated, allocates, run⟩ := run
  obtain ⟨pages, kept, -⟩ := @allocateImage_run fw header tested allocated 0 0 reply allocates
  have asked : imagePages fw header payload.history = (reply, allocated.history) := by
    rw [pages, logged]
    exact congrArg _ called.symm
  have held : TextAt allocated.mem payload.pointer payload.bytes := by
    rw [kept, logged]
    exact stored
  let steps : Placing fw zstd header file before :=
    { steps with tested, reply, allocated, frames, long, magic, good, allocates, asked, held }
  rw [run_ite] at run
  rcases run with ⟨refused, run⟩ | ⟨given, run⟩
  · simp only [run_bind] at run
    obtain ⟨_, told, tells, ⟨⟩, freed, frees, run⟩ := run
    cases run
    exact .unplaced steps refused tells frees
  have granted : efiError reply.1 = false := by simpa using given
  rw [run_bind] at run
  obtain ⟨sized, unpacked, unpacks, run⟩ := run
  cases sized with
  | error status =>
      cases run
      exact .unpacked steps granted unpacks
  | ok size =>
      dsimp only at run
      rw [run_bind] at run
      obtain ⟨⟨⟩, freed, frees, run⟩ := run
      cases run
      exact .placed steps granted unpacks frees

/-- What a run of wboot_decompress_kernel reads and returns, in the terms of the
payload and the image it reached. -/
structure Unpacks (fw : Firmware) (zstd : Zstd) (header : SetupHeader) (file : Nat)
    (before after : World) (outcome : EfiStatus × KernelBuffer) : Prop where
  reads : Logs (WithinBuffers (header.get Hdr.payloadLength) (imageSize fw zstd header file before))
      before after ↔
    (∀ payload, payloadReached fw zstd header file before = some payload →
      4 ≤ header.get Hdr.payloadLength) ∧
    ∀ image, imageReached fw zstd header file before = some image → 4 ≤ image.size
  succeeds : efiError outcome.1 = false ↔
    ∃ image, imageReached fw zstd header file before = some image ∧ 4 ≤ image.size ∧
      firstWord image.bytes = elfMagic
  buffer : efiError outcome.1 = false → ∀ image,
    imageReached fw zstd header file before = some image → outcome.2 = ⟨image.pointer, image.size⟩

/-- A run that fails before there is an image. -/
theorem unpacks_nothing {outcome : EfiStatus × KernelBuffer} (bad : efiError outcome.1 = true)
    (nothing : imageReached fw zstd header file before = none)
    (reads : Logs (WithinBuffers (header.get Hdr.payloadLength) (imageSize fw zstd header file before))
      before after ↔ ∀ payload, payloadReached fw zstd header file before = some payload →
        4 ≤ header.get Hdr.payloadLength) : Unpacks fw zstd header file before after outcome where
  reads := reads.trans ⟨fun held => ⟨held, by simp [nothing]⟩, And.left⟩
  succeeds := by simp [bad, nothing]
  buffer := by simp [bad]

/-- A run that fails on a payload, before there is an image. -/
theorem unpacks_payload {outcome : EfiStatus × KernelBuffer} {payload : Payload} (bad : efiError outcome.1 = true)
    (reached : payloadReached fw zstd header file before = some payload)
    (nothing : imageReached fw zstd header file before = none)
    (reads : Logs (WithinBuffers (header.get Hdr.payloadLength) (imageSize fw zstd header file before))
      before after ↔ 4 ≤ header.get Hdr.payloadLength) : Unpacks fw zstd header file before after outcome := by
  refine unpacks_nothing bad nothing (reads.trans ?_)
  rw [reached]
  exact ⟨fun long _ _ => long, fun all => all payload rfl⟩

/-- A run that has come as far as the decompression. -/
theorem unpacks_image {outcome : EfiStatus × KernelBuffer} {payload : Payload} {pointer : Nat}
    {result : Nat × List UInt8} (reached : payloadReached fw zstd header file before = some payload)
    (made : imageReached fw zstd header file before =
      if zstd.isError result.1 then none else some ⟨pointer, result.1, result.2⟩)
    (total : Logs (WithinBuffers (header.get Hdr.payloadLength) (imageSize fw zstd header file before))
      before after ↔ 4 ≤ header.get Hdr.payloadLength ∧ (zstd.isError result.1 = false → 4 ≤ result.1))
    (status : efiError outcome.1 = false ↔
      zstd.isError result.1 = false ∧ 4 ≤ result.1 ∧ firstWord result.2 = elfMagic)
    (buffer : efiError outcome.1 = false → outcome.2 = ⟨pointer, result.1⟩) :
    Unpacks fw zstd header file before after outcome := by
  cases failed : zstd.isError result.1 with
  | true =>
      rw [if_pos failed] at made
      have bad : efiError outcome.1 = true := by
        simpa [failed] using status
      refine unpacks_payload bad reached made (total.trans ?_)
      simp only [failed, Bool.true_eq_false, false_implies, and_true]
  | false =>
      rw [if_neg (by simp [failed])] at made
      constructor
      case reads =>
        rw [total, reached, made]
        simp only [failed, Option.some.injEq, forall_eq', forall_const]
      case succeeds =>
        rw [status, made]
        simp only [failed, Option.some.injEq, exists_eq_left', true_and]
      case buffer =>
        intro ok image same
        rw [made] at same
        cases same
        exact buffer ok

theorem Delivering.bounded (steps : Delivering fw zstd header file before) :
    Logs (WithinBuffers (header.get Hdr.payloadLength) size) before steps.delivered := by
  obtain ⟨-, -, -, -, accesses⟩ := readyContext_run steps.prepares
  exact IsTrans.trans _ _ _ ⟨[], accesses, by simp⟩ (readPayload_logs.run steps.reads)

/-- The test for the magic reads four bytes. -/
theorem Delivering.tests (steps : Delivering fw zstd header file before) {framed : Except EfiStatus Nat}
    (frames : payloadFrame fw zstd header steps.payload.pointer steps.delivered = (framed, after)) :
    Logs (WithinBuffers (header.get Hdr.payloadLength) size) before after ↔ 4 ≤ header.get Hdr.payloadLength := by
  obtain ⟨inside, -⟩ := @payloadFrame_run fw zstd header steps.delivered after size framed _ _ steps.stored
    steps.whole frames
  rw [steps.whole] at inside
  have begun : Logs (WithinBuffers (header.get Hdr.payloadLength) size) before steps.delivered := steps.bounded
  rw [Logs.split begun.any ((payloadFrame_grows _).run frames), inside]
  exact ⟨And.right, fun long => ⟨begun, long⟩⟩

theorem Placing.grown (steps : Placing fw zstd header file before) :
    Logs (fun _ => True) before steps.allocated := by
  obtain ⟨-, -, silent⟩ := @allocateImage_run fw header steps.tested steps.allocated 0 0 _ steps.allocates
  exact IsTrans.trans _ _ _ (IsTrans.trans _ _ _ (@Delivering.bounded _ _ _ _ _ 0 steps.toDelivering).any
    ((payloadFrame_grows _).run steps.frames)) silent.any

theorem Placing.tests (steps : Placing fw zstd header file before) :
    Logs (WithinBuffers (header.get Hdr.payloadLength) size) before steps.allocated ↔
      4 ≤ header.get Hdr.payloadLength := by
  obtain ⟨-, -, silent⟩ := @allocateImage_run fw header steps.tested steps.allocated
    (header.get Hdr.payloadLength) size _ steps.allocates
  have framed := (payloadFrame_grows _).run steps.frames
  rw [Logs.split (IsTrans.trans _ _ _ (@Delivering.bounded _ _ _ _ _ 0 steps.toDelivering).any framed) silent.any,
    steps.toDelivering.tests steps.frames]
  exact ⟨And.left, fun long => ⟨long, silent⟩⟩

/-- The image is what zstd makes of the frame. -/
theorem Placing.made (steps : Placing fw zstd header file before) {result : Nat × List UInt8}
    (granted : efiError steps.reply.1 = false)
    (produced : zstd.decompressDCtx steps.allocated.history (header.get Hdr.initSize)
      (steps.payload.bytes.take (zstd.findFrameCompressedSize steps.payload.bytes)) = result) :
    imageReached fw zstd header file before =
      if zstd.isError result.1 then none else some ⟨steps.reply.2, result.1, result.2⟩ := by
  have short : ¬ steps.payload.bytes.length < 4 := Nat.not_lt.mpr steps.long
  simp only [imageReached, steps.reached, Option.bind_some, unpackedOf, steps.asked, short, steps.magic, steps.good,
    granted, produced, ne_eq, not_true_eq_false, false_or, Bool.false_eq_true]

/-- What the decompression adds to a run: the test for the other magic. -/
theorem Placing.unpacks (sound : ZstdSound zstd) (steps : Placing fw zstd header file before)
    (granted : efiError steps.reply.1 = false) {outcome : Except EfiStatus Nat}
    (run : unpackImage fw zstd header steps.payload.pointer
      (zstd.findFrameCompressedSize steps.payload.bytes) steps.reply.2 steps.allocated = (outcome, after)) :
    ∃ result : Nat × List UInt8, imageReached fw zstd header file before =
        (if zstd.isError result.1 then none else some ⟨steps.reply.2, result.1, result.2⟩) ∧
      (Logs (WithinBuffers (header.get Hdr.payloadLength) (imageSize fw zstd header file before)) before after ↔
        4 ≤ header.get Hdr.payloadLength ∧ (zstd.isError result.1 = false → 4 ≤ result.1)) ∧
      ((outcome = .error efiInvalidParameter ∧
          (zstd.isError result.1 = true ∨ result.1 < 4 ∨ firstWord result.2 ≠ elfMagic)) ∨
        (outcome = .ok result.1 ∧ zstd.isError result.1 = false ∧ 4 ≤ result.1 ∧
          firstWord result.2 = elfMagic)) := by
  obtain ⟨result, produced⟩ : ∃ result, zstd.decompressDCtx steps.allocated.history (header.get Hdr.initSize)
      (steps.payload.bytes.take (zstd.findFrameCompressedSize steps.payload.bytes)) = result := ⟨_, rfl⟩
  have made := steps.made granted produced
  have sized : zstd.isError result.1 = false → imageSize fw zstd header file before = result.1 := by
    intro fine
    simp only [imageSize, made, fine, Bool.false_eq_true, ↓reduceIte]
  obtain ⟨bounded, ending⟩ := @unpackImage_run fw zstd header steps.allocated after
    (header.get Hdr.payloadLength) _ _ _ _ _ _ result sound steps.held (sound.frame _ steps.good) produced sized run
  refine ⟨result, made, ?_, ending⟩
  rw [Logs.split steps.grown ((unpackImage_grows _ _ _).run run), steps.tests, bounded]

theorem wbootDecompressKernel_run {out : KernelBuffer} {outcome : EfiStatus × KernelBuffer}
    (sound : ZstdSound zstd) (early : before.bsExited = false)
    (run : wbootDecompressKernel fw zstd header file out before = (outcome, after)) :
    Unpacks fw zstd header file before after outcome := by
  have absorbs : Absorbs fw (Logs (WithinBuffers (header.get Hdr.payloadLength)
    (imageSize fw zstd header file before))) := buffers_absorb
  have rejected : efiError efiInvalidParameter = true := rfl
  -- each course says which buffer was reached; the ones before the payload read none
  cases wbootDecompressKernel_course early run with
  | unready prepares missing tells =>
      obtain ⟨-, -, -, -, accesses⟩ := readyContext_run prepares
      have nothing : imageReached fw zstd header file before = none := by
        simp only [imageReached, missing, Option.bind_none]
      refine unpacks_nothing rfl nothing ⟨fun _ => by simp [missing], fun _ => ?_⟩
      exact IsTrans.trans _ _ _ ⟨[], accesses, by simp⟩ ((absorbs.printf _ _).run tells)
  | unread prepares reads bad missing =>
      obtain ⟨-, -, -, -, accesses⟩ := readyContext_run prepares
      have nothing : imageReached fw zstd header file before = none := by
        simp only [imageReached, missing, Option.bind_none]
      refine unpacks_nothing bad nothing ⟨fun _ => by simp [missing], fun _ => ?_⟩
      exact IsTrans.trans _ _ _ ⟨[], accesses, by simp⟩ (readPayload_logs.run reads)
  | unframed steps frames refused =>
      refine unpacks_payload rejected steps.reached ?_ (steps.tests frames)
      simp only [imageReached, steps.reached, Option.bind_some]
      refine if_pos ?_
      rcases refused with short | other | bad
      · exact Or.inl short
      · exact Or.inr (Or.inl other)
      · exact Or.inr (Or.inr (Or.inl bad))
  | unplaced steps refused tells frees =>
      have quiet := IsTrans.trans _ _ _ ((absorbs.printf _ _).run tells) ((absorbs.free _).run frees)
      refine unpacks_payload refused steps.reached ?_ ?_
      · simp only [imageReached, steps.reached, Option.bind_some]
        refine if_pos (Or.inr (Or.inr (Or.inr (Or.inl ?_))))
        rw [steps.asked]
        exact refused
      · rw [Logs.split steps.grown quiet.any, steps.tests]
        exact ⟨And.left, fun held => ⟨held, quiet⟩⟩
  | unpacked steps granted unpacks =>
      -- here both buffers were read, and the outcome is decided by the image
      obtain ⟨result, made, total, ending⟩ := steps.unpacks sound granted unpacks
      rcases ending with ⟨same, refused⟩ | ⟨done, -⟩
      · cases same
        refine unpacks_image steps.reached made total ?_ fun ok => Bool.noConfusion (rejected.symm.trans ok)
        constructor
        · exact fun ok => Bool.noConfusion (rejected.symm.trans ok)
        · rintro ⟨fine, large, elf⟩
          rcases refused with bad | short | other
          · exact Bool.noConfusion (fine.symm.trans bad)
          · exact absurd large (Nat.not_le.mpr short)
          · exact absurd elf other
      · cases done
  | placed steps granted unpacks frees =>
      obtain ⟨result, made, total, ending⟩ := steps.unpacks sound granted unpacks
      have quiet := (absorbs.free _).run frees
      have spread := (unpackImage_grows _ _ _).run unpacks
      rcases ending with ⟨done, -⟩ | ⟨same, fine, large, elf⟩
      · cases done
      · cases same
        refine unpacks_image steps.reached made ?_ ⟨fun _ => ⟨fine, large, elf⟩, fun _ => rfl⟩ fun _ => rfl
        rw [Logs.split (IsTrans.trans _ _ _ steps.grown spread) quiet.any, total]
        exact ⟨And.left, fun both => ⟨both, quiet⟩⟩

/-! ### Both functions -/

/-- Every read of the payload lies below `payload_length`, and every read of the
image, by either function, below the decompressed size. -/
structure ReadsInBounds (fw : Firmware) (zstd : Zstd) (header : SetupHeader) (file : Nat)
    (out : KernelBuffer) (world : World) (start : Ram) : Prop where
  unpacking : Logs (WithinBuffers (header.get Hdr.payloadLength) (imageSize fw zstd header file world))
    world (wbootDecompressKernel fw zstd header file out world).2
  placing : efiError (wbootDecompressKernel fw zstd header file out world).1.1 = false →
    ∃ log, (wbootGetKernelEntry (wbootDecompressKernel fw zstd header file out world).1.2.pointer
        start).2.accesses = log ++ start.accesses ∧
      ∀ access ∈ log, WithinImage (imageSize fw zstd header file world) access

/-- The sizes in the file are true as far as they are used. -/
structure KernelFits (fw : Firmware) (zstd : Zstd) (header : SetupHeader) (file : Nat)
    (world : World) (start : Ram) : Prop where
  payload : ∀ payload, payloadReached fw zstd header file world = some payload →
    4 ≤ header.get Hdr.payloadLength
  image : ∀ image, imageReached fw zstd header file world = some image → 4 ≤ image.size
  headers : ∀ image, imageReached fw zstd header file world = some image →
    4 ≤ image.size → firstWord image.bytes = elfMagic →
      HeadersMetFit start.mem (u64 image.pointer) image.size

theorem placing_iff (image size : Nat) (start : Ram) :
    (∃ log, (wbootGetKernelEntry image start).2.accesses = log ++ start.accesses ∧
      ∀ access ∈ log, WithinImage size access) ↔ HeadersMetFit start.mem (u64 image) size := by
  have narrow : u64 image < 2 ^ 64 := Nat.mod_lt image (Nat.two_pow_pos 64)
  obtain ⟨log, count, runs, rounds, inside⟩ :=
    wbootGetKernelEntry_run start.mem narrow size start.accesses
  rw [wbootGetKernelEntry_u64] at runs
  have accesses : (wbootGetKernelEntry image start).2.accesses = log ++ start.accesses :=
    congrArg (fun run => run.2.accesses) runs
  have walked : HeadersMetFit start.mem (u64 image) size ↔ 58 ≤ size ∧ ∀ i < count,
      HeaderFits (met start.mem (u64 image) i) (u64 image)
        (phdrOffset (Ehdr.phoff.get start.mem (u64 image)) i) size := by
    constructor
    · rintro ⟨header, all⟩
      exact ⟨header, fun i early => all i fun j before => rounds.running j (by omega)⟩
    · rintro ⟨header, all⟩
      refine ⟨header, fun i running => all i ?_⟩
      by_contra beyond
      have last := running count (by omega)
      have stopped := rounds.stopped
      omega
  rw [walked, ← inside]
  constructor
  · rintro ⟨other, same, kind⟩
    rw [accesses] at same
    exact List.append_cancel_right same ▸ kind
  · exact fun kind => ⟨log, accesses, kind⟩

/-- The reads of both functions are in bounds exactly when the sizes fit. For an
image whose segments write over no header still to be read, the headers are those
of the file. -/
theorem kernel_reads_in_bounds_iff (sound : ZstdSound zstd) (header : SetupHeader) (file : Nat)
    (out : KernelBuffer) (world : World) (early : world.bsExited = false) (start : Ram) :
    (ReadsInBounds fw zstd header file out world start ↔
      KernelFits fw zstd header file world start) ∧
    ∀ image size, HeadersLeft Spares start.mem image →
      (HeadersMetFit start.mem image size ↔ HeadersFit start.mem image size) := by
  have unpacks := wbootDecompressKernel_run sound early
    (Prod.mk.eta.symm : wbootDecompressKernel fw zstd header file out world = _)
  refine ⟨?_, fun image size left => headersMetFit_iff left size⟩
  constructor
  · rintro ⟨unpacking, placing⟩
    obtain ⟨payload, sizes⟩ := unpacks.reads.mp unpacking
    refine ⟨payload, sizes, fun image reached large elf => ?_⟩
    have success := unpacks.succeeds.mpr ⟨image, reached, large, elf⟩
    have here := placing success
    rw [unpacks.buffer success image reached, placing_iff] at here
    simpa only [imageSize, reached] using here
  · rintro ⟨payload, sizes, headers⟩
    refine ⟨unpacks.reads.mpr ⟨payload, sizes⟩, fun success => ?_⟩
    obtain ⟨image, reached, large, elf⟩ := unpacks.succeeds.mp success
    rw [unpacks.buffer success image reached, placing_iff]
    simpa only [imageSize, reached] using headers image reached large elf

end Unpacking

/-- A header wboot_read_setup_header accepts. -/
def Accepted (header : SetupHeader) : Prop :=
  header.get Hdr.bootFlag = 0xAA55 ∧ headerMagic header = ascii "HdrS"

def EveryFileReadInBounds : Prop :=
  ∀ (fw : Firmware) (zstd : Zstd) (header : SetupHeader) (file : Nat) (out : KernelBuffer)
    (world : World) (start : Ram), ZstdSound zstd → Accepted header → world.bsExited = false →
      ReadsInBounds fw zstd header file out world start

/-! An accepted header whose payload is empty: nothing lacks the magic more, and the
message that says so reads four bytes of it. The kernel that fits is an image of one
segment, stored as it is in a frame. -/

def acceptedHeader (payloadLength : Nat) : SetupHeader where
  bytes := bytesAt (Hdr.initSize.set (Hdr.payloadLength.set (Hdr.bootFlag.set
    (storeBytes (fun _ => 0) Hdr.header.offset (ascii "HdrS")) 0 0xAA55) 0 payloadLength) 0 4096)
    0 sizeofSetupHeader
  length_eq := by simp [bytesAt]

/-- A frame whose descriptor tells of a single segment and of one byte for its size. Its only
block is raw. -/
def rawFrame (content : List UInt8) : List UInt8 :=
  [0x28, 0xB5, 0x2F, 0xFD, 0x20, UInt8.ofNat content.length] ++
    bytesAt (store (fun _ => 0) 0 3 (8 * content.length + 1)) 0 3 ++ content

/-- The length and the content of the raw frame that some bytes begin with. -/
def firstRawFrame (bytes : List UInt8) : Option (Nat × List UInt8) :=
  let size := (bytes.getD 5 0).toNat
  if bytes.take 5 = [0x28, 0xB5, 0x2F, 0xFD, 0x20] ∧ 9 + size ≤ bytes.length ∧
      load (fun x => bytes.getD x 0) 6 3 = 8 * size + 1 then
    some (9 + size, (bytes.drop 9).take size)
  else none

def prefixUnknown : Nat := 2 ^ 64 - 10

def dstSizeTooSmall : Nat := 2 ^ 64 - 70

/-- The part of libzstd that raw frames need. -/
def storingZstd : Zstd where
  createDCtx := fun _ => 1
  findFrameCompressedSize := fun bytes =>
    match firstRawFrame bytes with
    | some (length, _) => length
    | none => prefixUnknown
  decompressDCtx := fun _ capacity bytes =>
    match firstRawFrame bytes with
    | some (_, content) =>
        if content.length ≤ capacity then (content.length, content) else (dstSizeTooSmall, [])
    | none => (prefixUnknown, [])
  isError := fun code => decide (2 ^ 64 - 120 < code)
  getErrorName := fun code =>
    if code = dstSizeTooSmall then ascii "Destination buffer is too small"
    else ascii "Unknown frame descriptor"

theorem rawFrame_length (content : List UInt8) : (rawFrame content).length = 9 + content.length := by
  simp [rawFrame, bytesAt]
  omega

/-- A frame that was written is found, whatever follows it. -/
theorem firstRawFrame_rawFrame {content : List UInt8} (rest : List UInt8) (short : content.length < 256) :
    firstRawFrame (rawFrame content ++ rest) = some (9 + content.length, content) := by
  have size : ((rawFrame content ++ rest).getD 5 0).toNat = content.length := by
    have byte : (rawFrame content ++ rest).getD 5 0 = UInt8.ofNat content.length := rfl
    rw [byte, UInt8.toNat_ofNat']
    exact Nat.mod_eq_of_lt short
  have block : load (fun x => (rawFrame content ++ rest).getD x 0) 6 3 = 8 * content.length + 1 := by
    have moved : load (fun x => (rawFrame content ++ rest).getD x 0) 6 3 =
        load (store (fun _ => 0) 0 3 (8 * content.length + 1)) 0 3 := rfl
    rw [moved, load_store_same]
    exact Nat.mod_eq_of_lt (by omega)
  have room : 9 + content.length ≤ (rawFrame content ++ rest).length := by
    rw [List.length_append, rawFrame_length]
    exact Nat.le_add_right _ _
  have stored : ((rawFrame content ++ rest).drop 9).take content.length = content := by
    have behind : (rawFrame content ++ rest).drop 9 = content ++ rest := rfl
    rw [behind, List.take_left']
    rfl
  unfold firstRawFrame
  dsimp only
  rw [size, if_pos ⟨rfl, room, block⟩, stored]

theorem firstRawFrame_found {bytes content : List UInt8} {length : Nat}
    (first : firstRawFrame bytes = some (length, content)) :
    length ≤ bytes.length ∧ content.length + 9 = length ∧ length < 9 + 256 := by
  unfold firstRawFrame at first
  simp only [Option.ite_none_right_eq_some, Option.some.injEq, Prod.mk.injEq] at first
  obtain ⟨⟨-, room, -⟩, rfl, rfl⟩ := first
  have byte := UInt8.toNat_lt (bytes.getD 5 0)
  rw [List.length_take, List.length_drop]
  omega

/-- A frame is decided by its own bytes. -/
theorem firstRawFrame_take {bytes content : List UInt8} {length : Nat}
    (first : firstRawFrame bytes = some (length, content)) :
    firstRawFrame (bytes.take length) = some (length, content) := by
  unfold firstRawFrame at first
  simp only [Option.ite_none_right_eq_some, Option.some.injEq, Prod.mk.injEq] at first
  obtain ⟨⟨magic, room, block⟩, rfl, rfl⟩ := first
  generalize size : (bytes.getD 5 0).toNat = count at *
  have byte (x : Nat) (inside : x < 9) : (bytes.take (9 + count)).getD x 0 = bytes.getD x 0 := by
    simp only [List.getD_eq_getElem?_getD]
    rw [List.getElem?_take_of_lt (by omega)]
  have short : (bytes.take (9 + count)).length = 9 + count := by
    rw [List.length_take]
    omega
  unfold firstRawFrame
  dsimp only
  rw [byte 5 (by decide), size, if_pos]
  · rw [List.drop_take, List.take_take]
    congr
    omega
  · refine ⟨?_, Nat.le_of_eq short.symm, ?_⟩
    · rw [List.take_take, Nat.min_eq_left (by omega)]
      exact magic
    · rw [← block]
      exact load_congr fun x _ upper => byte x (by omega)

/-- What it decompresses to without an error is the frame's content. -/
theorem storingZstd_fine {bytes : List UInt8} {history : History} {capacity : Nat}
    (fine : storingZstd.isError (storingZstd.decompressDCtx history capacity bytes).1 = false) :
    ∃ length content, firstRawFrame bytes = some (length, content) ∧ content.length ≤ capacity ∧
      storingZstd.decompressDCtx history capacity bytes = (content.length, content) := by
  simp only [storingZstd] at fine ⊢
  cases first : firstRawFrame bytes with
  | none =>
      rw [first] at fine
      have refused : decide (2 ^ 64 - 120 < prefixUnknown) = true := by decide
      exact Bool.noConfusion (refused.symm.trans fine)
  | some frame =>
      rw [first] at fine
      dsimp only at fine ⊢
      split at fine
      · rename_i fits
        rw [if_pos fits]
        exact ⟨frame.1, frame.2, rfl, fits, rfl⟩
      · exact absurd fine (by decide)

theorem storingZstd_sound : ZstdSound storingZstd where
  frame := fun bytes fine => by
    simp only [storingZstd] at fine ⊢
    cases first : firstRawFrame bytes with
    | none =>
        rw [first] at fine
        exact absurd fine (by decide)
    | some frame => exact (firstRawFrame_found first).1
  size := fun history capacity bytes fine => by
    obtain ⟨length, content, -, fits, same⟩ := storingZstd_fine fine
    rw [same]
    exact ⟨rfl, fits⟩

theorem empty_payload_overread : ¬ EveryFileReadInBounds := by
  intro every
  have reads := every idleFirmware storingZstd (acceptedHeader 0) 1 ⟨0, 0⟩ bootWorld
    ⟨fun _ => 0, []⟩ storingZstd_sound ⟨by decide +kernel, by decide +kernel⟩ rfl
  have unpacks := @wbootDecompressKernel_run idleFirmware storingZstd (acceptedHeader 0) 1 bootWorld _
    ⟨0, 0⟩ _ storingZstd_sound rfl Prod.mk.eta.symm
  have reached : (payloadReached idleFirmware storingZstd (acceptedHeader 0) 1 bootWorld).isSome = true := by
    decide +kernel
  obtain ⟨payload, found⟩ := Option.isSome_iff_exists.mp reached
  have long := (unpacks.reads.mp reads.unpacking).1 payload found
  revert long
  decide +kernel

/-- A frame with an image of one segment for `paddr`. -/
def storedImage (paddr : Nat) : List UInt8 := rawFrame (bytesAt (oneSegment paddr) 0x1000000 184)

theorem oneSegment_length (paddr : Nat) : (bytesAt (oneSegment paddr) 0x1000000 184).length = 184 := by
  simp [bytesAt]

theorem storedImage_length (paddr : Nat) : (storedImage paddr).length = 193 := by
  rw [storedImage, rawFrame_length, oneSegment_length]

theorem storedImage_frame (paddr : Nat) :
    firstRawFrame (storedImage paddr) = some (193, bytesAt (oneSegment paddr) 0x1000000 184) := by
  have short : (bytesAt (oneSegment paddr) 0x1000000 184).length < 256 :=
    (oneSegment_length paddr).trans_lt (by decide)
  have found := firstRawFrame_rawFrame [] short
  rw [List.append_nil, oneSegment_length] at found
  exact found

def kernelFirmware : Firmware := { idleFirmware with
  fileRead := fun _ _ _ => (efiSuccess, storedImage 0x2000000) }

theorem stored_kernel_read_in_bounds :
    ReadsInBounds kernelFirmware storingZstd (acceptedHeader 193) 1 ⟨0, 0⟩ bootWorld
      ⟨storeBytes (fun _ => 0) 0x10000C2 (bytesAt (oneSegment 0x2000000) 0x1000000 184), []⟩ := by
  have reached : imageReached kernelFirmware storingZstd (acceptedHeader 193) 1 bootWorld =
      some ⟨0x10000C2, 184, bytesAt (oneSegment 0x2000000) 0x1000000 184⟩ := by decide +kernel
  have held : HoldsSegment (storeBytes (fun _ => 0) 0x10000C2 (bytesAt (oneSegment 0x2000000) 0x1000000 184))
      0x10000C2 0x2000000 := by
    refine oneSegment_held (by decide) (by decide) fun x _ upper => ?_
    have index : x < 184 := by omega
    have byte := storeBytes_at (fun _ => 0) 0x10000C2 (bytesAt (oneSegment 0x2000000) 0x1000000 184) x
      (index.trans_eq (oneSegment_length _).symm)
    simpa [bytesAt, List.getD_eq_getElem?_getD, index] using byte
  refine (@kernel_reads_in_bounds_iff kernelFirmware storingZstd storingZstd_sound (acceptedHeader 193) 1
    ⟨0, 0⟩ bootWorld rfl _).1.mpr ⟨?_, ?_, ?_⟩
  · intro payload found
    decide +kernel
  · intro image same
    rw [reached] at same
    cases same
    decide +kernel
  · intro image same large elf
    rw [reached] at same
    cases same
    have spared (address count : Nat) (low : address + count ≤ 0x10000C2 + 120) :
        Spares ⟨0x2000000, 0x10000C2 + 120, 64, 64⟩ address count := by
      rintro x lower upper (⟨-, first, -⟩ | ⟨first, -⟩)
      · dsimp only at first
        omega
      · have place : u64 (0x2000000 + 64) = 0x2000040 := rfl
        dsimp only at first
        omega
    refine (headersMetFit_iff (held.headersLeft spared) 184).mpr ⟨by decide, fun i bound => ?_⟩
    obtain rfl : i = 0 := Nat.lt_one_iff.mp (held.phnum ▸ bound)
    simp only [HeaderFits, BodyFits]
    decide +kernel

end Wboot.KernelReads
