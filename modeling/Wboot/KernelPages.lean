import Wboot.CommandLine
import Wboot.Survival
import Wboot.ZeroPage

/-! Where `wboot_get_kernel_entry` writes. The pages granted for the kernel are apart
from everything else the handoff needs, so what is written inside them harms nothing;
whether it is inside them depends on where they were granted. -/

namespace Wboot.KernelPages
open StateProgram ByteMemory CString Machine LinuxBoot Wstdlib Effects ConfigParser KernelImage
  BootParams GraphicsEffects E820Sizing E820Translation ExitBootServices ElfPlacement SegmentCopy
  Blocks Phase3 ServiceEnd Handoff ZeroPage CommandLine Survival
open KernelReads (writes acceptedHeader storingZstd storingZstd_sound storedImage storedImage_length)

/-! ### From the files to the translation -/

section Departing
variable {fw : Firmware} {files : LoadedFiles} {start : World} {block : Block}

theorem filled_outside {config : WbootConfig} {header : SetupHeader} {initramfs : Initramfs}
    {params x : Nat} (memory : Memory) (outside : x < params ∨ params + sizeofBootParams ≤ x) :
    filledMemory config header initramfs params memory x = memory x := by
  simp only [sizeofBootParams] at outside
  rw [filled_stored memory, storeBytes_frame, setLoop_apply, if_neg]
  · simp only [sizeofBootParams]
    omega
  · rw [header.length_eq]
    simp only [Params.hdr, sizeofSetupHeader]
    omega
  · rcases outside with low | high
    · exact Or.inl (by omega)
    · refine Or.inr (Or.inr ⟨x - (params + Params.hdr), ?_, ?_⟩)
      · simp only [Params.hdr]
        omega
      · simp only [SetByLoader, Params.hdr, Hdr.typeOfLoader, Hdr.ramdiskImage, Hdr.ramdiskSize,
          Hdr.cmdLinePtr, Hdr.initrdAddrMax, Hdr.cmdlineSize]
        omega

theorem paints_sameOn {params : Nat} {before after : Ram} (paints : Paints params before after)
    {start size : Nat} (apart : Apart params sizeofBootParams start size) :
    SameOn after.mem before.mem start size := by
  intro x lower upper
  refine paints x fun y drawn same => ?_
  have inside : y < sizeofBootParams := by
    simp only [DrawnField, Params.screenInfo, Params.sizeofScreenInfo, Params.edidInfo,
      Params.sizeofEdidInfo, sizeofBootParams] at *
    omega
  unfold Apart at apart
  omega

/-- A block that is live when the files are there keeps its place and its bytes until
the translation, and the new blocks keep clear of it. -/
structure Undisturbed (run : Departure fw files start) (block : Block) : Prop where
  lives : block ∈ live run.translating.history
  same : SameOn run.translating.mem start.mem block.start block.size
  params : Apart run.params sizeofBootParams block.start block.size
  e820ext : run.e820ext.node ≠ 0 → Apart run.e820ext.node run.e820ext.size block.start block.size
  memmap : ∃ size, ⟨.pool, run.memmap, size⟩ ∈ live run.translating.history ∧
    Apart run.memmap size block.start block.size

theorem departure_undisturbed (sound : AllocatorSound fw) (maps : MapsSound fw)
    (early : start.bsExited = false) (run : Departure fw files start) (held : block ∈ live start.history) :
    Undisturbed run block := by
  have quiet {format : List UInt16} {args : List Arg} (said : format ∈ messages) {before after : World}
      (prints : printf fw format args before = ((), after)) : Prints before after :=
    (message_prints fw said args).run prints
  have greets := quiet (by simp [messages]) run.greets
  obtain ⟨fresh, lives, running, filled⟩ :=
    wbootPrepareBootparams_run sound (greets.bsExited.trans early) run.prepares run.present
  rw [greets.history] at fresh lives
  have params : Apart run.params sizeofBootParams block.start block.size := fresh.apart _ held
  have announces := quiet (by simp [messages]) run.announces
  -- drawing, sizing and the exit allocate beside the block, and write outside it
  have drawn : Draws run.params run.filled run.drawn := IsTrans.trans _ _ _ (prints_draws announces)
    ((wbootSetupGraphics_draws fw files.config run.params).run run.draws)
  have asked : Draws run.params run.filled run.prompted :=
    IsTrans.trans _ _ _ drawn (prints_draws (quiet (by simp [messages]) run.prompts))
  have prompted : block ∈ live run.prompted.history := by
    rw [asked.lives, lives]
    exact List.mem_cons_of_mem _ held
  obtain ⟨still, spares, owns⟩ :=
    wbootAllocateE820_run sound (asked.bsExited.trans running) run.sizes run.granted
  obtain ⟨kept, sized⟩ := spares _ prompted
  have leaves := quiet (by simp [messages]) run.leaves
  obtain ⟨size, reply, attempted, delivered, buffer, exits, confined, exited⟩ :=
    wbootExitBs_run sound maps (leaves.bsExited.trans still) run.exits run.mapped
  rw [leaves.history] at buffer exits
  have memmap : Apart run.memmap size block.start block.size := buffer.apart _ kept
  have reports := quiet (by simp [messages]) run.reports
  have begins := quiet (by simp [messages]) run.begins
  have last : live run.translating.history = ⟨.pool, run.memmap, size⟩ :: live run.sized.history := by
    rw [begins.history, reports.history, exits]
  refine ⟨?_, ?_, params, fun present => ?_, size, ?_, memmap⟩
  · rw [last]
    exact List.mem_cons_of_mem _ kept
  · intro x lower upper
    have offPage : x < run.params ∨ run.params + sizeofBootParams ≤ x := by
      unfold Apart at params
      omega
    have offMap : x < run.memmap ∨ run.memmap + size ≤ x := by
      unfold Apart at memmap
      omega
    have offInfo : x < run.params + Params.efiLoaderSignature.offset ∨
        run.params + Params.efiMemmapHi.offset + Params.efiMemmapHi.width ≤ x := by
      simp only [Params.efiLoaderSignature, Params.efiMemmapHi, sizeofBootParams] at *
      omega
    -- backwards from the translation to the start, one stage a step
    calc run.translating.mem x = run.exited.mem x := by rw [begins.mem, reports.mem]
      _ = attempted.mem x := by rw [exited, populateBootparamsEfi_frame _ _ _ _ _ _ _ _ offInfo]
      _ = run.sized.mem x := by rw [confined x offMap, leaves.mem]
      _ = run.prompted.mem x := sized x lower upper
      _ = run.filled.mem x := paints_sameOn asked.paints params x lower upper
      _ = start.mem x := by rw [filled, filled_outside _ offPage, greets.mem]
  · rcases owns with none | ⟨-, node, -⟩
    · exact absurd (congrArg E820Buffer.node none) present
    · exact node.apart _ prompted
  · rw [last]
    exact List.mem_cons_self

end Departing

/-! ### While the files are loaded -/

section Reserving
variable {fw : Firmware} {zstd : Zstd} {stack : SetupHeader} {start loaded : World} {files : LoadedFiles}

/-- The pages that `wboot_decompress_kernel` reserved for the kernel. -/
def reserved (files : LoadedFiles) : Block := kernelBlock files.header files.kernel.pointer

/-- No file is so long that the number of its pages wraps around. -/
theorem initramfsPages_cover {size : Nat} (bounded : size < 2 ^ 63) :
    size ≤ initramfsPages size * efiPageSize := by
  have whole : u64 (size + efiPageSize - 1) = size + efiPageSize - 1 :=
    Nat.mod_eq_of_lt (by simp only [efiPageSize]; omega)
  unfold initramfsPages
  rw [whole]
  simp only [efiPageSize]
  omega

/-- libzstd does not unpack more than `init_size` bytes, and an image has four. -/
theorem unpacked_fits {header : SetupHeader} {file : Nat} {out kernel : KernelBuffer} {status : EfiStatus}
    {before after : World} (unpacks : KernelReads.ZstdSound zstd) (early : before.bsExited = false)
    (run : wbootDecompressKernel fw zstd header file out before = ((status, kernel), after))
    (fine : efiError status = false) : 4 ≤ header.get Hdr.initSize := by
  obtain ⟨image, reached, long, -⟩ :=
    (KernelReads.wbootDecompressKernel_run unpacks early run).succeeds.mp fine
  obtain ⟨payload, -, made⟩ := Option.bind_eq_some_iff.mp reached
  simp only [KernelReads.unpackedOf, Option.ite_none_left_eq_some, not_or] at made
  obtain ⟨⟨-, -, -, -, good⟩, same⟩ := made
  rw [← Option.some.inj same] at long
  exact long.trans (unpacks.size _ _ _ (by simpa using good)).2

/-- The kernel has its pages, and what was stored before and after is not in them. -/
structure Reserves (loading : Loading fw zstd stack start files loaded) : Prop where
  early : loaded.bsExited = false
  lives : reserved files ∈ live loaded.history
  bounded : (reserved files).start + (reserved files).size ≤ 2 ^ 64
  present : 0 < (reserved files).size
  cmdline : Apart (reserved files).start (reserved files).size files.config.cmdline
    (strlen8 loading.located.mem files.config.cmdline + 1)
  initramfs : Apart (reserved files).start (reserved files).size files.initramfs.pointer
    files.initramfs.size

theorem loading_reserves (sound : AllocatorSound fw) (bounded : FilesSound fw)
    (unpacks : KernelReads.ZstdSound zstd) (early : start.bsExited = false)
    (loading : Loading fw zstd stack start files loaded) :
    Reserves loading := by
  have introduced : loading.introduced.bsExited = false := loading.introduces.bsExited.trans early
  obtain ⟨size, cmdline, short⟩ := wbootLocateConfig_cmdline sound bounded introduced loading.locates
  have located : loading.located.bsExited = false :=
    ((wbootLocateConfig_ordinary fw).run loading.locates).bsExited.trans introduced
  -- nothing between the configuration and the kernel frees a block
  have before (block : Block) : Stays block loading.located loading.unpacking := by
    have opened : Stays block loading.opening loading.opened := (openFile_stays _ _).run loading.opens
    have read : Stays block loading.reading loading.read :=
      (wbootReadSetupHeader_stays sound loading.file stack).run loading.reads
    exact IsTrans.trans _ _ _ (IsTrans.trans _ _ _ (IsTrans.trans _ _ _ (IsTrans.trans _ _ _
      (IsTrans.trans _ _ _ ((printConfig_stays sound _).run loading.shows) (prints_stays loading.announces))
      opened) (prints_stays loading.prompts)) read) (prints_stays loading.begins)
  have unpacking : loading.unpacking.bsExited = false := (before _ ⟨located, cmdline⟩).1
  obtain ⟨asking, granted, kept, fresh, lives, still, after⟩ :=
    wbootDecompressKernel_places sound unpacking loading.unpacks loading.unpackable
  have asked := kept _ (before _ ⟨located, cmdline⟩)
  have held : Held (reserved files) granted := by
    refine ⟨still.trans asked.1, ?_⟩
    rw [lives]
    exact List.mem_cons_self
  have fetching := prints_stays loading.continues (after _ rfl held)
  have apart := fresh.apart _ asked.2
  have bound : (reserved files).start + (reserved files).size ≤ 2 ^ 64 := fresh.bounded
  -- the command line was live when the pages were granted, so the pages miss it
  have others : Apart (reserved files).start (reserved files).size files.config.cmdline
      (strlen8 loading.located.mem files.config.cmdline + 1) := by
    simp only [Apart, reserved] at apart ⊢
    omega
  have present : 0 < (reserved files).size := by
    have fits := unpacked_fits unpacks unpacking loading.unpacks loading.unpackable
    simp only [reserved, kernelBlock, kernelPages, efiPageSize]
    omega
  -- without an initramfs there is nothing to keep apart from
  rcases wbootLoadInitramfs_places sound loading.fetches loading.fetchable with
    ⟨none, last⟩ | ⟨requesting, status, given, first, grants, fine, last, history, file, delivered⟩
  · obtain ⟨exited, member⟩ := last _ fetching
    refine ⟨exited, member, bound, present, others, ?_⟩
    rw [none]
    exact Or.inr (Nat.zero_le _)
  · obtain ⟨requested, asks, pages, listed, stays⟩ := allocateInitramfs_grants sound grants fine
    have reached := asks _ (first _ fetching)
    have reserved' : Held (reserved files) given := by
      refine ⟨stays.trans reached.1, ?_⟩
      rw [listed]
      exact List.mem_cons_of_mem _ reached.2
    obtain ⟨exited, member⟩ := last _ reserved'
    refine ⟨exited, member, bound, present, others, ?_⟩
    have separate := pages.apart _ reached.2
    have length := bounded.bounded history file files.initramfs.size
    have cover := @initramfsPages_cover files.initramfs.size (by omega)
    simp only [Apart] at separate ⊢
    omega

end Reserving

/-! ### The placement -/

section Placing
variable {memory : Memory} {image : Nat} {block : Block}

/-- A write to the place of a segment lies in the block. -/
def Inside (block : Block) : Access → Prop
  | .placed address count =>
      count = 0 ∨ (block.start ≤ address ∧ address + count ≤ block.start + block.size)
  | _ => True

def SegmentInside (block : Block) (segment : Segment) : Prop :=
  block.start ≤ segment.dest ∧
    segment.dest + max segment.fileSize segment.memSize ≤ block.start + block.size

/-- The address where clearing starts does not wrap around, or nothing is cleared. -/
theorem clear_place {segment : Segment} (bounded : block.start + block.size ≤ 2 ^ 64)
    (inside : SegmentInside block segment) (clears : segment.fileSize < segment.memSize) :
    u64 (segment.dest + segment.fileSize) = segment.dest + segment.fileSize := by
  obtain ⟨-, upper⟩ := inside
  exact Nat.mod_eq_of_lt (by omega)

theorem writes_inside {segment : Segment} {x : Nat} (bounded : block.start + block.size ≤ 2 ^ 64)
    (inside : SegmentInside block segment) (written : writes segment x) : block.holds x := by
  have place := clear_place bounded inside
  obtain ⟨lower, upper⟩ := inside
  unfold Block.holds
  rcases written with ⟨-, low, high⟩ | ⟨low, high⟩
  · omega
  · have unwrapped := place (by omega)
    rw [unwrapped] at low high
    omega

theorem bodyLog_inside {offset : Nat} (bounded : block.start + block.size ≤ 2 ^ 64)
    (own : KernelReads.Spares (segmentAt memory image (u64 (image + offset))).copied
      (u64 (image + offset) + 32) 16)
    (inside : SegmentInside block (segmentAt memory image (u64 (image + offset)))) :
    ∀ access ∈ bodyLog memory image offset, Inside block access := by
  obtain ⟨filesz, memsz⟩ := KernelReads.copied_sizes own
  have place := clear_place bounded inside
  obtain ⟨lower, upper⟩ := inside
  simp only [bodyLog, filesz, memsz, List.forall_mem_append, List.forall_mem_cons]
  refine ⟨?_, trivial, trivial, ?_, trivial, trivial, trivial, by simp⟩
  · intro access member
    simp only [clearAccesses] at member
    split at member
    · rename_i clears
      obtain rfl := List.mem_singleton.mp member
      rw [place clears]
      exact Or.inr ⟨by omega, by omega⟩
    · exact absurd member List.not_mem_nil
  · intro access member
    simp only [copyAccesses] at member
    split at member
    · rcases List.mem_cons.mp member with rfl | second
      · exact Or.inr ⟨lower, by omega⟩
      · obtain rfl := List.mem_singleton.mp second
        trivial
    · exact absurd member List.not_mem_nil

/-- Over headers that are left alone, segments that lie in the block stay in it. -/
theorem placement_inside {count : Nat} (bounded : block.start + block.size ≤ 2 ^ 64)
    (left : HeadersLeft KernelReads.Spares memory image) (few : count ≤ Ehdr.phnum.get memory image)
    (inside : ∀ segment ∈ loadSegments memory image (Ehdr.phnum.get memory image),
      SegmentInside block segment) :
    (∀ access ∈ placementLog memory image count, Inside block access) ∧
      ∀ x, ¬ block.holds x → met memory image count x = memory x := by
  constructor
  · rw [placementLog_all]
    refine ⟨⟨trivial, trivial, trivial⟩, fun i running => ?_⟩
    have bound : i < Ehdr.phnum.get memory image := Nat.lt_of_lt_of_le running few
    have type := KernelReads.met_type left i bound
    rw [roundLog, List.forall_mem_append]
    refine ⟨?_, by simp [Inside, imageField]⟩
    split
    · rename_i loads
      have load : isLoad memory image i = true := decide_eq_true (type.symm.trans loads)
      obtain ⟨-, segment⟩ := KernelReads.met_segment left i bound load
      refine bodyLog_inside bounded ?_ ?_
      · have own := left.own i bound load
        rw [← segment] at own
        exact own
      · have here := inside _ (mem_loadSegments memory _ i bound load)
        rw [← segment] at here
        exact here
    · exact List.forall_mem_nil _
  · intro x outside
    refine KernelReads.met_spared left count few x fun segment member written => outside ?_
    exact writes_inside bounded (inside segment ((loadSegments_initial memory image few).subset member)) written

end Placing

/-! ### The handoff -/

section Handing
variable {fw : Firmware} {zstd : Zstd} {stack : SetupHeader} {start : World}

/-- The destinations of the image lie where its header says it will run. -/
def DestsInside (run : HandoffRun fw zstd stack start) : Prop :=
  ∀ segment ∈ loadSegments run.composition.translated.mem run.files.kernel.pointer
      (Ehdr.phnum.get run.composition.translated.mem run.files.kernel.pointer),
    SegmentInside ⟨.pages, run.files.header.get Hdr.prefAddress, run.files.header.get Hdr.initSize⟩ segment

/-- The granted pages are the preferred ones, and no segment is copied over header
fields that the loop has yet to read. -/
structure OwnsDestination (run : HandoffRun fw zstd stack start) : Prop where
  lower : (reserved run.files).start ≤ run.files.header.get Hdr.prefAddress
  upper : run.files.header.get Hdr.prefAddress + run.files.header.get Hdr.initSize ≤
    (reserved run.files).start + (reserved run.files).size
  headers : HeadersLeft KernelReads.Spares run.composition.translated.mem run.files.kernel.pointer

/-- Bytes that are at the handoff what they were before the kernel was placed. -/
def Intact (run : HandoffRun fw zstd stack start) (address count : Nat) : Prop :=
  SameOn run.placing.2.mem run.composition.translated.mem address count

/-- The placement writes to the reserved pages, and everything else is intact. -/
structure Contained (run : HandoffRun fw zstd stack start) : Prop where
  lives : reserved run.files ∈ live run.composition.translating.history
  writes : ∃ log, run.placing.2.accesses = log ++ run.composition.translated.accesses ∧
    ∀ access ∈ log, Inside (reserved run.files) access
  outside : ∀ x, ¬ (reserved run.files).holds x → Intact run x 1
  params : Intact run run.composition.params sizeofBootParams
  cmdline : Intact run run.files.config.cmdline
    (strlen8 run.loading.located.mem run.files.config.cmdline + 1)
  initramfs : Intact run run.files.initramfs.pointer run.files.initramfs.size
  e820ext : run.composition.e820ext.node ≠ 0 →
    Intact run run.composition.e820ext.node run.composition.e820ext.size
  memmap : ∃ size, ⟨.pool, run.composition.memmap, size⟩ ∈ live run.composition.translating.history ∧
    Intact run run.composition.memmap size

/-- In a run that got the pages it prefers, the placement of the kernel stays in them. -/
theorem kernel_contained (sound : AllocatorSound fw) (maps : MapsSound fw) (bounded : FilesSound fw)
    (unpacks : KernelReads.ZstdSound zstd) (early : start.bsExited = false)
    (run : HandoffRun fw zstd stack start) (inside : DestsInside run) (owns : OwnsDestination run) :
    Contained run := by
  have reserves := loading_reserves sound bounded unpacks early run.loading
  have undisturbed := departure_undisturbed sound maps reserves.early run.composition.toDeparture
    reserves.lives
  have narrow : run.files.kernel.pointer < 2 ^ 64 := by
    have bound := reserves.bounded
    have present := reserves.present
    simp only [reserved, kernelBlock] at bound present
    omega
  have within : ∀ segment ∈ loadSegments run.composition.translated.mem run.files.kernel.pointer
      (Ehdr.phnum.get run.composition.translated.mem run.files.kernel.pointer),
      SegmentInside (reserved run.files) segment := by
    intro segment member
    obtain ⟨low, high⟩ := inside segment member
    exact ⟨owns.lower.trans low, high.trans owns.upper⟩
  obtain ⟨count, runs, rounds⟩ := wbootGetKernelEntry_apply run.composition.translated.mem narrow
    run.composition.translated.accesses
  have few : count = Ehdr.phnum.get run.composition.translated.mem run.files.kernel.pointer :=
    rounds.count_eq fun i bound => KernelReads.met_phnum owns.headers i bound
  -- every copy of the placement lands in the reserved pages
  obtain ⟨logged, kept⟩ := placement_inside reserves.bounded owns.headers (Nat.le_of_eq few) within
  have placed : run.placing = _ := runs
  have outside (x : Nat) (free : ¬ (reserved run.files).holds x) :
      run.placing.2.mem x = run.composition.translated.mem x := by
    rw [placed]
    exact kept x free
  -- what lies apart from the reserved pages is therefore as it was
  have intact {address size : Nat}
      (apart : Apart (reserved run.files).start (reserved run.files).size address size) :
      Intact run address size := by
    intro x lower upper
    refine outside x fun held => ?_
    unfold Block.holds at held
    unfold Apart at apart
    omega
  obtain ⟨size, lives, memmap⟩ := undisturbed.memmap
  exact
    { lives := undisturbed.lives
      writes := ⟨_, by rw [placed], logged⟩
      outside := fun x free y lower upper => by
        have same : y = x := by omega
        exact outside y (same ▸ free)
      params := intact (Or.symm undisturbed.params)
      cmdline := intact reserves.cmdline
      initramfs := intact reserves.initramfs
      e820ext := fun present => intact (Or.symm (undisturbed.e820ext present))
      memmap := ⟨size, lives, intact (Or.symm memmap)⟩ }

end Handing

/-! ### Two disks -/

/-- A kernel file that asks for one page at `pref`. -/
def preferringHeader (pref : Nat) : SetupHeader where
  bytes := bytesAt (Hdr.prefAddress.set (fun x => (acceptedHeader 193).bytes.getD x 0) 0 pref) 0
    sizeofSetupHeader
  length_eq := by simp [bytesAt]

def kernelDisk (grants : Bool) (pref paddr : Nat) : Firmware := { diskFirmware with
  allocatePages := fun history kind count request =>
    if kind = .address ∧ grants = false then (efiNotFound, 0)
    else idleFirmware.allocatePages history kind count request
  getMemoryMap := fun _ size _ =>
    ⟨if size < 48 then efiBufferTooSmall else efiSuccess, 48, 1, 48, 1, List.replicate 48 0⟩
  fileRead := fun _ file size => (efiSuccess,
    if file = 2 then confText else if size = sizeofSetupHeader then (preferringHeader pref).bytes
    else if file = 3 then storedImage paddr else []) }

section Disks
variable {grants : Bool} {pref paddr : Nat}

theorem kernelDisk_sound : AllocatorSound (kernelDisk grants pref paddr) where
  pool := idleFirmware_sound.pool
  pages := fun history kind count request granted => by
    simp only [kernelDisk] at granted ⊢
    split at granted
    · cases granted
    · rename_i free
      rw [if_neg free]
      exact idleFirmware_sound.pages history kind count request granted
  text := idleFirmware_sound.text
  atAddress := fun history count request granted => by
    simp only [kernelDisk] at granted ⊢
    split at granted
    · cases granted
    · rename_i free
      rw [if_neg free]
      exact idleFirmware_sound.atAddress history count request granted

theorem kernelDisk_maps : MapsSound (kernelDisk grants pref paddr) where
  stride := fun _ _ _ => by
    simp only [kernelDisk]
    decide
  fits := fun history size buffer delivered => by
    by_contra small
    have refused : ((kernelDisk grants pref paddr).getMemoryMap history size buffer).status =
        efiBufferTooSmall := if_pos (Nat.lt_of_not_le small)
    rw [refused] at delivered
    cases delivered
  bounded := fun _ _ _ => by
    simp only [kernelDisk]
    decide

theorem kernelDisk_files : FilesSound (kernelDisk grants pref paddr) where
  bounded := fun history file size => by
    have config : confText.length = 37 := by decide
    have header : (preferringHeader pref).bytes.length = sizeofSetupHeader := (preferringHeader pref).length_eq
    have image := storedImage_length paddr
    simp only [kernelDisk]
    split
    · omega
    split
    · rw [header]
      decide
    split
    · omega
    · decide

end Disks

section Launching
variable {grants : Bool} {pref paddr image params : Nat}

/-- Where the image and the zero page of a run are to be. -/
def settled (pref paddr image params : Nat) (files : LoadedFiles) (loaded : World)
    (prepared : Prepared) : Bool :=
  decide (files.kernel.pointer = image ∧ files.header.get Hdr.prefAddress = pref ∧
    files.header.get Hdr.initSize = 4096 ∧ prepared.params = params ∧
    bytesAt loaded.mem image 184 = bytesAt (oneSegment paddr) 0x1000000 184)

/-- A map of one descriptor is translated, and the image is not disturbed. -/
theorem kernelDisk_hands (bounded : image + 184 ≤ 2 ^ 64) (small : paddr < 2 ^ 64)
    (launches : launches (kernelDisk grants pref paddr) storingZstd (acceptedHeader 0) bootWorld
      (settled pref paddr image params) = true) :
    ∃ run : HandoffRun (kernelDisk grants pref paddr) storingZstd (acceptedHeader 0) bootWorld,
      run.files.kernel.pointer = image ∧ run.files.header.get Hdr.prefAddress = pref ∧
      run.files.header.get Hdr.initSize = 4096 ∧ run.composition.params = params ∧
      HoldsSegment run.composition.translated.mem image paddr := by
  obtain ⟨run, prepared, holds, place, few⟩ := launches_hands kernelDisk_sound kernelDisk_maps rfl
    (fun _ _ _ => by simp only [kernelDisk]; decide) launches
  obtain ⟨pointer, prefers, size, here, bytes⟩ := of_decide_eq_true holds
  have reserves := loading_reserves kernelDisk_sound kernelDisk_files storingZstd_sound rfl run.loading
  have stages := departure_stages kernelDisk_sound kernelDisk_maps reserves.early
    run.composition.toDeparture
  obtain ⟨-, same, offPage, offNode, -⟩ := departure_undisturbed kernelDisk_sound kernelDisk_maps
    reserves.early run.composition.toDeparture reserves.lives
  refine ⟨run, pointer, prefers, size, place.trans here, oneSegment_held bounded small fun x _ inside => ?_⟩
  have held : image = (reserved run.files).start ∧ 184 ≤ (reserved run.files).size := by
    simp only [reserved, kernelBlock, kernelPages, efiPageSize, pointer, size]
    decide
  have success : (wbootTranslateMemmap run.composition.params run.composition.e820ext.node
      run.composition.e820ext.size run.composition.translating.toRam).1 = efiSuccess :=
    congrArg Prod.fst run.composition.translates
  have result : (wbootTranslateMemmap run.composition.params run.composition.e820ext.node
      run.composition.e820ext.size run.composition.translating.toRam).2 = run.composition.translated :=
    congrArg Prod.snd run.composition.translates
  -- neither the translation nor the stages before it touch the image
  calc run.composition.translated.mem (image + x) = run.composition.translating.mem (image + x) := by
        rw [← result]
        apply translation_frame stages.layout success
        · rintro (inTable | ⟨present, inExt⟩)
          · simp only [Apart, Params.e820Table, e820MaxEntriesZeropage, sizeofBootE820Entry,
              sizeofBootParams] at *
            omega
          · have apart := offNode present
            unfold Apart at apart
            omega
        · simp only [Apart, Params.e820Entries, sizeofBootParams] at *
          omega
        · intro nrEntries long some
          have late := mergedEntries_length run.composition.translating.mem run.composition.params
            (descriptorCount run.composition.translating.mem run.composition.params)
          omega
    _ = run.loaded.mem (image + x) := same _ (by omega) (by omega)
    _ = oneSegment paddr (0x1000000 + x) := by
        have byte := congrArg (fun bytes => bytes.getD x 0) bytes
        have index : x < 184 := by omega
        simpa [bytesAt, List.getD_eq_getElem?_getD, index] using byte

end Launching

def EveryKernelContained : Prop :=
  ∀ (fw : Firmware) (zstd : Zstd) (stack : SetupHeader) (start : World)
    (run : HandoffRun fw zstd stack start), AllocatorSound fw → MapsSound fw → FilesSound fw →
      KernelReads.ZstdSound zstd → start.bsExited = false → DestsInside run → Contained run

theorem refused_page_launches :
    launches (kernelDisk false 0x1001129 0x1001129) storingZstd (acceptedHeader 0) bootWorld
      (settled 0x1001129 0x1001129 0x1000127 0x1001129) = true := by
  decide +kernel

theorem granted_page_launches :
    launches (kernelDisk true 0x2000000 0x2000100) storingZstd (acceptedHeader 0) bootWorld
      (settled 0x2000000 0x2000100 0x2000000 0x2001002) = true := by
  decide +kernel

/-- The header asks for a page that is taken, and the segment is copied there. -/
theorem refused_page_overwritten : ¬ EveryKernelContained := by
  intro every
  obtain ⟨run, pointer, prefers, size, place, held⟩ :=
    kernelDisk_hands (by decide) (by decide) refused_page_launches
  have segments : loadSegments run.composition.translated.mem run.files.kernel.pointer
      (Ehdr.phnum.get run.composition.translated.mem run.files.kernel.pointer) =
        [⟨0x1001129, 0x1000127 + 120, 64, 64⟩] := by
    rw [pointer, held.phnum]
    exact held.loadSegments
  -- the segment fits the range that the header prefers
  have inside : DestsInside run := by
    intro segment member
    rw [segments] at member
    rw [List.mem_singleton.mp member, prefers, size]
    exact ⟨by decide, by decide⟩
  obtain ⟨-, ⟨log, logged, contained⟩, -⟩ := every _ _ _ _ run kernelDisk_sound kernelDisk_maps
    kernelDisk_files storingZstd_sound rfl inside
  have narrow : run.files.kernel.pointer < 2 ^ 64 := by
    rw [pointer]
    decide
  obtain ⟨count, runs, rounds⟩ := wbootGetKernelEntry_apply run.composition.translated.mem narrow
    run.composition.translated.accesses
  -- the one segment is reached, so its copy is logged
  have some : 0 < count := by
    by_contra none
    have stopped := rounds.stopped
    obtain rfl : count = 0 := Nat.eq_zero_of_not_pos none
    rw [pointer] at stopped
    exact absurd (held.phnum.symm.trans_le stopped) (by decide)
  have placed : run.placing = _ := runs
  rw [placed] at logged
  obtain rfl := List.append_cancel_right logged
  obtain ⟨-, reached⟩ := (placementLog_all (Inside (reserved run.files)) _ _ _).mp contained
  have member : .placed 0x1001129 64 ∈ roundLog run.composition.translated.mem run.files.kernel.pointer
      (phdrOffset (Ehdr.phoff.get run.composition.translated.mem run.files.kernel.pointer) 0) := by
    rw [pointer]
    exact held.copies (by decide)
  -- the firmware granted other pages, and the copy lies past them
  have granted : (reserved run.files).start + (reserved run.files).size = 0x1001127 := by
    simp only [reserved, kernelBlock, kernelPages, efiPageSize, pointer, size]
  rcases reached 0 some _ member with none | ⟨-, upper⟩
  · cases none
  · omega

theorem granted_page_contained :
    ∃ run : HandoffRun (kernelDisk true 0x2000000 0x2000100) storingZstd (acceptedHeader 0) bootWorld,
      Contained run := by
  obtain ⟨run, pointer, prefers, size, -, held⟩ :=
    kernelDisk_hands (by decide) (by decide) granted_page_launches
  have segments : loadSegments run.composition.translated.mem run.files.kernel.pointer
      (Ehdr.phnum.get run.composition.translated.mem run.files.kernel.pointer) =
        [⟨0x2000100, 0x2000078, 64, 64⟩] := by
    rw [pointer, held.phnum]
    exact held.loadSegments
  have inside : DestsInside run := by
    intro segment member
    rw [segments] at member
    rw [List.mem_singleton.mp member, prefers, size]
    exact ⟨by decide, by decide⟩
  refine ⟨run, kernel_contained kernelDisk_sound kernelDisk_maps kernelDisk_files storingZstd_sound rfl
    run inside ⟨?_, ?_, ?_⟩⟩
  · rw [prefers]
    exact Nat.le_of_eq pointer
  · simp only [reserved, kernelBlock, kernelPages, efiPageSize, pointer, prefers, size]
    decide
  · rw [pointer]
    refine held.headersLeft fun address count low x lower upper written => ?_
    rcases written with ⟨-, low, -⟩ | ⟨low, -⟩
    · dsimp only at low
      omega
    · have place : u64 (0x2000100 + 64) = 0x2000140 := rfl
      dsimp only at low
      omega

end Wboot.KernelPages
