import Wboot.Delivery
import Wboot.HandoffCode

/-! From the files on the disk to the first instruction of the kernel: what `efi_main`
hands off is what the processor has when `wboot_handoff.s` jumps. -/

namespace Wboot.KernelEntry
open StateProgram ByteMemory CString Machine LinuxBoot Wstdlib Effects ConfigParser ConfigGrammar ConfigHeap KernelImage
  BootParams Graphics E820Sizing E820Translation ExitBootServices ElfPlacement SegmentCopy Blocks CommandLine Phase3
  ServiceEnd Handoff ZeroPage Survival KernelCleanup InitramfsCleanup KernelPages Preservation Volumes StandingImage
  Delivery HandoffCode SegmentedCpu
open ConfigLoad (ServesConfig moves infoOf_length infoOf_size)
open KernelReads (acceptedHeader storingZstd storedImage storedImage_frame firstRawFrame oneSegment_length)

section Entering
variable {fw : Firmware} {zstd : Zstd} {stack : SetupHeader} {start : World}

/-- A processor that was called with what `efi_main` passes, in the memory it leaves: the
code, its table and its stack are apart from what the kernel needs. -/
structure CalledWith (layout : Layout) (text : Text) (stock : Nat → List UInt16 → List UInt8) (files : LoadedFiles)
    (params entry : Nat) (memory : Memory) (cpu : Cpu) : Prop where
  assembled : Assembled layout text cpu.mem
  called : Called layout cpu
  rcx : cpu.reg .rcx = params
  rdx : cpu.reg .rdx = entry
  agrees : ∀ x, Needed stock files params memory x → cpu.mem x = memory x
  apart : ∀ x, Needed stock files params memory x → ¬ Own layout cpu x

/-- When `efi_main` hands off, the kernel is entered as its boot protocol wants, and finds
through `rsi` the command line and the initramfs of the configuration, and itself placed. -/
theorem efiMain_enters {stock : Nat → List UInt16 → List UInt8} {firstFrame : List UInt8 → Option (Nat × List UInt8)}
    (sound : AllocatorSound fw) (maps : MapsSound fw) (bounded : FilesSound fw) (stocked : Stocked fw stock)
    (frames : ZstdFrames zstd firstFrame) (running : Running start) (narrow : Narrow start) {files : LoadedFiles}
    {loaded : World} (loads : loadFiles fw zstd stack start = (.ok files, loaded))
    (bootable : Bootable stock firstFrame files) (hands : handsOff (efiMain fw zstd stack start).2.history) :
    ∃ run : HandoffRun fw zstd stack start, run.files = files ∧ run.loaded = loaded ∧
      .handoff run.composition.params run.placing.1 ∈ (efiMain fw zstd stack start).2.history ∧
      (efiMain fw zstd stack start).2.mem = run.placing.2.mem ∧ ∀ layout text cpu,
        CalledWith layout text stock files run.composition.params run.placing.1 run.placing.2.mem cpu →
          ∃ last, SegmentedCpu.run text 15 cpu = .ok last ∧
            BootProtocol last run.composition.params run.placing.1 ∧
            Delivers stock firstFrame files (last.reg .rsi) last.rip last.mem := by
  obtain ⟨run, again, memory, handed⟩ := efiMain_hands running hands
  obtain ⟨same, rfl⟩ := Prod.mk.inj (again.symm.trans loads)
  obtain rfl : run.files = files := Except.ok.inj same
  have brought := loading_brings sound stocked frames running.1 narrow run.loading bootable.above
  have reserves := loading_reserves sound bounded frames.toZstdSound running.1 run.loading
  have delivers := brought_delivers stocked reserves brought (brought_handed sound maps reserves brought bootable)
  refine ⟨run, rfl, rfl, handed, memory, fun layout text cpu calls => ?_⟩
  obtain ⟨last, runs, arrives, untouched⟩ := handoff_runs calls.assembled calls.called
  rw [calls.rcx, calls.rdx] at arrives
  refine ⟨last, runs, arrives, ?_⟩
  rw [arrives.params, arrives.entry]
  exact delivers.kept fun x needed => (untouched.memory x (calls.apart x needed)).trans (calls.agrees x needed)

end Entering

/-! ### A disk with files -/

/-- Where the next read of the file starts, when each is behind a seek or an open. -/
def positionIn (file : Nat) : History → Nat
  | [] => 0
  | .fileOpen _ _ _ other :: before => if other = file then 0 else positionIn file before
  | .fileSetPosition other position _ :: before => if other = file then position else positionIn file before
  | _ :: before => positionIn file before

/-- The numbered files of a volume, with positions. -/
def volumeDisk (text : Nat → List UInt8) : Firmware := { kernelDisk true 0 0 with
  fileGetInfo := fun _ file size _ =>
    if size < 88 then ⟨efiBufferTooSmall, 88, []⟩ else ⟨efiSuccess, 88, infoOf (text file).length⟩
  fileRead := fun history file _ => (efiSuccess, (text file).drop (positionIn file history)) }

section Disk
variable {text : Nat → List UInt8}

theorem volumeDisk_sound : AllocatorSound (volumeDisk text) :=
  let sound := @kernelDisk_sound true 0 0
  ⟨sound.pool, sound.pages, sound.text, sound.atAddress⟩

theorem volumeDisk_maps : MapsSound (volumeDisk text) :=
  let maps := @kernelDisk_maps true 0 0
  ⟨maps.stride, maps.fits, maps.bounded⟩

theorem volumeDisk_files (bounded : ∀ file, (text file).length + 1 < 2 ^ 63) : FilesSound (volumeDisk text) where
  bounded := fun history file size => by
    simp only [volumeDisk, List.length_drop]
    have short := bounded file
    omega

/-- A file that was opened and not moved since is at its start. -/
theorem positionIn_opened {root file : Nat} {path : List UInt16} {status : EfiStatus} {newer older : History}
    (unmoved : ∀ event ∈ newer, ¬ moves file event) :
    positionIn file (newer ++ .fileOpen root path status file :: older) = 0 := by
  induction newer with
  | nil => exact if_pos rfl
  | cons event rest ih =>
      obtain ⟨here, later⟩ := List.forall_mem_cons.mp unmoved
      rw [List.cons_append]
      cases event <;> simp only [positionIn, moves] at * <;> first | exact ih later | rw [if_neg here]; exact ih later

theorem volumeDisk_stocked (bounded : ∀ file, (text file).length + 1 < 2 ^ 63) (plain : ∀ c ∈ text 2, c ≠ 0) :
    Stocked (volumeDisk text) fun _ path => text (fileNumber path) where
  bounded := fun _ path => bounded _
  text := fun _ => by
    have conf : fileNumber (wide "wboot.conf") = 2 := by decide +kernel
    rw [conf]
    exact plain
  config := fun root => by
    have conf : fileNumber (wide "wboot.conf") = 2 := by decide +kernel
    rw [conf]
    constructor
    · rintro history file size buffer ⟨_, _, -, same, -⟩ - room
      obtain rfl : file = 2 := same.symm.trans conf
      have enough : ¬ size < 88 := Nat.not_lt.mpr room
      simp only [volumeDisk, enough, ↓reduceIte]
      exact ⟨by rw [infoOf_length]; decide, infoOf_size ((Nat.lt_of_succ_lt (bounded 2)).trans (by decide))⟩
    · rintro history file size ⟨newer, older, rfl, same, unmoved⟩ -
      obtain rfl : file = 2 := same.symm.trans conf
      have start := @positionIn_opened root 2 (wide "wboot.conf") efiSuccess newer older unmoved
      rw [← conf] at start
      exact (congrArg (fun position => ((text 2).drop position).take size) start)
  seeks := fun root path file history opened position status size _ _ => by
    obtain ⟨newer, older, -, -, rfl, -⟩ := opened
    simp only [volumeDisk, positionIn, ↓reduceIte]
    exact List.take_prefix _ _
  serves := fun root path older fine =>
    { query := fun _ _ => rfl
      info := fun history size buffer _ good => by
        have room : ¬ size < 88 := by
          intro small
          simp only [volumeDisk, small, ↓reduceIte] at good
          exact absurd good (by decide)
        simp only [volumeDisk, room, ↓reduceIte]
        rw [List.take_of_length_le (by rw [infoOf_length]; omega), infoOf_length]
        exact ⟨by decide, infoOf_size ((Nat.lt_of_succ_lt (bounded _)).trans (by decide))⟩
      read := fun history size opened _ => by
        obtain ⟨newer, rfl, unmoved⟩ := opened
        have start := @positionIn_opened root (fileNumber path) path efiSuccess newer older unmoved
        exact (congrArg (fun position => ((text (fileNumber path)).drop position).take size <+: _) start).mpr
          (List.take_prefix _ _) }

end Disk

/-! The header at 0x1f1, and the payload behind four setup sectors. -/

def bootableKernel (pref paddr : Nat) : List UInt8 :=
  List.replicate 0x1f1 0 ++ (preferringHeader pref).bytes ++ List.replicate 1940 0 ++ storedImage paddr

def bootFiles (file : Nat) : List UInt8 :=
  if file = 2 then confText else if file = 3 then bootableKernel 0x2000000 0x2000100 else [7, 7, 7]

/-- What the witness needs to know of the files, and of the page that follows them. -/
def ready : Bool :=
  match loadFiles (volumeDisk bootFiles) storingZstd (acceptedHeader 0) bootWorld with
  | (.ok files, loaded) =>
      decide (files.kernel.pointer = 0x2000000 ∧ files.header.bytes = (preferringHeader 0x2000000).bytes ∧
        0x1000000 ≤ files.config.kernelPath ∧ 0x1000000 ≤ files.config.initrdPath ∧
        0x1000000 ≤ files.config.cmdline ∧ 0x1000000 ≤ files.initramfs.pointer ∧ 0 < files.initramfs.size ∧
        payloadIn (fun _ path => bootFiles (fileNumber path)) files = storedImage 0x2000100 ∧
        0x1000000 ≤ (wbootPrepareBootparams (volumeDisk bootFiles) files.config files.header files.initramfs
          (printf (volumeDisk bootFiles) (wide "[wboot] preparing boot params\r\n") [] loaded).2).1)
  | (.error _, _) => false

theorem bootFiles_ready : ready = true := by decide +kernel

theorem bootFiles_hands :
    handsOff (efiMain (volumeDisk bootFiles) storingZstd (acceptedHeader 0) bootWorld).2.history := by
  decide +kernel

section Segment
variable {memory : Memory} {image dest : Nat}

/-- The segment is copied behind the headers, so they are left alone. -/
theorem segment_misses (behind : image + 120 ≤ dest) (address count : Nat) (low : address + count ≤ image + 120) :
    Misses ⟨dest, image + 120, 64, 64⟩ address count := by
  intro x lower upper covers
  have first := covers.1
  dsimp only at first
  omega

theorem segment_wellFormed (held : HoldsSegment memory image dest) (bounded : image + 184 ≤ 2 ^ 64)
    (fits : dest + 64 ≤ 2 ^ 64) : WellFormed memory image 184 := by
  have single {i : Nat} (bound : i < Ehdr.phnum.get memory image) : i = 0 := Nat.lt_one_iff.mp (held.phnum ▸ bound)
  have segment := held.segment
  rw [segmentAt, Segment.mk.injEq] at segment
  obtain ⟨paddr, source, filesz, memsz⟩ := segment
  have offset : Phdr.offset.get memory (image + 64) = 120 := by
    have small : Phdr.offset.get memory (image + 64) < 2 ^ 64 := load_lt memory (image + 64 + 8) 8
    simp only [u64] at source
    omega
  refine ⟨bounded, by decide, ?_, ?_, ?_, ?_, ?_⟩
  · rw [held.phoff, held.phnum]
    decide
  · intro i bound load
    rw [single bound, held.header, filesz, memsz]
  · intro i bound load
    rw [single bound, held.header, offset, filesz]
  · intro i bound load
    rw [single bound, held.header, paddr, memsz]
    exact fits
  · rw [held.phnum, held.loadSegments]
    exact List.pairwise_singleton _ _

theorem segment_sourcesLeft (held : HoldsSegment memory image dest) (behind : image + 120 ≤ dest) :
    SourcesLeft memory image := by
  constructor
  · rw [held.phnum, held.loadSegments]
    exact List.pairwise_singleton _ _
  · rw [held.phnum, held.loadSegments]
    intro segment member x lower upper covers
    obtain rfl := List.mem_singleton.mp member
    exact absurd covers (segment_misses behind _ _ (by omega) x lower upper)

end Segment

theorem storedImage_suited : Suited (preferringHeader 0x2000000) (bytesAt (oneSegment 0x2000100) 0x1000000 184) := by
  have prefers : (preferringHeader 0x2000000).get Hdr.prefAddress = 0x2000000 := by decide +kernel
  have init : (preferringHeader 0x2000000).get Hdr.initSize = 4096 := by decide +kernel
  have length := oneSegment_length 0x2000100
  have held : HoldsSegment (standing 0x2000000 (bytesAt (oneSegment 0x2000100) 0x1000000 184)) 0x2000000 0x2000100 := by
    refine oneSegment_held (by decide) (by decide) fun x _ upper => ?_
    have index : x < 184 := by omega
    simp [standing, bytesAt, List.getD_eq_getElem?_getD, index]
  constructor
  case wellFormed =>
    rw [prefers, length]
    exact segment_wellFormed held (by decide) (by decide)
  case headers =>
    rw [prefers]
    exact held.headersLeft (segment_misses (by decide))
  case sources =>
    rw [prefers]
    exact segment_sourcesLeft held (by decide)
  case inside =>
    rw [prefers, init, held.phnum, held.loadSegments]
    intro segment member
    obtain rfl := List.mem_singleton.mp member
    exact ⟨by decide, by decide⟩

/-! The code and its table in the second and the fifth page, each instruction a byte long. -/

def lowLayout : Layout := ⟨0x4000, fun _ => 1, 0x5000⟩

def lowText : Text := fun address =>
  if 0x4000 ≤ address then (reload lowLayout ++ enter lowLayout)[address - 0x4000]? else none

def tableBytes : List UInt8 :=
  List.replicate 16 0 ++ [0xFF, 0xFF, 0, 0, 0, 0x9A, 0xAF, 0, 0xFF, 0xFF, 0, 0, 0, 0x92, 0xCF, 0] ++
    [31, 0, 0, 0x50, 0, 0, 0, 0, 0, 0]

def callingCpu (memory : Memory) (params entry : Nat) : Cpu where
  reg := fun register => match register with
    | .rcx => params
    | .rdx => entry
    | .rsp => 0x3010
    | _ => 0
  rip := 0x4000
  selector := fun _ => 0
  cached := fun _ => none
  gdtBase := 0
  gdtLimit := 0
  interrupts := true
  ioPrivilege := 0
  mem := storeBytes memory 0x5000 tableBytes

theorem low_assembled (memory : Memory) (params entry : Nat) :
    Assembled lowLayout lowText (callingCpu memory params entry).mem := by
  have same : SameOn (callingCpu memory params entry).mem (storeBytes (fun _ => 0) 0x5000 tableBytes) 0x5000 42 := by
    intro x lower upper
    have long : tableBytes.length = 42 := by decide
    have here : 0x5000 + (x - 0x5000) = x := by omega
    have left := storeBytes_at memory 0x5000 tableBytes (x - 0x5000) (by omega)
    have right := storeBytes_at (fun _ => 0) 0x5000 tableBytes (x - 0x5000) (by omega)
    rw [here] at left right
    exact left.trans right.symm
  have read (address width : Nat) (lower : 0x5000 ≤ address) (upper : address + width ≤ 0x5000 + 42) :
      load (callingCpu memory params entry).mem address width =
        load (storeBytes (fun _ => 0) 0x5000 tableBytes) address width :=
    load_congr fun x low high => same x (by omega) (by omega)
  have entries : ∀ i < 4, load (storeBytes (fun _ => 0) 0x5000 tableBytes) (lowLayout.gdt + 8 * i) 8 =
      gdtEntries.getD i 0 := by decide +kernel
  refine ⟨⟨rfl, rfl, rfl, rfl, rfl, trivial⟩, ⟨rfl, rfl, rfl, rfl, rfl, rfl, rfl, rfl, rfl, rfl, trivial⟩,
    fun i bound => ?_, ?_, ?_⟩
  · rw [read _ _ (by simp only [lowLayout]; omega) (by simp only [lowLayout]; omega)]
    exact entries i bound
  · rw [read _ _ (by decide) (by decide)]
    decide +kernel
  · rw [read _ _ (by decide) (by decide)]
    decide +kernel

theorem low_called (memory : Memory) {params entry : Nat} (narrow : params < 2 ^ 64) (small : entry < 2 ^ 64) :
    Called lowLayout (callingCpu memory params entry) where
  rip := rfl
  ring := rfl
  words := fun register => by
    cases register <;> simp only [callingCpu] <;> first | exact narrow | exact small | decide
  address := by decide
  room := (by decide : 16 ≤ 0x3010)
  stack := Or.inl (by decide : 0x3010 - 16 + 16 ≤ 0x5000)

theorem bootFiles_enters :
    ∃ files params cpu last, SegmentedCpu.run lowText 15 cpu = .ok last ∧
      .handoff params last.rip ∈
        (efiMain (volumeDisk bootFiles) storingZstd (acceptedHeader 0) bootWorld).2.history ∧
      Delivers (fun _ path => bootFiles (fileNumber path)) firstRawFrame files
        (last.reg .rsi) last.rip last.mem := by
  have bounded (file : Nat) : (bootFiles file).length + 1 < 2 ^ 63 := by
    unfold bootFiles
    split
    · decide
    split
    · decide +kernel
    · decide
  have stocked := volumeDisk_stocked bounded (by decide)
  have started : Running bootWorld := ⟨rfl, List.forall_mem_nil _⟩
  have narrow : Narrow bootWorld := fun _ member => absurd member List.not_mem_nil
  have checked := bootFiles_ready
  unfold ready at checked
  generalize loads : loadFiles (volumeDisk bootFiles) storingZstd (acceptedHeader 0) bootWorld = outcome at checked
  obtain ⟨_ | files, loaded⟩ := outcome
  · cases checked
  obtain ⟨pointer, bytes, path, initrd, cmdline, initramfs, some, payload, page⟩ := of_decide_eq_true checked
  have header : files.header = preferringHeader 0x2000000 := by
    have same (left right : SetupHeader) (bytes : left.bytes = right.bytes) : left = right := by
      cases left
      cases right
      cases bytes
      rfl
    exact same _ _ bytes
  have bootable : Bootable (fun _ path => bootFiles (fileNumber path)) firstRawFrame files := by
    refine ⟨fun field => ?_, ?_, ?_, ?_⟩
    · unfold nullBytes
      cases field <;> simp only [ConfigHeap.pointer] <;> omega
    · rw [header]
      decide +kernel
    · rw [header, pointer]
      decide +kernel
    · rw [payload, header]
      intro length image first
      rw [storedImage_frame] at first
      obtain ⟨-, rfl⟩ := Prod.mk.inj (Option.some.inj first)
      exact storedImage_suited
  obtain ⟨run, rfl, rfl, handed, -, enters⟩ := efiMain_enters volumeDisk_sound volumeDisk_maps
    (volumeDisk_files bounded) stocked storingZstd_frames started narrow loads bootable bootFiles_hands
  have brought := loading_brings volumeDisk_sound stocked storingZstd_frames rfl narrow run.loading bootable.above
  have reserves := loading_reserves volumeDisk_sound (volumeDisk_files bounded) storingZstd_frames.toZstdSound rfl
    run.loading
  have known := brought_handed volumeDisk_sound volumeDisk_maps reserves brought bootable
  rw [run.composition.greets, run.composition.prepares] at page
  have quiet := (message_prints _ (by simp [messages]) _).run run.composition.greets
  obtain ⟨fresh, -⟩ := wbootPrepareBootparams_run volumeDisk_sound (quiet.bsExited.trans reserves.early)
    run.composition.prepares run.composition.present
  have params : run.composition.params < 2 ^ 64 := by
    have last := fresh.bounded
    simp only [sizeofBootParams] at last
    omega
  have entry : run.placing.1 < 2 ^ 64 := by
    obtain ⟨-, image, -, -, placed⟩ := known.kernel
    rw [placed.entry]
    exact load_lt _ _ 8
  -- everything the kernel needs is above the code
  have high (x : Nat) (needed : Needed (fun _ path => bootFiles (fileNumber path)) run.files run.composition.params
      run.placing.2.mem x) : 0x1000000 ≤ x := by
    rcases needed with ⟨low, -⟩ | ⟨low, -⟩ | ⟨low, -⟩ | ⟨low, -⟩
    · omega
    · rw [known.cmdlineAt brought] at low
      omega
    · rw [known.initramfsAt brought some] at low
      omega
    · rw [← bootable.granted, pointer] at low
      omega
  obtain ⟨last, runs, arrives, delivers⟩ := enters lowLayout lowText
    (callingCpu run.placing.2.mem run.composition.params run.placing.1)
    { assembled := low_assembled _ _ _
      called := low_called _ params entry
      rcx := rfl
      rdx := rfl
      agrees := fun x needed => storeBytes_frame _ _ _ _ (Or.inr (by
        have above := high x needed
        have long : tableBytes.length = 42 := by decide
        omega))
      apart := fun x needed own => by
        have above := high x needed
        rcases own with ⟨-, below⟩ | rfl | rfl
        · change x < 0x3010 at below
          omega
        · simp [lowLayout] at above
        · simp [lowLayout] at above }
  exact ⟨run.files, run.composition.params, _, last, runs, arrives.entry ▸ handed, delivers⟩

end Wboot.KernelEntry
