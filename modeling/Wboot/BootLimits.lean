import Wboot.KernelPages

/-! The limits that a kernel file states: whether it can do with addresses above 4 GiB,
how high its initramfs may lie and how long a command line it takes. No step compares
anything with them; whether a run keeps them is up to the firmware and the configuration. -/

namespace Wboot.BootLimits
open StateProgram ByteMemory CString Machine LinuxBoot Wstdlib Effects ConfigParser KernelImage
  BootParams ExitBootServices Blocks Phase3 ServiceEnd Handoff ZeroPage Survival KernelPages
open KernelReads (acceptedHeader storingZstd)

/-- Bit 1 of `xloadflags`. -/
def canBeLoadedAbove4G (header : SetupHeader) : Bool := (header.get Hdr.xloadflags).testBit 1

/-! ### Where the firmware puts the initramfs -/

section Requesting
variable (fw : Firmware) (config : WbootConfig)

/-- The calls made before the pages are requested, and the size of the file. -/
structure InitramfsRequest where
  history : History
  size : Nat

def initramfsRequest (world : World) : Option InitramfsRequest :=
  let opened := openFile fw config.root config.initrdPath world
  if efiError opened.1.1 then none
  else match initramfsFileSize fw opened.1.2 opened.2 with
    | (.ok size, sized) => some ⟨sized.history, size⟩
    | (.error _, _) => none

/-- The pages below 4 GiB, or else those anywhere. -/
def initramfsGrant (request : InitramfsRequest) : Nat :=
  let pages := initramfsPages request.size
  let low := fw.allocatePages request.history .maxAddress pages 0xFFFFFFFF
  if efiError low.1 then
    (fw.allocatePages (.allocatePages .maxAddress pages 0xFFFFFFFF low.1 low.2 :: request.history)
      .anyPages pages 0).2
  else low.2

end Requesting

section Loading
variable {fw : Firmware} {config : WbootConfig} {before after : World}

theorem initramfsFileSize_small {file size : Nat}
    (run : initramfsFileSize fw file before = (.ok size, after)) : size < 2 ^ 64 := by
  unfold initramfsFileSize at run
  rw [run_bind] at run
  obtain ⟨query, _, -, run⟩ := run
  rw [run_ite] at run
  rcases run with ⟨-, run⟩ | ⟨-, run⟩
  · rw [run_bind] at run
    obtain ⟨_, _, _, done⟩ := run
    cases done
  rw [run_bind] at run
  obtain ⟨fileInfo, _, -, run⟩ := run
  rw [run_ite] at run
  rcases run with ⟨-, run⟩ | ⟨-, run⟩
  · simp only [run_bind] at run
    obtain ⟨_, _, _, _, _, _, _, _, _, done⟩ := run
    cases done
  rw [run_bind] at run
  obtain ⟨info, asked, -, run⟩ := run
  rw [run_ite] at run
  rcases run with ⟨-, run⟩ | ⟨-, run⟩
  · simp only [run_bind] at run
    obtain ⟨_, _, _, _, _, _, done⟩ := run
    cases done
  simp only [run_bind] at run
  obtain ⟨fileSize, _, loads, _, _, _, done⟩ := run
  have loaded : fileSizeField.get asked.mem fileInfo = fileSize := congrArg Prod.fst loads
  cases done
  rw [← loaded]
  exact lt_of_lt_of_eq (load_lt asked.mem _ 8) (by norm_num)

theorem allocateInitramfs_answer {pages pointer : Nat} {status : EfiStatus}
    (run : allocateInitramfs fw pages before = ((status, pointer), after)) {size : Nat}
    (same : pages = initramfsPages size) : pointer = initramfsGrant fw ⟨before.history, size⟩ := by
  subst same
  unfold allocateInitramfs at run
  rw [run_bind] at run
  obtain ⟨low, tried, tries, run⟩ := run
  cases tries
  unfold initramfsGrant
  dsimp only
  rw [run_ite] at run
  rcases run with ⟨refused, run⟩ | ⟨granted, run⟩
  · rw [if_pos refused]
    exact (congrArg (fun outcome => outcome.1.2) run).symm
  · rw [if_neg granted]
    exact (congrArg (fun outcome => outcome.1.2) run).symm

/-- What a run that succeeds passes on is what the firmware granted, or nothing. -/
theorem wbootLoadInitramfs_answer {out initramfs : Initramfs} {status : EfiStatus}
    (run : wbootLoadInitramfs fw config out before = ((status, initramfs), after))
    (fine : efiError status = false) :
    match initramfsRequest fw config before with
    | none => initramfs = out
    | some request => initramfs = ⟨initramfsGrant fw request, request.size⟩ ∧ request.size < 2 ^ 64 := by
  unfold initramfsRequest
  rcases wbootLoadInitramfs_fetches run fine with
    ⟨openStatus, file, opened, opens, openable, sizes, same⟩ | ⟨⟨steps⟩⟩
  · rw [opens]
    dsimp only
    rw [if_neg (by simp [openable]), sizes]
    exact same
  · rw [steps.opens]
    dsimp only
    rw [if_neg (by simp [steps.openable]), steps.sizes]
    have answer := allocateInitramfs_answer steps.grants rfl
    exact ⟨by rw [← answer], initramfsFileSize_small steps.sizes⟩

end Loading

/-! ### What the kernel is told -/

section Handing
variable {fw : Firmware} {zstd : Zstd} {stack : SetupHeader} {start : World}

/-- The two halves of an address or size as `wboot_prepare_bootparams` leaves them. -/
def passed (run : HandoffRun fw zstd stack start) (low high : Field) : Nat :=
  joined run.composition.filled.mem run.composition.params low high

/-- The length of the string at the pointer that is passed. -/
def cmdlineLength (run : HandoffRun fw zstd stack start) : Nat :=
  strlen8 run.composition.filled.mem (passed run Hdr.cmdLinePtr Params.extCmdLinePtr)

/-- The length of the string that the configuration points to, once the boot parameters
are in the block that the firmware answers with. -/
def configuredLength (run : HandoffRun fw zstd stack start) : Nat :=
  strlen8 (filledMemory run.files.config run.files.header run.files.initramfs
    (fw.allocatePool run.composition.greeted.history sizeofBootParams).2 run.composition.greeted.mem)
    (u64 run.files.config.cmdline)

/-- Everything the kernel is told about lies where its header says it may. -/
structure WellPlaced (run : HandoffRun fw zstd stack start) : Prop where
  params : canBeLoadedAbove4G run.files.header = false →
    run.composition.params + sizeofBootParams ≤ 2 ^ 32
  cmdline : canBeLoadedAbove4G run.files.header = false →
    passed run Hdr.cmdLinePtr Params.extCmdLinePtr + cmdlineLength run + 1 ≤ 2 ^ 32
  initramfs : canBeLoadedAbove4G run.files.header = false →
    ∀ i < passed run Hdr.ramdiskSize Params.extRamdiskSize,
      passed run Hdr.ramdiskImage Params.extRamdiskImage + i < 2 ^ 32 ∧
        passed run Hdr.ramdiskImage Params.extRamdiskImage + i ≤ run.files.header.get Hdr.initrdAddrMax
  length : cmdlineLength run ≤ run.files.header.get Hdr.cmdlineSize

/-- The firmware keeps the limits, whether it knows them or not, and the command
line is short enough. -/
structure LimitsMet (run : HandoffRun fw zstd stack start) : Prop where
  params : canBeLoadedAbove4G run.files.header = false →
    (fw.allocatePool run.composition.greeted.history sizeofBootParams).2 + sizeofBootParams ≤ 2 ^ 32
  cmdline : canBeLoadedAbove4G run.files.header = false →
    u64 run.files.config.cmdline + configuredLength run + 1 ≤ 2 ^ 32
  initramfs : canBeLoadedAbove4G run.files.header = false →
    ∀ request, initramfsRequest fw run.files.config run.loading.fetching = some request →
      0 < request.size → u64 (initramfsGrant fw request) + request.size ≤
        min (2 ^ 32) (run.files.header.get Hdr.initrdAddrMax + 1)
  length : configuredLength run ≤ run.files.header.get Hdr.cmdlineSize

/-- The block for the boot parameters is where the firmware puts it. -/
theorem wbootPrepareBootparams_answer {config : WbootConfig} {header : SetupHeader}
    {initramfs : Initramfs} {params : Nat} {before after : World} (early : before.bsExited = false)
    (run : wbootPrepareBootparams fw config header initramfs before = (params, after))
    (present : params ≠ 0) : params = (fw.allocatePool before.history sizeofBootParams).2 := by
  unfold wbootPrepareBootparams at run
  rw [run_bind] at run
  obtain ⟨pointer, grabbed, grabs, run⟩ := run
  rw [run_ite] at run
  rcases run with ⟨null, run⟩ | ⟨nonnull, run⟩
  · exact absurd (null ▸ (congrArg Prod.fst run).symm) present
  · have same : pointer = params := by
      rw [run_bind] at run
      obtain ⟨_, _, -, done⟩ := run
      exact congrArg Prod.fst done
    rw [← same]
    exact malloc_answer fw early nonnull grabs

/-- Every byte of a range is low enough when its last one is. -/
theorem below_iff (address size bound : Nat) :
    (∀ i < size, address + i < 2 ^ 32 ∧ address + i ≤ bound) ↔
      (0 < size → address + size ≤ min (2 ^ 32) (bound + 1)) := by
  constructor
  · intro every some
    have last := every (size - 1) (by omega)
    omega
  · intro range i inside
    have fits := range (by omega)
    omega

/-- The parameters are stored in a new block, where the firmware puts it. -/
theorem params_filled (sound : AllocatorSound fw) (early : start.bsExited = false)
    (run : HandoffRun fw zstd stack start) :
    Prints run.loaded run.composition.greeted ∧
      Fresh (live run.composition.greeted.history) (paramsBlock run.composition.params) ∧
      run.composition.filled.mem = filledMemory run.files.config run.files.header run.files.initramfs
        run.composition.params run.composition.greeted.mem ∧
      run.composition.params = (fw.allocatePool run.composition.greeted.history sizeofBootParams).2 := by
  have greets := (message_prints fw (by simp [messages]) _).run run.composition.greets
  have greeted : run.composition.greeted.bsExited = false :=
    greets.bsExited.trans (loading_early early run.loading)
  obtain ⟨fresh, -, -, filled⟩ :=
    wbootPrepareBootparams_run sound greeted run.composition.prepares run.composition.present
  exact ⟨greets, fresh, filled,
    wbootPrepareBootparams_answer greeted run.composition.prepares run.composition.present⟩

/-- What the string is measured in is the memory that holds the parameters. -/
theorem cmdlineLength_configured (sound : AllocatorSound fw) (early : start.bsExited = false)
    (run : HandoffRun fw zstd stack start) : cmdlineLength run = configuredLength run := by
  obtain ⟨-, -, filled, params⟩ := params_filled sound early run
  obtain ⟨-, -, cmdline⟩ := @filled_halves run.files.config run.files.header
    run.files.initramfs run.composition.params run.composition.greeted.mem
  unfold cmdlineLength configuredLength passed
  rw [← params, filled]
  exact congrArg _ cmdline

/-- A string that its block holds is the one that was loaded. -/
theorem configuredLength_loaded (sound : AllocatorSound fw) (early : start.bsExited = false)
    (run : HandoffRun fw zstd stack start) (owns : CommandLine.OwnsCmdline run.files.config run.loaded)
    (narrow : run.files.config.cmdline < 2 ^ 64) :
    configuredLength run = strlen8 run.loaded.mem run.files.config.cmdline := by
  obtain ⟨size, lives, short⟩ := owns
  obtain ⟨greets, fresh, -, params⟩ := params_filled sound early run
  have apart := fresh.apart _ (greets.history ▸ lives)
  have whole : u64 run.files.config.cmdline = run.files.config.cmdline := Nat.mod_eq_of_lt narrow
  unfold configuredLength strlen8 at *
  rw [whole, ← params, ← greets.mem] at *
  congr 1
  refine cstring_congr fun x lower upper => filled_outside _ ?_
  simp only [Apart, paramsBlock] at apart
  omega

/-- The grant and the request of the initramfs decide the address and the size in the page. -/
theorem initramfs_placed_iff (run : HandoffRun fw zstd stack start)
    (image : passed run Hdr.ramdiskImage Params.extRamdiskImage = u64 run.files.initramfs.pointer)
    (size : passed run Hdr.ramdiskSize Params.extRamdiskSize = u64 run.files.initramfs.size) (bound : Nat) :
    (∀ i < passed run Hdr.ramdiskSize Params.extRamdiskSize,
      passed run Hdr.ramdiskImage Params.extRamdiskImage + i < 2 ^ 32 ∧
        passed run Hdr.ramdiskImage Params.extRamdiskImage + i ≤ bound) ↔
      ∀ request, initramfsRequest fw run.files.config run.loading.fetching = some request →
        0 < request.size → u64 (initramfsGrant fw request) + request.size ≤ min (2 ^ 32) (bound + 1) := by
  have answer := wbootLoadInitramfs_answer run.loading.fetches run.loading.fetchable
  rw [image, size]
  -- without a request the size is zero, and no byte has to lie anywhere
  generalize initramfsRequest fw run.files.config run.loading.fetching = request at answer
  cases request with
  | none =>
      have nothing : u64 run.files.initramfs.size = 0 := by rw [answer]; rfl
      simp [nothing]
  | some request =>
      obtain ⟨set, small⟩ := answer
      have whole : u64 request.size = request.size := Nat.mod_eq_of_lt small
      simp only [set, whole, Option.some.injEq, forall_eq']
      exact below_iff _ _ _

/-- A run keeps the limits exactly when the firmware and the configuration do; the length
that counts is that of the string that was loaded, if its block holds it. -/
theorem well_placed_iff (sound : AllocatorSound fw) (early : start.bsExited = false)
    (run : HandoffRun fw zstd stack start) : (WellPlaced run ↔ LimitsMet run) ∧
      (CommandLine.OwnsCmdline run.files.config run.loaded → run.files.config.cmdline < 2 ^ 64 →
        configuredLength run = strlen8 run.loaded.mem run.files.config.cmdline) := by
  obtain ⟨-, -, filled, params⟩ := params_filled sound early run
  obtain ⟨image, size, cmdline⟩ := @filled_halves run.files.config run.files.header
    run.files.initramfs run.composition.params run.composition.greeted.mem
  rw [← filled] at image size cmdline
  have placed := initramfs_placed_iff run image size (run.files.header.get Hdr.initrdAddrMax)
  have here : passed run Hdr.cmdLinePtr Params.extCmdLinePtr = u64 run.files.config.cmdline := cmdline
  have string := cmdlineLength_configured sound early run
  refine ⟨?_, configuredLength_loaded sound early run⟩
  constructor
  · intro well
    exact
      { params := fun low => params ▸ well.params low
        cmdline := fun low => string ▸ here ▸ well.cmdline low
        initramfs := fun low => placed.mp (well.initramfs low)
        length := string ▸ well.length }
  · intro limits
    exact
      { params := fun low => params ▸ limits.params low
        cmdline := fun low => here ▸ string ▸ limits.cmdline low
        initramfs := fun low => placed.mpr (limits.initramfs low)
        length := string ▸ limits.length }

end Handing

/-! ### Two machines -/

/-- No bit in `xloadflags`, an initramfs below 2 GiB and 255 characters. -/
def limitedHeader : SetupHeader where
  bytes := bytesAt (Hdr.cmdlineSize.set (Hdr.initrdAddrMax.set
    (fun x => (acceptedHeader 193).bytes.getD x 0) 0 0x7FFFFFFF) 0 255) 0 sizeofSetupHeader
  length_eq := by simp [bytesAt]

/-- Pool blocks are handed out from `base` on. -/
def poolDisk (base : Nat) : Firmware := { diskFirmware with
  allocatePool := fun history size => grant ⟨.pool, base + ceiling (live history), size⟩
  getMemoryMap := (kernelDisk true 0 0).getMemoryMap
  fileRead := fun history file size =>
    if size = sizeofSetupHeader then (efiSuccess, limitedHeader.bytes)
    else diskFirmware.fileRead history file size }

section Machines
variable {base : Nat}

theorem poolDisk_sound : AllocatorSound (poolDisk base) where
  pool := fun history size granted => by
    obtain ⟨bounded, here⟩ := grant_granted granted
    obtain ⟨low, above⟩ := ceiling_above (live history)
    have start : ((poolDisk base).allocatePool history size).2 = base + ceiling (live history) := here
    rw [start]
    refine ⟨bounded, fun _ => by dsimp only; omega, fun old member _ _ => ?_, fun old member => ?_⟩
    · have under := above old member
      dsimp only
      omega
    · have under := above old member
      exact Or.inr (by dsimp only; omega)
  pages := idleFirmware_sound.pages
  text := idleFirmware_sound.text
  atAddress := idleFirmware_sound.atAddress

theorem poolDisk_maps : MapsSound (poolDisk base) where
  stride := (@kernelDisk_maps true 0 0).stride
  fits := (@kernelDisk_maps true 0 0).fits
  bounded := (@kernelDisk_maps true 0 0).bounded

/-- Which limits the header states, and where the parameters and the command line are. -/
def located (params cmdline : Nat) (files : LoadedFiles) (loaded : World) (prepared : Prepared) : Bool :=
  decide (canBeLoadedAbove4G files.header = false ∧ files.header.get Hdr.cmdlineSize = 255 ∧
    files.initramfs.size = 0 ∧ files.config.cmdline = cmdline ∧ strlen8 loaded.mem cmdline = 1 ∧
    ⟨.pool, cmdline, 2⟩ ∈ live loaded.history ∧ prepared.params = params)

theorem poolDisk_hands {params cmdline : Nat}
    (launches : launches (poolDisk base) storingZstd (acceptedHeader 0) bootWorld
      (located params cmdline) = true) :
    ∃ run : HandoffRun (poolDisk base) storingZstd (acceptedHeader 0) bootWorld,
      canBeLoadedAbove4G run.files.header = false ∧ run.files.header.get Hdr.cmdlineSize = 255 ∧
      run.files.initramfs.size = 0 ∧ run.files.config.cmdline = cmdline ∧
      CommandLine.OwnsCmdline run.files.config run.loaded ∧
      strlen8 run.loaded.mem run.files.config.cmdline = 1 ∧ run.composition.params = params := by
  obtain ⟨run, prepared, holds, place, -⟩ := launches_hands poolDisk_sound poolDisk_maps rfl
    (fun _ _ _ => by simp only [poolDisk, kernelDisk]; decide) launches
  obtain ⟨low, limit, empty, rfl, length, lives, here⟩ := of_decide_eq_true holds
  exact ⟨run, low, limit, empty, rfl, ⟨2, lives, length.trans_lt (Nat.lt_succ_self 1)⟩, length,
    place.trans here⟩

end Machines

def EveryLimitKept : Prop :=
  ∀ (fw : Firmware) (zstd : Zstd) (stack : SetupHeader) (start : World)
    (run : HandoffRun fw zstd stack start), AllocatorSound fw → start.bsExited = false → WellPlaced run

theorem high_pool_launches :
    launches (poolDisk 0x100000000) storingZstd (acceptedHeader 0) bootWorld
      (located 30081552681 21491613794) = true := by
  decide +kernel

theorem low_pool_launches :
    launches (poolDisk 0) storingZstd (acceptedHeader 0) bootWorld (located 16781609 16777314) = true := by
  decide +kernel

/-- A kernel that has to be told of memory below 4 GiB is told of memory above. -/
theorem high_pool_misplaced : ¬ EveryLimitKept := by
  intro every
  obtain ⟨run, low, -, -, -, -, -, place⟩ := poolDisk_hands high_pool_launches
  have below := (every _ _ _ _ run poolDisk_sound rfl).params low
  rw [place] at below
  exact absurd below (by decide)

theorem low_pool_well_placed :
    ∃ run : HandoffRun (poolDisk 0) storingZstd (acceptedHeader 0) bootWorld, WellPlaced run := by
  obtain ⟨run, low, limit, empty, cmdline, owns, loaded, place⟩ := poolDisk_hands low_pool_launches
  obtain ⟨-, -, -, params⟩ := params_filled poolDisk_sound rfl run
  obtain ⟨keeps, counted⟩ := well_placed_iff poolDisk_sound rfl run
  have length : configuredLength run = 1 := (counted owns (by rw [cmdline]; decide)).trans loaded
  refine ⟨run, keeps.mpr ⟨fun _ => ?_, fun _ => ?_, fun _ => ?_, ?_⟩⟩
  · rw [← params, place]
    decide
  · rw [cmdline, length]
    decide
  · intro request asked some
    have answer := wbootLoadInitramfs_answer run.loading.fetches run.loading.fetchable
    rw [asked] at answer
    have size : run.files.initramfs.size = request.size := congrArg Initramfs.size answer.1
    omega
  · rw [length, limit]
    decide

end Wboot.BootLimits
