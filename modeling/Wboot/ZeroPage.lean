import Wboot.Blocks
import Wboot.E820Frame
import Wboot.Handoff

/-! The zero page as `efi_main` composes it. Four functions write into one record of
4096 bytes, each into fields of its own, and what is left over stays zero. -/

namespace Wboot.ZeroPage
open StateProgram ByteMemory CString Machine LinuxBoot Wstdlib Effects ConfigParser KernelImage
  BootParams Graphics GraphicsEffects E820Sizing E820Translation ExitBootServices Blocks Phase3
  ServiceEnd Handoff

/-! ### Whose bytes are whose -/

/-- The bytes of `setup_header_t` that the loader sets itself. -/
def SetByLoader (i : Nat) : Prop :=
  i = Hdr.typeOfLoader.offset ∨
    (Hdr.ramdiskImage.offset ≤ i ∧ i < Hdr.ramdiskSize.offset + Hdr.ramdiskSize.width) ∨
    (Hdr.cmdLinePtr.offset ≤ i ∧ i < Hdr.initrdAddrMax.offset + Hdr.initrdAddrMax.width) ∨
    (Hdr.cmdlineSize.offset ≤ i ∧ i < Hdr.cmdlineSize.offset + Hdr.cmdlineSize.width)

def InSetupData (i : Nat) : Prop :=
  Hdr.setupData.offset ≤ i ∧ i < Hdr.setupData.offset + Hdr.setupData.width

/-- The fields of `wboot_prepare_bootparams`. -/
def PreparedField (x : Nat) : Prop :=
  (Params.extRamdiskImage.offset ≤ x ∧ x < Params.extCmdLinePtr.offset + Params.extCmdLinePtr.width) ∨
    (Params.hdr ≤ x ∧ x < Params.hdr + sizeofSetupHeader)

/-- `efi_info`. -/
def EfiInfoField (x : Nat) : Prop :=
  Params.efiLoaderSignature.offset ≤ x ∧ x < Params.efiMemmapHi.offset + Params.efiMemmapHi.width

/-- `_pad1` to `_pad6`, the last of them past the table. -/
def Padding (x : Nat) : Prop :=
  (Params.screenInfo + Params.sizeofScreenInfo ≤ x ∧ x < 0xc0) ∨
    (0xc0 + 12 ≤ x ∧ x < Params.edidInfo) ∨
    (0x1e0 ≤ x ∧ x < Params.e820Entries.offset) ∨
    (Params.e820Entries.offset + 1 ≤ x ∧ x < Params.hdr) ∨
    (Params.hdr + sizeofSetupHeader ≤ x ∧ x < Params.e820Table) ∨
    (Params.e820Table + e820MaxEntriesZeropage * sizeofBootE820Entry ≤ x ∧ x < sizeofBootParams)

/-- No field of another step is among the first step's fields and the padding. -/
theorem others_apart {x : Nat} (own : PreparedField x ∨ Padding x) :
    x < sizeofBootParams ∧ ¬ DrawnField x ∧ ¬ EfiInfoField x ∧ x ≠ Params.e820Entries.offset ∧
      (x < Params.e820Table ∨ Params.e820Table + e820MaxEntriesZeropage * sizeofBootE820Entry ≤ x) := by
  simp only [PreparedField, Padding, DrawnField, EfiInfoField, Params.extRamdiskImage,
    Params.extCmdLinePtr, Params.hdr, Params.screenInfo, Params.sizeofScreenInfo, Params.edidInfo,
    Params.sizeofEdidInfo, Params.efiLoaderSignature, Params.efiMemmapHi, Params.e820Entries,
    Params.e820Table, e820MaxEntriesZeropage, sizeofBootE820Entry, sizeofBootParams,
    sizeofSetupHeader] at *
  omega

/-! ### The first step -/

section Filling
variable {config : WbootConfig} {header : SetupHeader} {initramfs : Initramfs} {params : Nat}

/-- `wboot_prepare_bootparams` as one memory. -/
def filledMemory (config : WbootConfig) (header : SetupHeader) (initramfs : Initramfs) (params : Nat)
    (memory : Memory) : Memory :=
  (fillBootparams config header initramfs params ⟨memory, []⟩).2.mem

theorem fillBootparams_mem (ram : Ram) :
    (fillBootparams config header initramfs params ram).2.mem =
      filledMemory config header initramfs params ram.mem := rfl

theorem filled_halves (memory : Memory) :
    (Hdr.ramdiskImage.get (filledMemory config header initramfs params memory) (params + Params.hdr) |||
        Params.extRamdiskImage.get (filledMemory config header initramfs params memory) params <<< 32 =
      u64 initramfs.pointer) ∧
    (Hdr.ramdiskSize.get (filledMemory config header initramfs params memory) (params + Params.hdr) |||
        Params.extRamdiskSize.get (filledMemory config header initramfs params memory) params <<< 32 =
      u64 initramfs.size) ∧
    (Hdr.cmdLinePtr.get (filledMemory config header initramfs params memory) (params + Params.hdr) |||
        Params.extCmdLinePtr.get (filledMemory config header initramfs params memory) params <<< 32 =
      u64 config.cmdline) := by
  have word : 256 ^ 4 = 2 ^ 32 := by norm_num
  simp only [filledMemory, fillBootparams, bind_apply, storeField, modifyState_apply, memset,
    memcpyFrom, deliver, readState_apply]
  refine ⟨?_, ?_, ?_⟩
  all_goals
    simp (disch := (simp only [Apart, Params.hdr, Hdr.ramdiskImage, Hdr.ramdiskSize, Hdr.cmdLinePtr,
      Hdr.typeOfLoader, Hdr.initrdAddrMax, Hdr.cmdlineSize, Params.extRamdiskImage,
      Params.extRamdiskSize, Params.extCmdLinePtr]; omega)) only [Field.get_set_apart, Field.get_set_same]
    simp only [Hdr.ramdiskImage, Hdr.ramdiskSize, Hdr.cmdLinePtr, Params.extRamdiskImage,
      Params.extRamdiskSize, Params.extCmdLinePtr, word]
    exact halves_joined _

/-- A byte that no field store reaches. -/
theorem filled_stored (memory : Memory) {x : Nat}
    (outside : x < params + 0xc0 ∨ (params + 0xcc ≤ x ∧ x < params + Params.hdr) ∨
      ∃ i, x = params + Params.hdr + i ∧ ¬ SetByLoader i) :
    filledMemory config header initramfs params memory x =
      storeBytes (setLoop memory params 0 sizeofBootParams) (params + Params.hdr) header.bytes x := by
  simp only [SetByLoader, Hdr.typeOfLoader, Hdr.ramdiskImage, Hdr.ramdiskSize, Hdr.cmdLinePtr,
    Hdr.initrdAddrMax, Hdr.cmdlineSize, Params.hdr] at outside
  simp only [filledMemory, fillBootparams, bind_apply, storeField, modifyState_apply, memset,
    memcpyFrom, deliver, readState_apply]
  rw [Field.set_frame, Field.set_frame, Field.set_frame, Field.set_frame, Field.set_frame,
    Field.set_frame, Field.set_frame, Field.set_frame, Field.set_frame]
  all_goals
    simp only [Hdr.typeOfLoader, Hdr.ramdiskImage, Hdr.ramdiskSize, Hdr.cmdLinePtr, Hdr.initrdAddrMax,
      Hdr.cmdlineSize, Params.extRamdiskImage, Params.extRamdiskSize, Params.extCmdLinePtr, Params.hdr]
    omega

theorem filled_header (memory : Memory) {i : Nat} (inside : i < sizeofSetupHeader)
    (kept : ¬ SetByLoader i) :
    filledMemory config header initramfs params memory (params + Params.hdr + i) =
      header.bytes.getD i 0 := by
  rw [filled_stored memory (Or.inr (Or.inr ⟨i, rfl, kept⟩)), storeBytes_at]
  rw [header.length_eq]
  exact inside

theorem filled_blank (memory : Memory) {x : Nat} (inside : x < sizeofBootParams)
    (blank : ¬ PreparedField x) : filledMemory config header initramfs params memory (params + x) = 0 := by
  simp only [PreparedField, Params.extRamdiskImage, Params.extCmdLinePtr, Params.hdr,
    sizeofSetupHeader] at blank
  have above (i : Nat) (past : sizeofSetupHeader ≤ i) : ¬ SetByLoader i := by
    simp only [SetByLoader, Hdr.typeOfLoader, Hdr.ramdiskImage, Hdr.ramdiskSize, Hdr.cmdLinePtr,
      Hdr.initrdAddrMax, Hdr.cmdlineSize, sizeofSetupHeader] at *
    omega
  rw [filled_stored memory, storeBytes_frame, setLoop_apply, if_pos]
  · omega
  · rw [header.length_eq]
    simp only [Params.hdr, sizeofSetupHeader]
    omega
  · by_cases early : x < 0xc0
    · exact Or.inl (by omega)
    · by_cases middle : x < Params.hdr
      · exact Or.inr (Or.inl ⟨by omega, by omega⟩)
      · refine Or.inr (Or.inr ⟨x - Params.hdr, by omega, above _ ?_⟩)
        simp only [Params.hdr, sizeofSetupHeader] at *
        omega

theorem filled_padding (memory : Memory) {x : Nat} (pad : Padding x) :
    filledMemory config header initramfs params memory (params + x) = 0 := by
  apply filled_blank memory (others_apart (Or.inr pad)).1
  simp only [Padding, PreparedField, Params.extRamdiskImage, Params.extCmdLinePtr, Params.hdr,
    Params.screenInfo, Params.sizeofScreenInfo, Params.edidInfo, Params.e820Entries,
    sizeofSetupHeader, Params.e820Table, e820MaxEntriesZeropage, sizeofBootE820Entry,
    sizeofBootParams] at *
  omega

end Filling

/-! ### The steps in between -/

/-- Only the two fields are written, and no block comes or goes. -/
structure Draws (params : Nat) (before after : World) : Prop where
  paints : Paints params before.toRam after.toRam
  lives : live after.history = live before.history
  bsExited : after.bsExited = before.bsExited

instance (params : Nat) : IsPreorder World (Draws params) where
  refl := fun _ => ⟨Std.Refl.refl _, rfl, rfl⟩
  trans := fun _ _ _ left right => ⟨IsTrans.trans _ _ _ left.paints right.paints,
    right.lives.trans left.lives, right.bsExited.trans left.bsExited⟩

theorem prints_draws {params : Nat} {before after : World} (prints : Prints before after) :
    Draws params before after :=
  ⟨fun x _ => congrFun prints.mem x, by rw [prints.history], prints.bsExited⟩

theorem wbootSetupGraphics_draws (fw : Firmware) (config : WbootConfig) (params : Nat) :
    Relates (Draws params) (wbootSetupGraphics fw config params) :=
  wbootSetupGraphics_relates
    { prints := fun _ _ prints => prints_draws prints
      calls := fun answer event display world => by
        have kept : live (event (answer world.history) :: world.history) = live world.history := by
          have shown := display (answer world.history)
          revert shown
          cases event (answer world.history) <;> first | exact False.elim | exact fun _ => rfl
        exact ⟨Std.Refl.refl _, kept, rfl⟩
      paints := fun program writes world => ⟨writes world.toRam, rfl, rfl⟩ } config

theorem wbootPrepareBootparams_run {fw : Firmware} {config : WbootConfig} {header : SetupHeader}
    {initramfs : Initramfs} {params : Nat} {before after : World} (sound : AllocatorSound fw)
    (early : before.bsExited = false)
    (run : wbootPrepareBootparams fw config header initramfs before = (params, after))
    (present : params ≠ 0) :
    Fresh (live before.history) ⟨.pool, params, sizeofBootParams⟩ ∧
      live after.history = ⟨.pool, params, sizeofBootParams⟩ :: live before.history ∧
      after.bsExited = false ∧
      after.mem = filledMemory config header initramfs params before.mem := by
  unfold wbootPrepareBootparams at run
  rw [run_bind] at run
  obtain ⟨pointer, grabbed, grabs, run⟩ := run
  have allocates := malloc_allocates fw sound early grabs
  rw [run_ite] at run
  rcases run with ⟨null, run⟩ | ⟨nonnull, run⟩
  · exact absurd (null ▸ (congrArg Prod.fst run).symm) present
  · simp only [run_bind] at run
    obtain ⟨_, filled, fills, done⟩ := run
    cases done
    cases fills
    refine ⟨allocates.fresh nonnull, allocates.lives nonnull, allocates.bsExited.trans early, ?_⟩
    rw [← congrArg Ram.mem allocates.ram]
    exact fillBootparams_mem _

section Stages
variable {fw : Firmware} {files : LoadedFiles} {start : World}

/-- The block of the parameters. -/
def paramsBlock (params : Nat) : Block := ⟨.pool, params, sizeofBootParams⟩

/-- What the steps did to the zero page, and how the translation finds memory. -/
structure Stages (run : Departure fw files start) : Prop where
  filled : run.filled.mem = filledMemory files.config files.header files.initramfs run.params
    run.greeted.mem
  drawn : Paints run.params run.filled.toRam run.drawn.toRam
  exited : ∃ (size : Nat) (reply : MemoryMapReply) (attempted : Ram),
    Delivered fw run.memmap size reply attempted.mem ∧ run.memmap + size ≤ 2 ^ 64 ∧
    Apart run.memmap size run.params sizeofBootParams ∧
    SameOn attempted.mem run.drawn.mem run.params sizeofBootParams ∧
    run.exited.mem = (populateBootparamsEfi fw.systemTable run.params run.memmap reply.mapSize
      reply.descSize (u32 reply.descVer) attempted).2.mem
  idle : run.translating.mem = run.exited.mem
  layout : Layout run.translating.mem run.params run.e820ext.node run.e820ext.size

/-- The map, the node and the parameters are blocks of their own. -/
theorem layout_of_blocks {memory : Memory} {params memmap size : Nat} {ext : E820Buffer}
    {reply : MemoryMapReply} {filled : Memory} (maps : MapsSound fw)
    (delivered : Delivered fw memmap size reply filled)
    (address : recordedMap memory params = u64 memmap)
    (mapSize : Params.efiMemmapSize.get memory params = u32 reply.mapSize)
    (descSize : Params.efiMemdescSize.get memory params = u32 reply.descSize)
    (bounded : memmap + size ≤ 2 ^ 64) (fromParams : Apart memmap size params sizeofBootParams)
    (extBounded : ext.node + ext.size ≤ 2 ^ 64)
    (extApart : ext.node ≠ 0 → Apart params sizeofBootParams ext.node ext.size)
    (fromExt : ext.node ≠ 0 → Apart memmap size ext.node ext.size) :
    Layout memory params ext.node ext.size := by
  obtain ⟨history, passed, -, fits, answered, status, -⟩ := delivered
  obtain ⟨stride, narrow⟩ := maps.stride history passed memmap
  have inside := maps.fits history passed memmap
  rw [← answered] at stride narrow inside
  have exactStride : u32 reply.descSize = reply.descSize := Nat.mod_eq_of_lt narrow
  have start : descriptorAt memory params 0 = u64 memmap := by
    unfold recordedMap at address
    unfold descriptorAt
    rw [address, Nat.zero_mul, Nat.add_zero]
    exact Nat.mod_mod memmap _
  have room : descriptorCount memory params * Params.efiMemdescSize.get memory params ≤ size := by
    unfold descriptorCount
    calc Params.efiMemmapSize.get memory params / Params.efiMemdescSize.get memory params *
          Params.efiMemdescSize.get memory params
        ≤ Params.efiMemmapSize.get memory params := Nat.div_mul_le_self _ _
      _ = u32 reply.mapSize := mapSize
      _ ≤ reply.mapSize := Nat.mod_le _ _
      _ ≤ size := (inside status).trans fits
  -- a map that ends the address space is not empty, so its start does not wrap
  have same : u64 memmap = memmap ∨ (u64 memmap = 0 ∧ size = 0) := by
    unfold u64
    omega
  refine ⟨?_, ?_, extBounded, extApart, ?_, fun present => ?_⟩
  · rw [descSize, exactStride]
    exact stride
  · rw [start]
    omega
  · rw [start]
    unfold Apart at *
    omega
  · have apart := fromExt present
    rw [start]
    unfold Apart at *
    omega

theorem departure_stages (sound : AllocatorSound fw) (maps : MapsSound fw)
    (early : start.bsExited = false) (run : Departure fw files start) : Stages run := by
  have quiet {format : List UInt16} {args : List Arg} (said : format ∈ messages) {before after : World}
      (prints : printf fw format args before = ((), after)) : Prints before after :=
    (message_prints fw said args).run prints
  have greets := quiet (by simp [messages]) run.greets
  obtain ⟨fresh, lives, running, filled⟩ :=
    wbootPrepareBootparams_run sound (greets.bsExited.trans early) run.prepares run.present
  have announces := quiet (by simp [messages]) run.announces
  have draws := (wbootSetupGraphics_draws fw files.config run.params).run run.draws
  have drawn : Draws run.params run.filled run.drawn :=
    IsTrans.trans _ _ _ (prints_draws announces) draws
  have prompts := quiet (by simp [messages]) run.prompts
  have asked : Draws run.params run.filled run.prompted := IsTrans.trans _ _ _ drawn (prints_draws prompts)
  obtain ⟨still, spares, owns⟩ :=
    wbootAllocateE820_run sound (asked.bsExited.trans running) run.sizes run.granted
  have held : paramsBlock run.params ∈ live run.prompted.history := by
    rw [asked.lives, lives]
    exact List.mem_cons_self
  -- the page stays live, so the later blocks lie apart from it
  obtain ⟨kept, same⟩ := spares _ held
  have leaves := quiet (by simp [messages]) run.leaves
  obtain ⟨size, reply, attempted, delivered, buffer, -, confined, exited⟩ :=
    wbootExitBs_run sound maps (leaves.bsExited.trans still) run.exits run.mapped
  rw [leaves.history] at buffer
  have apart : Apart run.memmap size run.params sizeofBootParams := buffer.apart _ kept
  have reports := quiet (by simp [messages]) run.reports
  have begins := quiet (by simp [messages]) run.begins
  have idle : run.translating.mem = run.exited.mem := begins.mem.trans reports.mem
  refine ⟨filled, drawn.paints, ⟨size, reply, attempted, delivered, buffer.bounded, apart, ?_, exited⟩, idle, ?_⟩
  -- between the drawing and the exit only the two fetched maps are written
  · intro x lower upper
    have outside : x < run.memmap ∨ run.memmap + size ≤ x := by
      unfold Apart at apart
      omega
    rw [confined x outside, leaves.mem, same x lower upper, prompts.mem]
  · obtain ⟨address, -, mapSize, descSize, -⟩ := populateBootparamsEfi_fields fw.systemTable run.params
      run.memmap reply.mapSize reply.descSize (u32 reply.descVer) attempted
    rw [idle, exited]
    -- the map, the node and the page are three live blocks
    refine layout_of_blocks maps delivered address mapSize descSize buffer.bounded apart ?_ ?_ ?_
    · rcases owns with none | ⟨-, node, -⟩
      · rw [none]
        decide
      · exact node.bounded
    · intro present
      rcases owns with none | ⟨-, node, -⟩
      · exact absurd (congrArg E820Buffer.node none) present
      · exact Or.symm (node.apart _ held)
    · intro present
      rcases owns with none | ⟨-, -, member⟩
      · exact absurd (congrArg E820Buffer.node none) present
      · exact buffer.apart _ member

/-- As many descriptors as the firmware says it delivered. -/
theorem stages_count {run : Departure fw files start} (stages : Stages run) :
    ∃ history passed, descriptorCount run.translating.mem run.params =
      u32 (fw.getMemoryMap history passed run.memmap).mapSize /
        u32 (fw.getMemoryMap history passed run.memmap).descSize := by
  obtain ⟨-, reply, attempted, ⟨history, passed, -, -, answered, -, -⟩, -, -, -, exited⟩ := stages.exited
  obtain ⟨-, -, mapSize, descSize, -⟩ := populateBootparamsEfi_fields fw.systemTable run.params
    run.memmap reply.mapSize reply.descSize (u32 reply.descVer) attempted
  refine ⟨history, passed, ?_⟩
  unfold descriptorCount
  rw [stages.idle, exited, mapSize, descSize, answered]

/-- A map that fits the table needs no node. -/
theorem short_map_translates {run : Departure fw files start} (stages : Stages run)
    (few : descriptorCount run.translating.mem run.params ≤ e820MaxEntriesZeropage) :
    (wbootTranslateMemmap run.params run.e820ext.node run.e820ext.size run.translating.toRam).1 =
      some efiSuccess := by
  refine (translation_succeeds_iff stages.layout fun i overflows => ?_).mpr fun nrEntries total more => ?_
  · obtain ⟨bound, full, -⟩ := (overflowIndex_iff _ _ i).mp overflows
    have late := mergedEntries_length run.translating.mem run.params i
    omega
  · have late := mergedEntries_length run.translating.mem run.params
      (descriptorCount run.translating.mem run.params)
    omega

/-- A launch whose memory map is short gets all the way to the handoff. -/
theorem launches_hands {zstd : Zstd} {stack : SetupHeader} {expected : LoadedFiles → World → Prepared → Bool}
    (sound : AllocatorSound fw) (maps : MapsSound fw) (early : start.bsExited = false)
    (short : ∀ history passed buffer, u32 (fw.getMemoryMap history passed buffer).mapSize /
      u32 (fw.getMemoryMap history passed buffer).descSize ≤ e820MaxEntriesZeropage)
    (launches : launches fw zstd stack start expected = true) :
    ∃ run : HandoffRun fw zstd stack start, ∃ prepared,
      expected run.files run.loaded prepared = true ∧ run.composition.params = prepared.params ∧
      descriptorCount run.composition.translating.mem run.composition.params ≤ e820MaxEntriesZeropage := by
  obtain ⟨files, loaded, prepared, loading, run, holds, place, -⟩ := launches_departs launches
  have stages := departure_stages sound maps (loading_early early loading) run
  obtain ⟨history, passed, count⟩ := stages_count stages
  have few := count.trans_le (short history passed run.memmap)
  have success := short_map_translates stages few
  obtain ⟨translated, translates⟩ : ∃ translated, wbootTranslateMemmap run.params run.e820ext.node
      run.e820ext.size run.translating.toRam = (some efiSuccess, translated) := ⟨_, Prod.ext success rfl⟩
  exact ⟨⟨files, loaded, loading, ⟨run, translated, translates⟩⟩, prepared, holds, place, few⟩

/-- The exit writes `efi_info` alone. -/
theorem exited_drawn {run : Departure fw files start} (stages : Stages run) {x : Nat}
    (inside : x < sizeofBootParams) (other : ¬ EfiInfoField x) :
    run.exited.mem (run.params + x) = run.drawn.mem (run.params + x) := by
  obtain ⟨-, reply, attempted, -, -, -, drawn, exited⟩ := stages.exited
  simp only [EfiInfoField] at other
  rw [exited, populateBootparamsEfi_frame]
  · exact drawn _ (by omega) (by omega)
  · omega

theorem exited_filled {run : Departure fw files start} (stages : Stages run) {x : Nat}
    (own : PreparedField x ∨ Padding x) :
    run.exited.mem (run.params + x) = run.filled.mem (run.params + x) := by
  obtain ⟨inside, undrawn, other, -, -⟩ := others_apart own
  refine (exited_drawn stages inside other).trans (stages.drawn _ ?_)
  intro y drawn same
  exact undrawn ((Nat.add_left_cancel same) ▸ drawn)

end Stages

/-! ### The page as a whole -/

section Page
variable {fw : Firmware} {files : LoadedFiles} {start : World}

/-- How many merged entries the memory map has. -/
def mergedCount (run : Departure fw files start) : Nat :=
  (mergedEntries run.translating.mem run.params (descriptorCount run.translating.mem run.params)).length

/-- Where the list named by the kernel file ends, when the node is linked. -/
def lastNode (run : Departure fw files start) : Option Nat :=
  lastSetupNode run.translating.toRam run.params run.e820ext.node run.e820ext.size
    (mergedCount run - e820MaxEntriesZeropage)

/-- A low half in the header and a high half below it, as the kernel joins them. -/
def joined (memory : Memory) (params : Nat) (low high : Field) : Nat :=
  low.get memory (params + Params.hdr) ||| high.get memory params <<< 32

/-- The composed page, read at the offsets of the boot protocol. -/
structure Decodes (run : Composition fw files start) : Prop where
  initramfs : joined run.translated.mem run.params Hdr.ramdiskImage Params.extRamdiskImage =
    u64 files.initramfs.pointer
  initramfsSize : joined run.translated.mem run.params Hdr.ramdiskSize Params.extRamdiskSize =
    u64 files.initramfs.size
  cmdline : joined run.translated.mem run.params Hdr.cmdLinePtr Params.extCmdLinePtr =
    u64 files.config.cmdline
  systemTable : Params.efiSystab.get run.translated.mem run.params |||
    Params.efiSystabHi.get run.translated.mem run.params <<< 32 = u64 fw.systemTable
  memoryMap : recordedMap run.translated.mem run.params = u64 run.memmap
  header : ∀ i, i < sizeofSetupHeader → ¬ SetByLoader i →
    (InSetupData i → mergedCount run.toDeparture ≤ e820MaxEntriesZeropage) →
    run.translated.mem (run.params + Params.hdr + i) = files.header.bytes.getD i 0
  prepared : ∀ x, PreparedField x →
    (∀ i, x = Params.hdr + i → InSetupData i → mergedCount run.toDeparture ≤ e820MaxEntriesZeropage) →
    run.translated.mem (run.params + x) = run.filled.mem (run.params + x)
  drawn : ∀ x, DrawnField x → run.translated.mem (run.params + x) = run.drawn.mem (run.params + x)
  exited : ∀ x, EfiInfoField x → run.translated.mem (run.params + x) = run.exited.mem (run.params + x)
  padding : ∀ x, Padding x → run.translated.mem (run.params + x) = 0

/-- The list the kernel file names is not walked, or does not end in the page. -/
def EndsOffPage (run : Departure fw files start) : Prop :=
  e820MaxEntriesZeropage < mergedCount run → ∀ last, lastNode run = some last → last ≠ 0 →
    Apart last Node.next.width run.params sizeofBootParams

/-- The translation leaves every byte of the page but its own. -/
theorem translated_page (run : Composition fw files start) (stages : Stages run.toDeparture)
    (offPage : EndsOffPage run.toDeparture) {x : Nat} (inside : x < sizeofBootParams)
    (other : x ≠ Params.e820Entries.offset)
    (unmapped : x < Params.e820Table ∨
      Params.e820Table + e820MaxEntriesZeropage * sizeofBootE820Entry ≤ x)
    (unlinked : mergedCount run.toDeparture ≤ e820MaxEntriesZeropage ∨ x < Params.hdr + Hdr.setupData.offset ∨
      Params.hdr + Hdr.setupData.offset + Hdr.setupData.width ≤ x) :
    run.translated.mem (run.params + x) = run.exited.mem (run.params + x) := by
  have layout := stages.layout
  have result : (wbootTranslateMemmap run.params run.e820ext.node run.e820ext.size
      run.translating.toRam).2 = run.translated := congrArg Prod.snd run.translates
  have success : (wbootTranslateMemmap run.params run.e820ext.node run.e820ext.size
      run.translating.toRam).1 = some efiSuccess := congrArg Prod.fst run.translates
  rw [← stages.idle, ← result]
  apply translation_frame layout success
  -- outside the table and the node the translation writes the count and one link
  · rintro (inTable | ⟨present, inExt⟩)
    · omega
    · have apart := layout.extApart present
      unfold Apart at apart
      omega
  · omega
  · intro nrEntries count some
    have long : e820MaxEntriesZeropage < mergedCount run.toDeparture := by
      unfold mergedCount
      omega
    have same : nrEntries = mergedCount run.toDeparture - e820MaxEntriesZeropage := by
      unfold mergedCount
      omega
    obtain ⟨-, ⟨short, -⟩ | ⟨-, present, room, -⟩⟩ := translation_links layout success
    · exact absurd long (Nat.not_lt.mpr short)
    have apart := layout.extApart present
    rw [same]
    -- the link is the list head of the page, or a field of a node off the page
    have away (last : Nat) (walk : lastNode run.toDeparture = Option.some last) :
        run.params + x < linkField run.params last ∨ linkField run.params last + 8 ≤ run.params + x := by
      unfold linkField
      by_cases empty : last = 0
      · rw [if_pos empty]
        simp only [Hdr.setupData] at unlinked ⊢
        omega
      · have ends := offPage long last walk empty
        rw [if_neg empty]
        simp only [Apart, Node.next] at ends ⊢
        omega
    refine ⟨?_, away⟩
    unfold Apart at apart
    omega

/-! What the page held before the translation is what it holds after. -/
section Kept
variable {run : Composition fw files start} {x : Nat}

theorem kept_exited (stages : Stages run.toDeparture) (offPage : EndsOffPage run.toDeparture)
    (own : EfiInfoField x) : run.translated.mem (run.params + x) = run.exited.mem (run.params + x) := by
  simp only [EfiInfoField, Params.efiLoaderSignature, Params.efiMemmapHi] at own
  apply translated_page run stages offPage <;>
    simp only [sizeofBootParams, Params.e820Entries, Params.e820Table, Params.hdr, Hdr.setupData] <;>
    omega

theorem kept_drawn (stages : Stages run.toDeparture) (offPage : EndsOffPage run.toDeparture)
    (own : DrawnField x) : run.translated.mem (run.params + x) = run.drawn.mem (run.params + x) := by
  simp only [DrawnField, Params.screenInfo, Params.sizeofScreenInfo, Params.edidInfo,
    Params.sizeofEdidInfo] at own
  refine (translated_page run stages offPage ?_ ?_ ?_ ?_).trans (exited_drawn stages ?_ ?_) <;>
    simp only [EfiInfoField, Params.efiLoaderSignature, Params.efiMemmapHi, sizeofBootParams,
      Params.e820Entries, Params.e820Table, Params.hdr, Hdr.setupData] <;>
    omega

theorem kept_filled (stages : Stages run.toDeparture) (offPage : EndsOffPage run.toDeparture)
    (own : PreparedField x ∨ Padding x)
    (unlinked : ∀ i, x = Params.hdr + i → InSetupData i → mergedCount run.toDeparture ≤ e820MaxEntriesZeropage) :
    run.translated.mem (run.params + x) = run.filled.mem (run.params + x) := by
  obtain ⟨inside, undrawn, other, uncounted, unmapped⟩ := others_apart own
  refine (translated_page run stages offPage inside uncounted unmapped ?_).trans (exited_filled stages own)
  by_cases linked : Params.hdr ≤ x ∧ InSetupData (x - Params.hdr)
  · exact Or.inl (unlinked (x - Params.hdr) (by omega) linked.2)
  · simp only [InSetupData] at linked
    omega

/-- A byte the loader fills in that no link is stored over. -/
def Settled (x : Nat) : Prop := PreparedField x ∧ ¬ InSetupData (x - Params.hdr)

theorem settled_iff (x : Nat) :
    Settled x ↔ (0xc0 ≤ x ∧ x < 0xcc) ∨ (0x1f1 ≤ x ∧ x < 0x26c ∧ (x < 592 ∨ 600 ≤ x)) := by
  simp only [Settled, PreparedField, InSetupData, Params.extRamdiskImage, Params.extCmdLinePtr, Params.hdr,
    Hdr.setupData, sizeofSetupHeader]
  omega

theorem kept_field (stages : Stages run.toDeparture) (offPage : EndsOffPage run.toDeparture) (field : Field)
    (base : Nat) (own : ∀ x, base + field.offset ≤ x → x < base + field.offset + field.width → Settled x) :
    field.get run.translated.mem (run.params + base) = field.get run.filled.mem (run.params + base) := by
  apply Field.get_congr
  intro x lower upper
  obtain ⟨prepared, free⟩ := own (x - run.params) (by omega) (by omega)
  have same := kept_filled stages offPage (Or.inl prepared) fun i here linked => absurd linked (by
    rw [here, Nat.add_sub_cancel_left] at free
    exact free)
  rwa [Nat.add_sub_cancel' (by omega)] at same

theorem kept_halves (stages : Stages run.toDeparture) (offPage : EndsOffPage run.toDeparture) (low high : Field)
    (inHeader : ∀ x, Params.hdr + low.offset ≤ x → x < Params.hdr + low.offset + low.width → Settled x)
    (below : ∀ x, 0 + high.offset ≤ x → x < 0 + high.offset + high.width → Settled x) :
    joined run.translated.mem run.params low high = joined run.filled.mem run.params low high := by
  have high := kept_field stages offPage high 0 below
  rw [Nat.add_zero] at high
  unfold joined
  rw [kept_field stages offPage low Params.hdr inHeader, high]

theorem kept_efiField (stages : Stages run.toDeparture) (offPage : EndsOffPage run.toDeparture) (field : Field)
    (inside : ∀ x, field.offset ≤ x → x < field.offset + field.width → EfiInfoField x) :
    field.get run.translated.mem run.params = field.get run.exited.mem run.params := by
  apply Field.get_congr
  intro x lower upper
  have same := kept_exited stages offPage (inside (x - run.params) (by omega) (by omega))
  rwa [Nat.add_sub_cancel' (by omega)] at same

end Kept

/-- Whatever is put into it, the page decodes to it. -/
theorem zero_page_decodes (sound : AllocatorSound fw) (maps : MapsSound fw)
    (early : start.bsExited = false) (run : Composition fw files start) (offPage : EndsOffPage run.toDeparture) :
    Decodes run := by
  have stages := departure_stages sound maps early run.toDeparture
  obtain ⟨-, reply, attempted, -, -, -, -, exited⟩ := stages.exited
  obtain ⟨address, systemTable, -⟩ := populateBootparamsEfi_fields fw.systemTable run.params
    run.memmap reply.mapSize reply.descSize (u32 reply.descVer) attempted
  rw [← exited] at address systemTable
  obtain ⟨initramfs, initramfsSize, cmdline⟩ := @filled_halves files.config files.header
    files.initramfs run.params run.greeted.mem
  rw [← stages.filled] at initramfs initramfsSize cmdline
  have halves := @kept_halves fw files start run stages offPage
  have efiField := @kept_efiField fw files start run stages offPage
  constructor
  case initramfs =>
    refine (halves _ _ ?_ ?_).trans initramfs
    all_goals
      intro x lower upper
      rw [settled_iff]
      simp only [Params.hdr, Hdr.ramdiskImage, Params.extRamdiskImage] at lower upper
      omega
  case initramfsSize =>
    refine (halves _ _ ?_ ?_).trans initramfsSize
    all_goals
      intro x lower upper
      rw [settled_iff]
      simp only [Params.hdr, Hdr.ramdiskSize, Params.extRamdiskSize] at lower upper
      omega
  case cmdline =>
    refine (halves _ _ ?_ ?_).trans cmdline
    all_goals
      intro x lower upper
      rw [settled_iff]
      simp only [Params.hdr, Hdr.cmdLinePtr, Params.extCmdLinePtr] at lower upper
      omega
  case systemTable =>
    rw [efiField, efiField]
    · exact systemTable
    all_goals
      intro x lower upper
      simp only [EfiInfoField, Params.efiLoaderSignature, Params.efiMemmapHi, Params.efiSystab,
        Params.efiSystabHi] at *
      omega
  case memoryMap =>
    unfold recordedMap at address ⊢
    rw [efiField, efiField]
    · exact address
    all_goals
      intro x lower upper
      simp only [EfiInfoField, Params.efiLoaderSignature, Params.efiMemmapHi, Params.efiMemmap] at *
      omega
  case header =>
    intro i inside kept unlinked
    have own : PreparedField (Params.hdr + i) := Or.inr ⟨by omega, by omega⟩
    have same := kept_filled stages offPage (Or.inl own) fun j here linked => unlinked (by
      rwa [Nat.add_left_cancel here])
    rw [Nat.add_assoc, same, stages.filled, ← Nat.add_assoc]
    exact filled_header _ inside kept
  case prepared => exact fun x own unlinked => kept_filled stages offPage (Or.inl own) unlinked
  case drawn => exact fun x own => kept_drawn stages offPage own
  case exited => exact fun x own => kept_exited stages offPage own
  -- padding is blank after the preparation and no later stage owns it
  case padding =>
    intro x pad
    have same := kept_filled stages offPage (Or.inr pad) fun i here linked => absurd pad (by
      simp only [Padding, InSetupData, Params.hdr, Hdr.setupData, Params.screenInfo,
        Params.sizeofScreenInfo, Params.edidInfo, Params.e820Entries, sizeofSetupHeader,
        Params.e820Table, e820MaxEntriesZeropage, sizeofBootE820Entry, sizeofBootParams] at *
      omega)
    rw [same, stages.filled]
    exact filled_padding _ pad

end Page

/-! A display, and a memory map of 129 one-page descriptors that never merge, all at
address 0. -/

def onePage (i : Nat) : UInt8 := if i % 40 = 24 then 1 else 0

def crowdedBytes : List UInt8 := (List.range 5160).map onePage

theorem crowdedBytes_at {i : Nat} (inside : i < 5160) : crowdedBytes.getD i 0 = onePage i := by
  simp [crowdedBytes, List.getD_eq_getElem?_getD, inside]

theorem crowdedBytes_length : crowdedBytes.length = 5160 := by simp [crowdedBytes]

def crowdedReply (size : Nat) : MemoryMapReply :=
  ⟨if size < 5160 then efiBufferTooSmall else efiSuccess, 5160, 1, 40, 1, crowdedBytes⟩

@[simp] theorem crowdedReply_mapSize (size : Nat) : (crowdedReply size).mapSize = 5160 := rfl

@[simp] theorem crowdedReply_descSize (size : Nat) : (crowdedReply size).descSize = 40 := rfl

@[simp] theorem crowdedReply_map (size : Nat) : (crowdedReply size).map = crowdedBytes := by
  simp only [crowdedReply]

def crowdedFirmware : Firmware := { idleFirmware with
  getMemoryMap := fun _ size _ => crowdedReply size
  locateHandleBuffer := fun _ _ => (efiSuccess, [1]) }

theorem crowdedFirmware_reply (history : History) (size buffer : Nat) :
    crowdedFirmware.getMemoryMap history size buffer = crowdedReply size := rfl

theorem crowdedFirmware_sound : AllocatorSound crowdedFirmware where
  pool := idleFirmware_sound.pool
  pages := idleFirmware_sound.pages
  text := idleFirmware_sound.text
  atAddress := idleFirmware_sound.atAddress

theorem crowdedFirmware_maps : MapsSound crowdedFirmware where
  stride := fun history size buffer => by
    rw [crowdedFirmware_reply, crowdedReply_descSize]
    decide
  fits := fun history size buffer delivered => by
    rw [crowdedFirmware_reply] at delivered ⊢
    rw [crowdedReply_mapSize]
    by_contra small
    have refused : (crowdedReply size).status = efiBufferTooSmall := if_pos (Nat.lt_of_not_le small)
    rw [refused] at delivered
    cases delivered
  bounded := fun history size buffer => by
    rw [crowdedFirmware_reply, crowdedReply_mapSize, crowdedReply_descSize]
    decide

/-- A kernel file whose header is zero but for its setup_data. -/
def listedHeader (setupData : Nat) : SetupHeader :=
  ⟨bytesAt (Hdr.setupData.set (fun _ => 0) 0 setupData) 0 sizeofSetupHeader, by simp [bytesAt]⟩

def listedFiles (setupData : Nat) : LoadedFiles :=
  ⟨efiSuccess, emptyConfig 1, listedHeader setupData, ⟨0, 0⟩, ⟨0, 0⟩⟩

theorem crowded_range {memory : Memory} {d : Nat} (bytes : ∀ j, j < 40 → memory (d + j) = onePage j) :
    rangeOf memory d = some ⟨0, 4096, e820TypeReserved⟩ := by
  have field (part : Field) (inside : part.offset + part.width ≤ 40) :
      part.get memory d = part.get onePage 0 := by
    unfold Field.get
    rw [load_shift, Nat.zero_add]
    exact load_congr fun x lower upper => bytes x (by omega)
  unfold rangeOf
  rw [field Desc.type (by decide), field Desc.physicalStart (by decide),
    field Desc.numberOfPages (by decide)]
  decide

theorem crowded_count {files : LoadedFiles} {start : World} {run : Departure crowdedFirmware files start}
    (stages : Stages run) :
    descriptorCount run.translating.mem run.params = 129 ∧ mergedCount run = 129 := by
  obtain ⟨size, reply, attempted, ⟨history, passed, base, fits, answered, status, delivered⟩, bounded,
    apart, -, exited⟩ := stages.exited
  have layout := stages.layout
  have enough := crowdedFirmware_maps.fits history passed run.memmap (answered ▸ status)
  rw [crowdedFirmware_reply] at answered enough
  have wholeSize : reply.mapSize = 5160 := by rw [answered, crowdedReply_mapSize]
  have wholeStride : reply.descSize = 40 := by rw [answered, crowdedReply_descSize]
  have wholeMap : reply.map = crowdedBytes := by rw [answered, crowdedReply_map]
  rw [crowdedReply_mapSize] at enough
  obtain ⟨address, -, mapSize, descSize, -⟩ := populateBootparamsEfi_fields crowdedFirmware.systemTable
    run.params run.memmap reply.mapSize reply.descSize (u32 reply.descVer) attempted
  rw [← exited, ← stages.idle] at address mapSize descSize
  rw [wholeSize] at mapSize
  rw [wholeStride] at descSize
  have stride : Params.efiMemdescSize.get run.translating.mem run.params = 40 := descSize
  have count : descriptorCount run.translating.mem run.params = 129 := by
    unfold descriptorCount
    rw [mapSize, stride]
    rfl
  -- the delivered map is still in place when the translation starts
  have bytes (i : Nat) (inside : i < 5160) : run.translating.mem (run.memmap + i) = onePage i := by
    have offPage : run.memmap + i < run.params ∨ run.params + sizeofBootParams ≤ run.memmap + i := by
      have within : i < size := Nat.lt_of_lt_of_le inside (enough.trans fits)
      unfold Apart at apart
      omega
    rw [stages.idle, exited, populateBootparamsEfi_frame, delivered, wholeMap,
      List.take_of_length_le (by rwa [crowdedBytes_length]),
      storeBytes_at _ _ _ _ (by rwa [crowdedBytes_length])]
    · exact crowdedBytes_at inside
    · simp only [Params.efiLoaderSignature, Params.efiMemmapHi, sizeofBootParams] at *
      omega
  have place : descriptorAt run.translating.mem run.params 0 = run.memmap := by
    have whole : u64 run.memmap = run.memmap := Nat.mod_eq_of_lt (by omega)
    unfold recordedMap at address
    unfold descriptorAt
    rw [address, whole, Nat.zero_mul, Nat.add_zero]
    exact whole
  -- 129 equal descriptors start at page zero, so no two of them join
  have ranges : inputRanges run.translating.mem run.params 129 =
      List.replicate 129 (some ⟨0, 4096, e820TypeReserved⟩) := by
    refine List.eq_replicate_iff.mpr ⟨by simp [inputRanges], fun range member => ?_⟩
    obtain ⟨i, inside, rfl⟩ := List.mem_map.mp member
    have index := List.mem_range.mp inside
    rw [descriptorAt_spaced layout i (count ▸ index), place, stride]
    refine crowded_range fun j bound => ?_
    rw [Nat.add_assoc, bytes (i * 40 + j) (by omega)]
    unfold onePage
    congr 2
    omega
  refine ⟨count, ?_⟩
  unfold mergedCount mergedEntries
  rw [count, ranges]
  decide +kernel

/-- Whether the run gets as far as the exit, with the parameters and the node where
the firmware puts them. -/
def departs (setupData : Nat) : Bool :=
  match prepareHandoff crowdedFirmware (listedFiles setupData) bootWorld with
  | (.ok prepared, sized) => decide (prepared.params = 0x1000000 ∧ prepared.e820ext.node = 0x100292a ∧
      prepared.e820ext.size = 2596 ∧ (wbootExitBs crowdedFirmware 0x1000000
        (printf crowdedFirmware (wide "[wboot] exiting boot services!\r\n") [] sized).2).1 ≠ 0)
  | (.error _, _) => false

theorem listed_departs {setupData : Nat} (departs : departs setupData = true) :
    ∃ run : Departure crowdedFirmware (listedFiles setupData) bootWorld,
      run.params = 0x1000000 ∧ run.e820ext.node = 0x100292a ∧ run.e820ext.size = 2596 := by
  unfold ZeroPage.departs at departs
  generalize run : prepareHandoff crowdedFirmware (listedFiles setupData) bootWorld = outcome at departs
  obtain ⟨outcome, sized⟩ := outcome
  cases outcome with
  | error status => cases departs
  | ok prepared =>
      obtain ⟨place, node, size, mapped⟩ := of_decide_eq_true departs
      rw [← place] at mapped
      obtain ⟨departure, params, e820ext⟩ := prepared_departs run mapped
      rw [← e820ext] at node size
      exact ⟨departure, params.trans place, node, size⟩

theorem listed_composes {setupData : Nat} (departs : departs setupData = true)
    (ends : ∀ run : Departure crowdedFirmware (listedFiles setupData) bootWorld, Stages run →
      run.params = 0x1000000 → run.e820ext.node = 0x100292a → run.e820ext.size = 2596 →
      WalkEnds run.translating.toRam run.params run.e820ext.node run.e820ext.size) :
    ∃ run : Composition crowdedFirmware (listedFiles setupData) bootWorld,
      run.params = 0x1000000 ∧ run.e820ext.node = 0x100292a ∧ run.e820ext.size = 2596 := by
  obtain ⟨run, place, node, size⟩ := listed_departs departs
  have stages := departure_stages crowdedFirmware_sound crowdedFirmware_maps rfl run
  have accepted (i : Nat) (overflows : overflowIndex run.translating.mem run.params = some i) :
      refusedAt run.e820ext.node run.e820ext.size (descriptorCount run.translating.mem run.params) i =
        false := by
    obtain ⟨count, -⟩ := crowded_count stages
    obtain ⟨-, full, -⟩ := (overflowIndex_iff _ _ i).mp overflows
    have late := mergedEntries_length run.translating.mem run.params i
    have roomy : ¬ (run.e820ext.node = 0 ∨ run.e820ext.size <
        needBytes (descriptorCount run.translating.mem run.params) i) := by
      have small : (129 - i) * sizeofBootE820Entry + sizeofSetupHeader < 2 ^ 32 := by
        simp only [sizeofBootE820Entry, sizeofSetupHeader]
        omega
      rw [full] at late
      rw [count, node, size, needBytes, u32, Nat.mod_eq_of_lt small]
      simp only [sizeofBootE820Entry, sizeofSetupHeader, e820MaxEntriesZeropage] at *
      omega
    exact decide_eq_false roomy
  have success := (translation_succeeds_iff stages.layout accepted).mpr (ends run stages place node size)
  exact ⟨{ toDeparture := run, translated := _, translates := Prod.ext success rfl }, place, node, size⟩

/-! ### Two kernel files -/

section Listed
variable {setupData : Nat} {run : Departure crowdedFirmware (listedFiles setupData) bootWorld}

theorem listed_setupData (stages : Stages run) :
    Hdr.setupData.get run.translating.mem (run.params + Params.hdr) = setupData % 256 ^ Hdr.setupData.width := by
  have bytes (i : Nat) (linked : InSetupData i) : run.translating.mem (run.params + Params.hdr + i) =
      Hdr.setupData.set (fun _ => 0) 0 setupData i := by
    have inside : i < sizeofSetupHeader := by
      simp only [InSetupData, Hdr.setupData, sizeofSetupHeader] at *
      omega
    have kept : ¬ SetByLoader i := by
      simp only [InSetupData, SetByLoader, Hdr.setupData, Hdr.typeOfLoader, Hdr.ramdiskImage,
        Hdr.ramdiskSize, Hdr.cmdLinePtr, Hdr.initrdAddrMax, Hdr.cmdlineSize] at *
      omega
    have own : PreparedField (Params.hdr + i) := Or.inr ⟨by omega, by omega⟩
    rw [stages.idle, Nat.add_assoc, exited_filled stages (Or.inl own), stages.filled, ← Nat.add_assoc,
      filled_header _ inside kept]
    simp [listedFiles, listedHeader, bytesAt, inside]
  rw [← Hdr.setupData.get_set_same (fun _ => 0) 0 setupData]
  unfold Field.get
  rw [load_shift, Nat.zero_add]
  exact load_congr fun x lower upper => bytes x ⟨lower, upper⟩

end Listed

/-- Without a list there is nothing in the page to walk. -/
theorem zero_setup_data_walk {run : Departure crowdedFirmware (listedFiles 0) bootWorld} (stages : Stages run)
    (apart : Apart run.params sizeofBootParams run.e820ext.node sizeofSetupData) (nrEntries : Nat) :
    lastSetupNode run.translating.toRam run.params run.e820ext.node run.e820ext.size nrEntries = some 0 := by
  have empty : SetupList run.translating.mem
      (Hdr.setupData.get run.translating.mem (run.params + Params.hdr)) [] := listed_setupData stages
  exact lastSetupNode_of_list stages.layout empty (fun node member => absurd member List.not_mem_nil)
    apart nrEntries

theorem zero_setup_data_ends (run : Composition crowdedFirmware (listedFiles 0) bootWorld) :
    EndsOffPage run.toDeparture := by
  intro long last walk linked
  have stages := departure_stages crowdedFirmware_sound crowdedFirmware_maps rfl run.toDeparture
  have success : (wbootTranslateMemmap run.params run.e820ext.node run.e820ext.size
      run.translating.toRam).1 = some efiSuccess := congrArg Prod.fst run.translates
  obtain ⟨-, ⟨short, -⟩ | ⟨-, present, room, -⟩⟩ := translation_links stages.layout success
  · exact absurd long (Nat.not_lt.mpr short)
  · have apart := stages.layout.extApart present
    have empty := zero_setup_data_walk stages (by unfold Apart at *; omega)
      (mergedCount run.toDeparture - e820MaxEntriesZeropage)
    exact absurd (Option.some.inj (walk.symm.trans empty)) linked

theorem zero_setup_data_departs : departs 0 = true := by decide +kernel

theorem crowded_page_decodes :
    ∃ run : Composition crowdedFirmware (listedFiles 0) bootWorld, Decodes run := by
  obtain ⟨run, -⟩ := listed_composes zero_setup_data_departs fun run stages place node size =>
    walkEnds_of_last (zero_setup_data_walk stages (by rw [place, node]; decide))
  exact ⟨run, zero_page_decodes crowdedFirmware_sound crowdedFirmware_maps rfl run
    (zero_setup_data_ends run)⟩

/-- The same whatever the setup_data of the kernel file is. -/
def EveryPageDecodes : Prop :=
  ∀ (fw : Firmware) (files : LoadedFiles) (start : World) (run : Composition fw files start),
    AllocatorSound fw → MapsSound fw → start.bsExited = false → Decodes run

theorem padding_setup_data_departs : departs 0x1000040 = true := by decide +kernel

theorem blank_padding {setupData : Nat} {run : Departure crowdedFirmware (listedFiles setupData) bootWorld}
    (stages : Stages run) (x : Nat) (pad : Padding x) : run.translating.mem (run.params + x) = 0 := by
  rw [stages.idle, exited_filled stages (Or.inr pad), stages.filled]
  exact filled_padding _ pad

theorem padding_setup_data_walk {run : Departure crowdedFirmware (listedFiles 0x1000040) bootWorld}
    (stages : Stages run) (place : run.params = 0x1000000) (node : run.e820ext.node = 0x100292a)
    (size : run.e820ext.size = 2596) (nrEntries : Nat) :
    lastSetupNode run.translating.toRam run.params run.e820ext.node run.e820ext.size nrEntries =
      some 0x1000040 := by
  -- the node in the padding reads as zeros, so it ends its list
  have ended : Node.next.get run.translating.mem 0x1000040 = 0 := by
    have zeros : load (fun _ => 0) (0x1000040 + Node.next.offset) Node.next.width = 0 := by decide
    rw [← zeros]
    refine Field.get_congr _ fun x lower upper => ?_
    have pad : Padding (x - 0x1000000) := by
      simp only [Padding, Params.screenInfo, Params.sizeofScreenInfo, Node.next] at *
      omega
    have here : 0x1000000 + (x - 0x1000000) = x := by
      simp only [Node.next] at lower
      omega
    have byte := blank_padding stages _ pad
    rwa [place, here] at byte
  have list : SetupList run.translating.mem
      (Hdr.setupData.get run.translating.mem (run.params + Params.hdr)) [0x1000040] :=
    ⟨listed_setupData stages, by decide, ended⟩
  refine lastSetupNode_of_list stages.layout list ?_ ?_ nrEntries
  · intro last member x lower upper
    rw [List.mem_singleton.mp member] at lower upper
    rw [place, node, size]
    refine ⟨?_, Or.inl (by omega)⟩
    simp only [Writable, Params.e820Table, sizeofSetupData]
    omega
  · rw [place, node]
    decide

/-- A node in `_pad1` is the last of its list, and the padding gets the address of the
new one. -/
theorem node_in_padding_overwritten : ¬ EveryPageDecodes := by
  intro every
  obtain ⟨run, place, node, size⟩ := listed_composes padding_setup_data_departs
    fun run stages place node size => walkEnds_of_last (padding_setup_data_walk stages place node size)
  have padding := (every _ _ _ run crowdedFirmware_sound crowdedFirmware_maps rfl).padding
  have stages := departure_stages crowdedFirmware_sound crowdedFirmware_maps rfl run.toDeparture
  have success : (wbootTranslateMemmap run.params run.e820ext.node run.e820ext.size
      run.translating.toRam).1 = some efiSuccess := congrArg Prod.fst run.translates
  have result : (wbootTranslateMemmap run.params run.e820ext.node run.e820ext.size
      run.translating.toRam).2 = run.translated := congrArg Prod.snd run.translates
  obtain ⟨-, ⟨short, -⟩ | ⟨-, present, room, last, walk, links⟩⟩ := translation_links stages.layout success
  · have long : mergedCount run.toDeparture ≤ e820MaxEntriesZeropage := short
    rw [(crowded_count stages).2] at long
    exact absurd long (by decide)
  -- the link is stored in the node, and with it in the padding of the page
  · obtain rfl := Option.some.inj (walk.symm.trans (padding_setup_data_walk stages place node size _))
    rw [result, place, node] at links
    have byte := padding 0x40 (Or.inl ⟨by decide, by decide⟩)
    have written (memory : Memory) : store memory 0x1000040 8 0x100292a 0x1000040 = 0x2a := rfl
    rw [place, links, linkedMemory, Field.set_frame _ _ _ _ _ (Or.inl (by decide))] at byte
    exact absurd ((written _).symm.trans byte) (by decide)

end Wboot.ZeroPage
