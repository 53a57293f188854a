import Wboot.BootLimits
import Wboot.StandingImage
import Wboot.Volumes

/-! What reaches the kernel. The configuration and the files are loaded, then the boot
parameters are composed, then boot services end, the memory map is translated and the
segments of the kernel are placed; no step spoils what an earlier one has left for the kernel. -/

namespace Wboot.Delivery
open StateProgram ByteMemory CString Machine LinuxBoot Wstdlib Effects ConfigParser ConfigGrammar ConfigHeap KernelImage
  BootParams Graphics E820Sizing E820Translation ExitBootServices ElfPlacement SegmentCopy Blocks CommandLine Phase3
  ServiceEnd Handoff ZeroPage Survival KernelCleanup InitramfsCleanup KernelPages Preservation Volumes StandingImage

/-! ### A kernel file that names no setup_data -/

section Departing
variable {fw : Firmware} {files : LoadedFiles} {start : World}

theorem setupData_filled {run : Departure fw files start} (stages : Stages run) :
    Hdr.setupData.get run.translating.mem (run.params + Params.hdr) = files.header.get Hdr.setupData := by
  have bytes (i : Nat) (linked : InSetupData i) :
      run.translating.mem (run.params + Params.hdr + i) = files.header.bytes.getD i 0 := by
    have inside : i < sizeofSetupHeader := by
      simp only [InSetupData, Hdr.setupData, sizeofSetupHeader] at *
      omega
    have kept : ¬ SetByLoader i := by
      simp only [InSetupData, SetByLoader, Hdr.setupData, Hdr.typeOfLoader, Hdr.ramdiskImage,
        Hdr.ramdiskSize, Hdr.cmdLinePtr, Hdr.initrdAddrMax, Hdr.cmdlineSize] at *
      omega
    have own : PreparedField (Params.hdr + i) := Or.inr ⟨by omega, by omega⟩
    rw [stages.idle, Nat.add_assoc, exited_filled stages (Or.inl own), stages.filled, ← Nat.add_assoc,
      filled_header _ inside kept]
  unfold Field.get SetupHeader.get Field.get
  rw [load_shift, Nat.zero_add]
  exact load_congr fun x lower upper => bytes x ⟨lower, upper⟩

/-- The node for the entries past the page is linked in the page, if at all. -/
theorem unlisted_link {run : Composition fw files start} (stages : Stages run.toDeparture)
    (unlisted : files.header.get Hdr.setupData = 0) (long : e820MaxEntriesZeropage < mergedCount run.toDeparture)
    (nrEntries : Nat) : sizeofSetupData ≤ run.e820ext.size ∧ run.e820ext.node ≠ 0 ∧
      lastSetupNode run.translating.toRam run.params run.e820ext.node run.e820ext.size nrEntries = some 0 := by
  have success : (wbootTranslateMemmap run.params run.e820ext.node run.e820ext.size
      run.translating.toRam).1 = some efiSuccess := congrArg Prod.fst run.translates
  have empty : SetupList run.translating.mem
      (Hdr.setupData.get run.translating.mem (run.params + Params.hdr)) [] := (setupData_filled stages).trans unlisted
  obtain ⟨-, ⟨short, -⟩ | ⟨-, present, room, -⟩⟩ := translation_links stages.layout success
  · exact absurd long (Nat.not_lt.mpr short)
  · have apart := stages.layout.extApart present
    refine ⟨room, present, lastSetupNode_of_list stages.layout empty ?_ ?_ nrEntries⟩
    · exact fun node member => absurd member List.not_mem_nil
    · unfold Apart at *
      omega

theorem unlisted_ends {run : Composition fw files start} (stages : Stages run.toDeparture)
    (unlisted : files.header.get Hdr.setupData = 0) : EndsOffPage run.toDeparture :=
  fun long _ walk linked =>
    absurd (Option.some.inj (walk.symm.trans (unlisted_link stages unlisted long _).2.2)) linked

/-- A block that was there with the files is after the translation as it was. -/
theorem composition_keeps {run : Composition fw files start} {block : Block} (stages : Stages run.toDeparture)
    (unlisted : files.header.get Hdr.setupData = 0) (undisturbed : Undisturbed run.toDeparture block) :
    SameOn run.translated.mem start.mem block.start block.size := by
  intro x lower upper
  have success : (wbootTranslateMemmap run.params run.e820ext.node run.e820ext.size
      run.translating.toRam).1 = some efiSuccess := congrArg Prod.fst run.translates
  have result : (wbootTranslateMemmap run.params run.e820ext.node run.e820ext.size
      run.translating.toRam).2 = run.translated := congrArg Prod.snd run.translates
  have offPage := undisturbed.params
  rw [← undisturbed.same x lower upper, ← result]
  apply translation_frame stages.layout success
  · rintro (inTable | ⟨present, inExt⟩)
    · simp only [Apart, Params.e820Table, e820MaxEntriesZeropage, sizeofBootE820Entry, sizeofBootParams] at *
      omega
    · have offNode := undisturbed.e820ext present
      unfold Apart at offNode
      omega
  · simp only [Apart, Params.e820Entries, sizeofBootParams] at *
    omega
  · intro nrEntries count some
    have long : e820MaxEntriesZeropage < mergedCount run.toDeparture := by
      unfold mergedCount
      omega
    obtain ⟨room, present, empty⟩ := unlisted_link stages unlisted long nrEntries
    have offNode := undisturbed.e820ext present
    refine ⟨by simp only [Apart] at *; omega, fun last walk => ?_⟩
    rw [empty] at walk
    rw [← Option.some.inj walk, linkField, if_pos rfl]
    simp only [Apart, Params.hdr, Hdr.setupData, sizeofBootParams] at *
    omega

theorem joined_congr {left right : Memory} {params : Nat} (same : SameOn left right params sizeofBootParams)
    (low high : Field) (inHeader : Params.hdr + low.offset + low.width ≤ sizeofBootParams)
    (inPage : high.offset + high.width ≤ sizeofBootParams) : joined left params low high = joined right params low high := by
  unfold joined
  rw [low.get_congr fun x lower upper => same x (by omega) (by omega),
    high.get_congr fun x lower upper => same x (by omega) (by omega)]

/-- A pointer in two halves, before setup_data in the header and below the header in the page. -/
theorem kept_pointer {run : Composition fw files start} (stages : Stages run.toDeparture)
    (offPage : EndsOffPage run.toDeparture) {low high : Field}
    (inHeader : low.offset + low.width ≤ Hdr.setupData.offset)
    (above : Params.extRamdiskImage.offset ≤ high.offset)
    (below : high.offset + high.width ≤ Params.extCmdLinePtr.offset + Params.extCmdLinePtr.width) :
    joined run.translated.mem run.params low high =
      joined (filledMemory files.config files.header files.initramfs run.params run.greeted.mem) run.params low high := by
  rw [← stages.filled]
  refine kept_halves stages offPage low high ?_ ?_
  all_goals
    intro x lower upper
    rw [settled_iff]
    simp only [Params.hdr, Hdr.setupData, Params.extRamdiskImage, Params.extCmdLinePtr] at *
    omega

end Departing

/-! ### The handoff -/

section Handing
variable {fw : Firmware} {zstd : Zstd} {stack : SetupHeader} {start : World}

/-- An image that can be placed from where the header wants it: its segments lie in the
range that the header asks for, and none is copied over what is yet to be read. -/
structure Suited (header : SetupHeader) (image : List UInt8) : Prop where
  wellFormed : WellFormed (standing (header.get Hdr.prefAddress) image) (header.get Hdr.prefAddress) image.length
  headers : HeadersLeft Misses (standing (header.get Hdr.prefAddress) image) (header.get Hdr.prefAddress)
  sources : SourcesLeft (standing (header.get Hdr.prefAddress) image) (header.get Hdr.prefAddress)
  inside : ∀ segment ∈ loadSegments (standing (header.get Hdr.prefAddress) image) (header.get Hdr.prefAddress)
      (Ehdr.phnum.get (standing (header.get Hdr.prefAddress) image) (header.get Hdr.prefAddress)),
    SegmentInside ⟨.pages, header.get Hdr.prefAddress, header.get Hdr.initSize⟩ segment

/-- Files the loader can boot: the strings of the configuration are above what is written
through NULL, the header names no setup_data, and the preferred pages were granted for
an image that suits them. -/
structure Bootable (stock : Nat → List UInt16 → List UInt8) (firstFrame : List UInt8 → Option (Nat × List UInt8))
    (files : LoadedFiles) : Prop where
  above : ∀ field, nullBytes ≤ pointer files.config field
  unlisted : files.header.get Hdr.setupData = 0
  granted : files.kernel.pointer = files.header.get Hdr.prefAddress
  suited : ∀ length image, firstFrame (payloadIn stock files) = some (length, image) → Suited files.header image

def cmdlineAt (memory : Memory) (params : Nat) : Nat := joined memory params Hdr.cmdLinePtr Params.extCmdLinePtr

def initramfsAt (memory : Memory) (params : Nat) : Nat := joined memory params Hdr.ramdiskImage Params.extRamdiskImage

/-- The kernel, its command line and its initramfs are the files of the volume, where the
boot parameters say. -/
structure Delivers (stock : Nat → List UInt16 → List UInt8) (firstFrame : List UInt8 → Option (Nat × List UInt8))
    (files : LoadedFiles) (params entry : Nat) (memory : Memory) : Prop where
  grammar : Grammar (confOf stock files)
  cmdline : StringAt memory (cmdlineAt memory params) (settingOf (confOf stock files) .cmdline)
  initramfs : TextAt memory (initramfsAt memory params) (initrdOf stock files)
  initramfsSize : joined memory params Hdr.ramdiskSize Params.extRamdiskSize = (initrdOf stock files).length
  header : ∀ i, i < sizeofSetupHeader → ¬ SetByLoader i → ¬ InSetupData i →
    memory (params + Params.hdr + i) = (kernelOf stock files).getD (0x1f1 + i) 0
  kernel : ∃ length image, firstFrame (payloadIn stock files) = some (length, image) ∧ Suited files.header image ∧
    PlacedExactly (standing (files.header.get Hdr.prefAddress) image) memory (files.header.get Hdr.prefAddress) entry

/-- What the kernel finds through the boot parameters, and itself. -/
def Needed (stock : Nat → List UInt16 → List UInt8) (files : LoadedFiles) (params : Nat) (memory : Memory)
    (x : Nat) : Prop :=
  (params ≤ x ∧ x < params + sizeofBootParams) ∨
    (cmdlineAt memory params ≤ x ∧ x ≤ cmdlineAt memory params + (settingOf (confOf stock files) .cmdline).length) ∨
    (initramfsAt memory params ≤ x ∧ x < initramfsAt memory params + (initrdOf stock files).length) ∨
    (files.header.get Hdr.prefAddress ≤ x ∧ x < files.header.get Hdr.prefAddress + files.header.get Hdr.initSize)

/-- Whoever leaves these bytes alone keeps the delivery. -/
theorem Delivers.kept {stock : Nat → List UInt16 → List UInt8} {firstFrame : List UInt8 → Option (Nat × List UInt8)}
    {files : LoadedFiles} {params entry : Nat} {memory later : Memory}
    (delivers : Delivers stock firstFrame files params entry memory)
    (same : ∀ x, Needed stock files params memory x → later x = memory x) :
    Delivers stock firstFrame files params entry later := by
  have page : SameOn later memory params sizeofBootParams := fun x lower upper => same x (Or.inl ⟨lower, upper⟩)
  have cmdline : cmdlineAt later params = cmdlineAt memory params := joined_congr page _ _ (by decide) (by decide)
  have initramfs : initramfsAt later params = initramfsAt memory params :=
    joined_congr page _ _ (by decide) (by decide)
  obtain ⟨length, image, first, suited, placed⟩ := delivers.kernel
  refine ⟨delivers.grammar, ?_, ?_, ?_, fun i inside own unlinked => ?_, length, image, first, suited, ?_⟩
  · rw [cmdline]
    refine (stringAt_congr fun x lower upper => ?_).mpr delivers.cmdline
    exact same x (Or.inr (Or.inl ⟨lower, by omega⟩))
  · rw [initramfs]
    refine (textAt_congr fun x lower upper => ?_).mpr delivers.initramfs
    exact same x (Or.inr (Or.inr (Or.inl ⟨lower, upper⟩)))
  · rw [joined_congr page _ _ (by decide) (by decide)]
    exact delivers.initramfsSize
  · rw [← delivers.header i inside own unlinked]
    refine page _ (by omega) ?_
    simp only [Params.hdr, sizeofBootParams, sizeofSetupHeader] at *
    omega
  · -- every byte of a segment is in the range of the header
    have needed {i k : Nat} (bound : i < Ehdr.phnum.get (standing (files.header.get Hdr.prefAddress) image)
          (files.header.get Hdr.prefAddress))
        (load : isLoad (standing (files.header.get Hdr.prefAddress) image) (files.header.get Hdr.prefAddress) i = true)
        (inside : k < Phdr.memsz.get (standing (files.header.get Hdr.prefAddress) image)
          (headerAt (standing (files.header.get Hdr.prefAddress) image) (files.header.get Hdr.prefAddress) i)) :
        let x := Phdr.paddr.get (standing (files.header.get Hdr.prefAddress) image)
          (headerAt (standing (files.header.get Hdr.prefAddress) image) (files.header.get Hdr.prefAddress) i) + k
        later x = memory x := by
      obtain ⟨low, high⟩ := suited.inside _ (mem_loadSegments _ _ i bound load)
      simp only [segmentAt] at low high
      exact same _ (Or.inr (Or.inr (Or.inr ⟨by omega, by omega⟩)))
    refine ⟨fun i bound load k copied => ?_, fun i bound load k cleared inside => ?_, placed.entry⟩
    · have fits := suited.wellFormed.sizes i bound load
      rw [needed bound load (by omega), placed.file i bound load k copied]
    · rw [needed bound load inside, placed.zero i bound load k cleared inside]

/-- The placement, over the translated memory. -/
structure Lands (run : HandoffRun fw zstd stack start) (image : List UInt8) : Prop where
  exact : PlacedExactly (standing (run.files.header.get Hdr.prefAddress) image) run.placing.2.mem
    (run.files.header.get Hdr.prefAddress) run.placing.1
  outside : ∀ address count, Apart (reserved run.files).start (reserved run.files).size address count →
    SameOn run.placing.2.mem run.composition.translated.mem address count

theorem handoff_lands {run : HandoffRun fw zstd stack start} {image : List UInt8}
    (granted : run.files.kernel.pointer = run.files.header.get Hdr.prefAddress)
    (suited : Suited run.files.header image)
    (here : TextAt run.composition.translated.mem (run.files.header.get Hdr.prefAddress) image) : Lands run image := by
  have same : SameOn (standing (run.files.header.get Hdr.prefAddress) image) run.composition.translated.mem
      (run.files.header.get Hdr.prefAddress) image.length :=
    fun x lower upper => (standing_sameOn here x lower upper).symm
  have headers := sameHeaders same suited.wellFormed
  obtain ⟨exact, outside⟩ := places (wellFormed_congr same suited.wellFormed)
    (headersMissed_congr same suited.wellFormed suited.headers)
    (sourcesLeft_congr same suited.wellFormed suited.sources) run.composition.translated.accesses
  rw [← granted] at exact outside
  refine ⟨placedExactly_congr same suited.wellFormed (granted ▸ exact), fun address count apart x lower upper =>
    outside x fun segment member covers => ?_⟩
  -- segments lie in the range of the header, for which there are pages
  rw [granted, headers.phnum, headers.loadSegments (Nat.le_refl _)] at member
  obtain ⟨low, high⟩ := suited.inside segment member
  obtain ⟨first, last⟩ := covers
  simp only [Apart, reserved, kernelBlock, kernelPages, efiPageSize] at apart low high
  omega

section Assembling
variable {stock : Nat → List UInt16 → List UInt8} {firstFrame : List UInt8 → Option (Nat × List UInt8)}
  {run : HandoffRun fw zstd stack start}

/-- The kernel is placed, and outside its pages there is what was there before. -/
structure Handed (stock : Nat → List UInt16 → List UInt8) (firstFrame : List UInt8 → Option (Nat × List UInt8))
    (run : HandoffRun fw zstd stack start) : Prop where
  stages : Stages run.composition.toDeparture
  offPage : EndsOffPage run.composition.toDeparture
  page : SameOn run.placing.2.mem run.composition.translated.mem run.composition.params sizeofBootParams
  stays : ∀ block ∈ live run.loaded.history, ∀ address count,
    block.start ≤ address ∧ address + count ≤ block.start + block.size →
      Apart (reserved run.files).start (reserved run.files).size address count →
        SameOn run.placing.2.mem run.loaded.mem address count
  kernel : ∃ length image, firstFrame (payloadIn stock run.files) = some (length, image) ∧
    Suited run.files.header image ∧ PlacedExactly (standing (run.files.header.get Hdr.prefAddress) image)
      run.placing.2.mem (run.files.header.get Hdr.prefAddress) run.placing.1

theorem brought_handed (sound : AllocatorSound fw) (maps : MapsSound fw) (reserves : Reserves run.loading)
    (brought : Brought stock firstFrame run.files run.loaded) (bootable : Bootable stock firstFrame run.files) :
    Handed stock firstFrame run := by
  have stages := departure_stages sound maps reserves.early run.composition.toDeparture
  have kept (block : Block) (held : block ∈ live run.loaded.history) :
      SameOn run.composition.translated.mem run.loaded.mem block.start block.size :=
    composition_keeps stages bootable.unlisted
      (departure_undisturbed sound maps reserves.early run.composition.toDeparture held)
  obtain ⟨length, image, first, fits, stands⟩ := brought.image
  have translated : TextAt run.composition.translated.mem run.files.kernel.pointer image := by
    refine (textAt_congr fun x lower upper => ?_).mpr stands
    refine kept _ reserves.lives x lower ?_
    simp only [reserved, kernelBlock, kernelPages, efiPageSize]
    omega
  have suited := bootable.suited length image first
  have lands := handoff_lands bootable.granted suited (bootable.granted ▸ translated)
  have undisturbed := departure_undisturbed sound maps reserves.early run.composition.toDeparture reserves.lives
  exact
    { stages
      offPage := unlisted_ends stages bootable.unlisted
      page := lands.outside _ _ (Or.symm undisturbed.params)
      stays := fun block held address count inside free x lower upper =>
        (lands.outside _ _ free x lower upper).trans (kept block held x (by omega) (by omega))
      kernel := ⟨length, image, first, suited, lands.exact⟩ }

/-- Each pointer is in the page as it was filled in. -/
theorem Handed.decodes (handed : Handed stock firstFrame run) {low high : Field} {value : Nat}
    (inHeader : low.offset + low.width ≤ Hdr.setupData.offset) (floor : Params.extRamdiskImage.offset ≤ high.offset)
    (below : high.offset + high.width ≤ Params.extCmdLinePtr.offset + Params.extCmdLinePtr.width)
    (filled : joined (filledMemory run.files.config run.files.header run.files.initramfs run.composition.params
      run.composition.greeted.mem) run.composition.params low high = u64 value) (small : value < 2 ^ 64) :
    joined run.placing.2.mem run.composition.params low high = value := by
  calc joined run.placing.2.mem run.composition.params low high
      = joined run.composition.translated.mem run.composition.params low high := by
        refine joined_congr handed.page low high ?_ ?_
        all_goals
          simp only [Params.hdr, Hdr.setupData, Params.extCmdLinePtr, sizeofBootParams] at *
          omega
    _ = u64 value := (kept_pointer handed.stages handed.offPage inHeader floor below).trans filled
    _ = value := Nat.mod_eq_of_lt small

theorem Handed.cmdlineAt (handed : Handed stock firstFrame run) (brought : Brought stock firstFrame run.files run.loaded) :
    cmdlineAt run.placing.2.mem run.composition.params = run.files.config.cmdline :=
  handed.decodes (by decide) (by decide) (by decide) (filled_halves _).2.2 (brought.bounded .cmdline)

theorem Handed.initramfsAt (handed : Handed stock firstFrame run)
    (brought : Brought stock firstFrame run.files run.loaded) (some : 0 < run.files.initramfs.size) :
    initramfsAt run.placing.2.mem run.composition.params = run.files.initramfs.pointer := by
  refine handed.decodes (by decide) (by decide) (by decide) (filled_halves _).1 ?_
  have last := brought.narrow
  have pages : 0 < initramfsPages run.files.initramfs.size * efiPageSize := by
    have first := brought.room
    omega
  simp only [initramfsBlock] at last
  omega

theorem brought_delivers (stocked : Stocked fw stock) (reserves : Reserves run.loading)
    (brought : Brought stock firstFrame run.files run.loaded) (handed : Handed stock firstFrame run) :
    Delivers stock firstFrame run.files run.composition.params run.placing.1 run.placing.2.mem := by
  obtain ⟨sizes, carried, apart⟩ := brought.carried
  have file := brought.initramfs
  constructor
  case grammar => exact brought.grammar
  case kernel => exact handed.kernel
  case cmdline =>
    rw [handed.cmdlineAt brought]
    have string := carried.cmdline (settingOf_text (stocked.text _) .cmdline).2
    have fits := carried.room .cmdline
    simp only [encoded, List.length_append, List.length_singleton] at fits
    refine (stringAt_congr (handed.stays _ (carried.lives .cmdline) _ _ ⟨Nat.le_refl _, ?_⟩ ?_)).mpr string
    · exact Nat.add_le_add_left fits _
    · have free := apart .cmdline
      simp only [Apart, pointer] at free ⊢
      omega
  case initramfs =>
    -- an empty file has no bytes that could be missing
    rcases Nat.eq_zero_or_pos run.files.initramfs.size with none | some
    · rw [List.eq_nil_of_length_eq_zero (file.size.symm.trans none)]
      trivial
    rw [handed.initramfsAt brought some]
    refine (textAt_congr (handed.stays _ brought.pages _ _ ⟨Nat.le_refl _, ?_⟩ ?_)).mpr file.text
    · rw [← file.size]
      exact Nat.add_le_add_left brought.room _
    · rw [← file.size]
      exact reserves.initramfs
  case initramfsSize =>
    have long := stocked.bounded run.files.config.root (pathOf (confOf stock run.files) .initrd)
    refine (handed.decodes (by decide) (by decide) (by decide) (filled_halves _).2.1 ?_).trans file.size
    rw [file.size]
    exact (Nat.lt_of_succ_lt long).trans (by decide)
  case header =>
    intro i inside own unlinked
    have field : PreparedField (Params.hdr + i) := Or.inr ⟨by omega, by omega⟩
    have bytes := kept_filled handed.stages handed.offPage (Or.inl field) fun j here linked =>
      absurd (Nat.add_left_cancel here ▸ linked) unlinked
    have inPage : Params.hdr + i < sizeofBootParams := (others_apart (Or.inl field)).1
    rw [handed.page _ (by omega) (by omega), Nat.add_assoc, bytes, handed.stages.filled, ← Nat.add_assoc,
      filled_header _ inside own, brought.header]
    simp [List.getD_eq_getElem?_getD, inside]

/-- The command line whose length the header limits is the text of `wboot.conf`, and the
one that the kernel finds. -/
theorem brought_cmdlineLength (sound : AllocatorSound fw) (early : start.bsExited = false)
    (stocked : Stocked fw stock) (reserves : Reserves run.loading)
    (brought : Brought stock firstFrame run.files run.loaded) (handed : Handed stock firstFrame run) :
    BootLimits.cmdlineLength run = (settingOf (confOf stock run.files) .cmdline).length ∧
      strlen8 run.placing.2.mem (cmdlineAt run.placing.2.mem run.composition.params) =
        (settingOf (confOf stock run.files) .cmdline).length := by
  obtain ⟨sizes, carried, -⟩ := brought.carried
  obtain ⟨short, nonzero⟩ := settingOf_text (stocked.text run.files.config.root) .cmdline
  have bounded := stocked.bounded run.files.config.root (wide "wboot.conf")
  have small : (settingOf (confOf stock run.files) .cmdline).length < addressSpace := by
    rw [addressSpace_eq]
    exact (short.trans_lt (Nat.lt_of_succ_lt bounded)).trans (by decide)
  have length {memory : Memory} {p : Nat}
      (string : StringAt memory p (settingOf (confOf stock run.files) .cmdline)) :
      strlen8 memory p = (settingOf (confOf stock run.files) .cmdline).length :=
    congrArg List.length (cstring_at small string)
  have loaded := length (carried.cmdline nonzero)
  have fits := carried.room .cmdline
  simp only [encoded, List.length_append, List.length_singleton] at fits
  have owns : OwnsCmdline run.files.config run.loaded :=
    ⟨sizes .cmdline, carried.lives .cmdline, loaded.trans_lt fits⟩
  refine ⟨?_, length (brought_delivers stocked reserves brought handed).cmdline⟩
  rw [BootLimits.cmdlineLength_configured sound early run,
    BootLimits.configuredLength_loaded sound early run owns (brought.bounded .cmdline), loaded]

end Assembling

end Handing

end Wboot.Delivery
