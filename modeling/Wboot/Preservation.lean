import Wboot.ConfigHeap
import Wboot.KernelCleanup

/-! Blocks that keep their bytes while the files are loaded. Every write of the loader goes
into a block it has just been given, which lies apart from all that was live before; the
one exception is the temporary buffer of `%-s`, which is written through NULL when it was
refused, so what is kept over such a message lies above the bytes that are written there. -/

namespace Wboot.Preservation
open StateProgram ByteMemory CString Machine LinuxBoot Wstdlib PrintfPieces Effects ConfigParser ConfigGrammar
  ConfigHeap KernelImage BootParams Blocks Phase3 Handoff Survival

/-- A live block stays live, the services stay up, and its bytes are what they were. -/
def Guards (block : Block) (before after : World) : Prop :=
  Held block before → Held block after ∧ SameOn after.mem before.mem block.start block.size

instance (block : Block) : IsPreorder World (Guards block) where
  refl := fun _ held => ⟨held, fun _ _ _ => rfl⟩
  trans := fun _ _ _ left right held => by
    obtain ⟨middle, first⟩ := left held
    obtain ⟨last, second⟩ := right middle
    exact ⟨last, fun x lower upper => (second x lower upper).trans (first x lower upper)⟩

/-- What `%-s` writes through NULL: 255 characters and the terminator, two bytes each. -/
def nullBytes : Nat := 512

section Rules
variable {fw : Firmware} {block : Block} {before after : World}

theorem guards_of_same (stays : Stays block before after) (same : after.mem = before.mem) :
    Guards block before after :=
  fun held => ⟨stays held, fun x _ _ => congrFun same x⟩

theorem prints_guards (prints : Prints before after) : Guards block before after :=
  guards_of_same (prints_stays prints) prints.mem

theorem service_guards {ρ : Type} (answer : History → ρ) (event : ρ → Event)
    (keeps : ∀ reply history, block ∈ live history → block ∈ live (event reply :: history)) :
    Relates (Guards block) (service answer event) :=
  fun world => guards_of_same (service_stays answer event keeps world) rfl

theorem inRam_guards {α : Type} (program : Prog Ram α)
    (frame : ∀ ram, SameOn (program ram).2.mem ram.mem block.start block.size) :
    Relates (Guards block) (inRam program) :=
  fun world held => ⟨held, frame world.toRam⟩

theorem deliver_guards {address : Nat} {bytes : List UInt8}
    (apart : bytes.length = 0 ∨ Apart address bytes.length block.start block.size) :
    Relates (Guards block) (inRam (deliver address bytes)) := by
  refine inRam_guards _ fun ram x lower upper => ?_
  apply storeBytes_frame
  unfold Apart at apart
  omega

theorem memset_guards {address count : Nat} {byte : UInt8}
    (apart : Apart address count block.start block.size) :
    Relates (Guards block) (inRam (memset address byte count)) := by
  refine inRam_guards _ fun ram x lower upper => ?_
  have outside : ¬ (address ≤ x ∧ x < address + count) := by
    unfold Apart at apart
    omega
  simp only [memset, modifyState_apply, setLoop_apply, if_neg outside]

theorem allocatePages_guards (kind : AllocateType) (pages request : Nat) :
    Relates (Guards block) (allocatePages fw kind pages request) :=
  fun world => guards_of_same (allocatePages_stays kind pages request world) rfl

theorem free_guards {ptr : Nat} (harmless : Harmless block ptr) : Relates (Guards block) (free fw ptr) := by
  intro world held
  obtain ⟨spares, still⟩ := free_spares harmless held.1 (Prod.mk.eta.symm : free fw ptr world = _)
  obtain ⟨member, same⟩ := spares held.2
  exact ⟨⟨still, member⟩, same⟩

/-- A buffer for `size` bytes that is apart from the block, or NULL. -/
structure Buffer (block : Block) (ptr size : Nat) : Prop where
  harmless : Harmless block ptr
  apart : ptr ≠ 0 → Apart ptr size block.start block.size

theorem malloc_guards {α : Type} (sound : AllocatorSound fw) (size : Nat) {rest : Nat → Boot α}
    (later : ∀ ptr, Buffer block ptr size → Relates (Guards block) (rest ptr)) :
    Relates (Guards block) (malloc fw size >>= rest) := by
  intro world held
  have allocates := malloc_allocates fw sound held.1 (Prod.mk.eta.symm : malloc fw size world = _)
  have member : block ∈ live (malloc fw size world).2.history := allocates.keeps held.2
  have same : (malloc fw size world).2.mem = world.mem := congrArg Ram.mem allocates.ram
  obtain ⟨last, kept⟩ := later _ ⟨allocates_harmless allocates held.2,
    fun present => (allocates.fresh present).apart block held.2⟩ _ ⟨allocates.bsExited.trans held.1, member⟩
  exact ⟨last, fun x lower upper => (kept x lower upper).trans (congrFun same x)⟩

end Rules

/-! ### The configuration over its own messages -/

/-- The three strings of a configuration, each in a pool block. -/
structure Carried (config : WbootConfig) (sizes : TextKey → Nat) (value : TextKey → List UInt8) (world : World) :
    Prop where
  early : world.bsExited = false
  lives : ∀ field, ⟨.pool, pointer config field, sizes field⟩ ∈ live world.history
  room : ∀ field, (encoded field (value field)).length ≤ sizes field
  here : ∀ field, TextAt world.mem (pointer config field) (encoded field (value field))

def Carries (config : WbootConfig) (sizes : TextKey → Nat) (value : TextKey → List UInt8) (before after : World) :
    Prop :=
  Carried config sizes value before → Carried config sizes value after

instance (config : WbootConfig) (sizes : TextKey → Nat) (value : TextKey → List UInt8) :
    IsPreorder World (Carries config sizes value) where
  refl := fun _ carried => carried
  trans := fun _ _ _ left right carried => right (left carried)

section Carrying
variable {fw : Firmware} {config : WbootConfig} {sizes : TextKey → Nat} {value : TextKey → List UInt8}
  {before after : World}

theorem guards_carries (guards : ∀ field, Guards ⟨.pool, pointer config field, sizes field⟩ before after) :
    Carries config sizes value before after := by
  intro ⟨early, lives, room, here⟩
  have held (field : TextKey) := guards field ⟨early, lives field⟩
  refine ⟨(held .cmdline).1.1, fun field => (held field).1.2, room, fun field => ?_⟩
  refine (textAt_congr fun x lower upper => ?_).mpr (here field)
  have fits := room field
  exact (held field).2 x lower (by dsimp only; omega)

theorem prints_carries (prints : Prints before after) : Carries config sizes value before after :=
  guards_carries fun _ => prints_guards prints

theorem Carried.cmdline {world : World} (carried : Carried config sizes value world)
    (nonzero : ∀ c ∈ value .cmdline, c ≠ 0) : StringAt world.mem config.cmdline (value .cmdline) := by
  obtain ⟨body, ended, -⟩ := (textAt_append _ _ _ _).mp (carried.here .cmdline)
  exact (stringAt_iff _ _ _).mpr ⟨body, nonzero, ended⟩

/-- `%-s` of the command line, or of no string at all. -/
theorem narrow_carries (sound : AllocatorSound fw) (above : ∀ field, nullBytes ≤ pointer config field)
    (short : (value .cmdline).length + 1 < 2 ^ 63) (nonzero : ∀ c ∈ value .cmdline, c ≠ 0) {arg : Arg}
    (own : arg = .narrowPointer config.cmdline ∨ arg = .num 0) :
    Relates (Carries config sizes value) (printfNarrow fw arg) := by
  intro world carried
  obtain ⟨recorded, buffer, allocated, stored, written, quiet, -, allocation, stores, writes, frees⟩ :=
    printfNarrow_parts (Prod.mk.eta.symm : printfNarrow fw arg world = _)
  have read : (readNarrow world.mem arg).length ≤ (value .cmdline).length := by
    rcases own with rfl | rfl
    · rw [readNarrow, cstring_at (by rw [addressSpace_eq]; omega) (carried.cmdline nonzero)]
    · exact Nat.zero_le _
  generalize readNarrow world.mem arg = str at *
  have waiting := prints_carries quiet carried
  have allocates := malloc_allocates fw sound waiting.early allocation
  have length : (wideBytes ((str.take 255).map UInt8.toUInt16 ++ [0])).length = 2 * (min 255 str.length + 1) := by
    rw [wideBytes_length, List.length_append, List.length_map, List.length_take, List.length_singleton]
  have whole : u64 ((str.length + 1) * 2) = (str.length + 1) * 2 := Nat.mod_eq_of_lt (by omega)
  -- a refused buffer is NULL, and then the first bytes of memory are written
  have apart (field : TextKey) :
      Apart buffer (2 * (min 255 str.length + 1)) (pointer config field) (sizes field) := by
    by_cases null : buffer = 0
    · have high := above field
      unfold nullBytes at high
      exact Or.inl (by omega)
    · have own := (allocates.fresh null).apart _ (waiting.lives field)
      rw [whole] at own
      simp only [Apart] at own ⊢
      omega
  have holding : Carried config sizes value allocated := by
    refine ⟨allocates.bsExited.trans waiting.early, fun field => allocates.keeps (waiting.lives field),
      waiting.room, fun field => ?_⟩
    rw [congrArg Ram.mem allocates.ram]
    exact waiting.here field
  have stores : Carries config sizes value allocated stored := by
    refine guards_carries fun field => Relates.run ?_ stores
    refine (inRam_guards _ fun _ _ _ _ => rfl).bind fun _ => deliver_guards (Or.inr ?_)
    rw [length]
    exact apart field
  have writes := prints_carries ((printfWriteArg_prints _).run writes) (stores holding)
  refine guards_carries (fun field => ?_) writes
  exact (free_guards (allocates_harmless allocates (waiting.lives field))).run frees

theorem printf_carries (sound : AllocatorSound fw) (above : ∀ field, nullBytes ≤ pointer config field)
    (short : (value .cmdline).length + 1 < 2 ^ 63) (nonzero : ∀ c ∈ value .cmdline, c ≠ 0) (format : List UInt16) :
    Relates (Carries config sizes value) (printf fw format [.narrowPointer config.cmdline]) := by
  refine Relates.bind ?_ fun _ => (console_prints _).mono fun _ _ => prints_carries
  rw [printfScan_pieces]
  refine runPieces_relates fun piece member => ?_
  cases piece with
  | verbatim found => exact (console_prints _).mono fun _ _ => prints_carries
  | conversion c arg => exact (convert_prints c arg).mono fun _ _ => prints_carries
  | cut => exact (console_prints _).mono fun _ _ => prints_carries
  | narrow arg =>
      refine narrow_carries sound above short nonzero ?_
      rcases pieces_argument member rfl with given | none
      · exact Or.inl (List.mem_singleton.mp given)
      · exact Or.inr none

/-- The message about the command line is the only one of the four with `%-s`. -/
theorem printConfig_carries (sound : AllocatorSound fw) (above : ∀ field, nullBytes ≤ pointer config field)
    (short : (value .cmdline).length + 1 < 2 ^ 63) (nonzero : ∀ c ∈ value .cmdline, c ≠ 0) :
    Relates (Carries config sizes value) (printConfig fw config) := by
  have quiet (format : List UInt16) (args : List Arg) (safe : plain format = true) :
      Relates (Carries config sizes value) (printf fw format args) :=
    (printf_prints fw format args safe).mono fun _ _ => prints_carries
  refine (quiet _ _ (by decide +kernel)).bind fun _ => (quiet _ _ (by decide +kernel)).bind fun _ => ?_
  exact (printf_carries sound above short nonzero _).bind fun _ => quiet _ _ (by decide +kernel)

end Carrying

/-! ### The files -/

section Files
variable {fw : Firmware} {zstd : Zstd} {block : Block} {before after : World}

theorem printf_guards (format : List UInt16) (args : List Arg) (safe : plain format = true) :
    Relates (Guards block) (printf fw format args) :=
  (printf_prints fw format args safe).mono fun _ _ => prints_guards

theorem openFile_guards (root path : Nat) : Relates (Guards block) (openFile fw root path) :=
  (Relates.read _).bind fun _ => service_guards _ _ fun _ _ member => member

theorem fileRead_guards (file size : Nat) : Relates (Guards block) (fileRead fw file size) :=
  service_guards _ _ fun _ _ member => member

theorem fileReadInto_guards {file size buffer : Nat} (apart : Apart buffer size block.start block.size) :
    Relates (Guards block) (fileReadInto fw file size buffer) := by
  intro world
  refine (Relates.bind_of (fileRead_guards file size) fun world => ?_ : Relates (Guards block) _) world
  have short : (fileRead fw file size world).1.2.length ≤ size := List.length_take_le _ _
  refine Relates.bind (deliver_guards ?_) fun _ => .pure _
  unfold Apart at *
  omega

theorem fileGetInfo_guards {file size buffer : Nat} (own : buffer ≠ 0 → Apart buffer size block.start block.size) :
    Relates (Guards block) (fileGetInfo fw file size buffer) := by
  refine Relates.bind (service_guards _ _ fun _ _ member => member) fun reply => ?_
  refine Relates.ite (fun present => ?_) fun _ => Relates.bind (.pure _) fun _ => .pure _
  refine (deliver_guards ?_).bind fun _ => .pure _
  have short : (reply.info.take size).length ≤ size := List.length_take_le _ _
  have apart := own present
  unfold Apart at *
  omega

theorem fileSetPosition_guards (file position : Nat) :
    Relates (Guards block) (fileSetPosition fw file position) :=
  service_guards _ _ fun _ _ member => member

theorem wbootReadSetupHeader_guards (file : Nat) (header : SetupHeader) :
    Relates (Guards block) (wbootReadSetupHeader fw file header) := by
  have told (message : List UInt16) (status : EfiStatus) : Relates (Guards block) (perror fw message status) :=
    printf_guards _ _ (by decide +kernel)
  refine (fileSetPosition_guards _ _).bind fun status => .ite (fun _ => ?_) fun _ => ?_
  · exact (told _ _).bind fun _ => .pure _
  refine (fileRead_guards _ _).bind fun reply => .ite (fun _ => ?_) fun _ => ?_
  · exact (told _ _).bind fun _ => .pure _
  refine .ite (fun _ => (printf_guards _ _ (by decide +kernel)).bind fun _ => .pure _) fun _ => ?_
  refine .ite (fun _ => (printf_guards _ _ (by decide +kernel)).bind fun _ => .pure _) fun _ => ?_
  exact .ite (fun _ => (printf_guards _ _ (by decide +kernel)).bind fun _ => .pure _) fun _ => .pure _

/-! ### The kernel -/

theorem readyContext_guards : Relates (Guards block) (readyContext zstd) := by
  intro world
  refine guards_of_same (readyContext_stays world) ?_
  obtain ⟨-, -, -, same, -⟩ := KernelReads.readyContext_run (Prod.mk.eta.symm : readyContext zstd world = _)
  exact same

/-- The payload is read into a buffer of its own, which frees nothing else later. -/
theorem readPayload_guards {header : SetupHeader} {file compressed : Nat} (sound : AllocatorSound fw)
    (held : Held block before) (run : readPayload fw header file before = (.ok compressed, after)) :
    Guards block before after ∧ Harmless block compressed := by
  unfold readPayload at run
  rw [run_bind] at run
  obtain ⟨pointer, allocated, allocation, run⟩ := run
  have allocates := malloc_allocates fw sound held.1 allocation
  have waiting : Guards block before allocated := fun held =>
    ⟨⟨allocates.bsExited.trans held.1, allocates.keeps held.2⟩, fun x _ _ => congrFun (congrArg Ram.mem allocates.ram) x⟩
  rw [run_ite] at run
  rcases run with ⟨-, run⟩ | ⟨present, run⟩
  · simp only [run_bind] at run
    obtain ⟨_, _, _, _, _, _, done⟩ := run
    cases done
  have apart := (allocates.fresh present).apart _ held.2
  rw [run_bind] at run
  obtain ⟨status, positioned, positions, run⟩ := run
  have sought := IsTrans.trans _ _ _ waiting ((fileSetPosition_guards file _).run positions)
  rw [run_ite] at run
  rcases run with ⟨-, run⟩ | ⟨-, run⟩
  · simp only [run_bind] at run
    obtain ⟨_, _, _, _, _, _, done⟩ := run
    cases done
  rw [run_bind] at run
  obtain ⟨reply, read, reads, run⟩ := run
  have delivered : Guards block before read :=
    IsTrans.trans _ _ _ sought ((fileReadInto_guards apart).run reads)
  rw [run_ite] at run
  rcases run with ⟨-, run⟩ | ⟨-, run⟩
  · simp only [run_bind] at run
    obtain ⟨_, _, _, _, _, _, done⟩ := run
    cases done
  rw [run_ite] at run
  rcases run with ⟨-, run⟩ | ⟨-, run⟩
  · simp only [run_bind] at run
    obtain ⟨_, _, _, _, _, _, done⟩ := run
    cases done
  · cases run
    exact ⟨delivered, allocates_harmless allocates held.2⟩

/-- zstd writes no more than `init_size` bytes, for which the pages have room. -/
theorem unpackImage_guards {header : SetupHeader} {compressed frame image size : Nat}
    (apart : Apart (kernelBlock header image).start (kernelBlock header image).size block.start block.size)
    (run : unpackImage fw zstd header compressed frame image before = (.ok size, after)) :
    Guards block before after := by
  rcases unpackImage_stays run with same | ⟨-, stays⟩
  · cases same
  intro held
  refine ⟨stays block held, fun x lower upper => ?_⟩
  rw [KernelCleanup.unpackImage_text run]
  apply storeBytes_frame
  have short := List.length_take_le (header.get Hdr.initSize) (zstd.decompressDCtx before.history
    (header.get Hdr.initSize) (bytesAt before.mem compressed frame)).2
  simp only [Apart, kernelBlock, kernelPages, efiPageSize] at apart
  omega

/-- A run that succeeds writes to its payload and to its pages. -/
theorem wbootDecompressKernel_guards {header : SetupHeader} {file : Nat} {out kernel : KernelBuffer}
    {status : EfiStatus} (sound : AllocatorSound fw) (held : Held block before)
    (run : wbootDecompressKernel fw zstd header file out before = ((status, kernel), after))
    (fine : efiError status = false) : Guards block before after := by
  have refused : efiError efiInvalidParameter = true := by decide
  cases KernelReads.wbootDecompressKernel_course held.1 run with
  | unready => exact absurd fine (by decide)
  | unread _ _ bad => exact Bool.noConfusion (fine.symm.trans bad)
  | unframed => exact Bool.noConfusion (fine.symm.trans refused)
  | unplaced _ failed => exact Bool.noConfusion (fine.symm.trans failed)
  | unpacked steps granted unpacks =>
      rcases unpackImage_stays unpacks with same | ⟨⟨size, done⟩, -⟩
      · cases same
        exact Bool.noConfusion (fine.symm.trans refused)
      · cases done
  | placed steps granted unpacks frees =>
      have preparing : Guards block before steps.prepared := readyContext_guards.run steps.prepares
      obtain ⟨reading, harmless⟩ := readPayload_guards sound (preparing held).1 steps.reads
      have framing : Guards block steps.delivered steps.tested := by
        obtain ⟨-, ⟨done, -⟩ | ⟨-, -, -, -, tested⟩⟩ := @KernelReads.payloadFrame_run fw zstd header
          steps.delivered steps.tested 0 _ _ _ steps.stored steps.whole steps.frames
        · cases done
        · rcases payloadFrame_stays steps.frames with same | ⟨-, stays⟩
          · cases same
          · exact guards_of_same (stays block) (by rw [tested])
      have tested := IsTrans.trans _ _ _ (IsTrans.trans _ _ _ preparing reading) framing
      obtain ⟨asking, asked, fresh, lives, exits⟩ := allocateImage_grants sound steps.allocates granted
      have reached := asked block (tested held).1
      obtain ⟨-, same, -⟩ := @KernelReads.allocateImage_run fw header steps.tested steps.allocated 0 0 _ steps.allocates
      have allocating : Guards block steps.tested steps.allocated := by
        refine guards_of_same (fun _ => ⟨exits.trans reached.1, ?_⟩) same
        rw [lives]
        exact List.mem_cons_of_mem _ reached.2
      have unpacking := unpackImage_guards (fresh.apart _ reached.2) unpacks
      exact IsTrans.trans _ _ _ (IsTrans.trans _ _ _ (IsTrans.trans _ _ _ tested allocating) unpacking)
        ((free_guards harmless).run frees)

/-! ### The initramfs -/

theorem initramfsFileSize_guards (sound : AllocatorSound fw) (file : Nat) :
    Relates (Guards block) (initramfsFileSize fw file) := by
  refine (fileGetInfo_guards fun present => absurd rfl present).bind fun query => .ite (fun _ => ?_) fun _ => ?_
  · exact (printf_guards _ _ (by decide +kernel)).bind fun _ => .pure _
  refine malloc_guards sound _ fun fileInfo own => .ite (fun _ => ?_) fun _ => ?_
  · exact (Relates.read _).bind fun _ => (printf_guards _ _ (by decide +kernel)).bind fun _ =>
      (Relates.read _).bind fun _ => .pure _
  refine (fileGetInfo_guards own.apart).bind fun info => .ite (fun _ => ?_) fun _ => ?_
  · exact (printf_guards _ _ (by decide +kernel)).bind fun _ => (free_guards own.harmless).bind fun _ => .pure _
  · exact (inRam_guards _ fun _ _ _ _ => rfl).bind fun _ => (free_guards own.harmless).bind fun _ => .pure _

theorem allocateInitramfs_guards (pages : Nat) : Relates (Guards block) (allocateInitramfs fw pages) :=
  (allocatePages_guards _ _ _).bind fun low => .ite (fun _ => allocatePages_guards _ _ _) fun _ => .pure low

/-- The pages of a run that has read all of the file. -/
def initramfsBlock (initramfs : Initramfs) : Block :=
  ⟨.pages, initramfs.pointer, initramfsPages initramfs.size * efiPageSize⟩

/-- They are live at the end, and apart from all that was live before. -/
structure Fetched (block : Block) (before after : World) (initramfs : Initramfs) : Prop where
  guards : Guards block before after
  lives : initramfsBlock initramfs ∈ live after.history
  bounded : (initramfsBlock initramfs).start + (initramfsBlock initramfs).size ≤ 2 ^ 64
  apart : Apart initramfs.pointer (initramfsPages initramfs.size * efiPageSize) block.start block.size

theorem Fetching.guards {config : WbootConfig} {initramfs : Initramfs} (sound : AllocatorSound fw)
    (held : Held block before) (steps : Fetching fw config before after initramfs)
    (room : initramfs.size ≤ initramfsPages initramfs.size * efiPageSize) :
    Fetched block before after initramfs := by
  have sizing : Guards block before steps.sized := IsTrans.trans _ _ _
    ((openFile_guards _ _).run steps.opens) ((initramfsFileSize_guards sound _).run steps.sizes)
  obtain ⟨asking, asked, fresh, lives, exits⟩ := allocateInitramfs_grants sound steps.grants steps.given
  have reached := asked block (sizing held).1
  have apart : Apart initramfs.pointer (initramfsPages initramfs.size * efiPageSize) block.start block.size :=
    fresh.apart _ reached.2
  have granting := IsTrans.trans _ _ _ sizing ((allocateInitramfs_guards _).run steps.grants)
  have clearing := IsTrans.trans _ _ _ granting ((memset_guards apart).run steps.clears)
  have reads : Apart initramfs.pointer initramfs.size block.start block.size := by
    unfold Apart at *
    omega
  refine ⟨IsTrans.trans _ _ _ clearing ((fileReadInto_guards reads).run steps.reads), ?_, fresh.bounded, apart⟩
  have own : Held (initramfsBlock initramfs) steps.granted := by
    refine ⟨exits.trans reached.1, ?_⟩
    rw [lives]
    exact List.mem_cons_self
  exact ((fileReadInto_stays _ _ _).run steps.reads ((inRam_stays _).run steps.clears own)).2

end Files

end Wboot.Preservation
