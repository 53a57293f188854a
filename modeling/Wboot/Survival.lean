import Wboot.Blocks
import Wboot.Handoff
import Wboot.KernelReads

/-! Blocks that stay live while the files are loaded. A program that frees only what
it has allocated itself keeps every block there was before; one that fails may free
more, so what takes blocks of its own is followed on its way to success. -/

namespace Wboot.Survival
open StateProgram ByteMemory Machine LinuxBoot Wstdlib Effects ConfigParser KernelImage BootParams
  Blocks Phase3 Handoff

def Held (block : Block) (world : World) : Prop :=
  world.bsExited = false ∧ block ∈ live world.history

def Stays (block : Block) (before after : World) : Prop := Held block before → Held block after

instance (block : Block) : IsPreorder World (Stays block) where
  refl := fun _ held => held
  trans := fun _ _ _ left right held => right (left held)

section Rules
variable {fw : Firmware} {block : Block} {before after : World}

theorem prints_stays (prints : Prints before after) : Stays block before after :=
  fun ⟨early, member⟩ => ⟨prints.bsExited.trans early, prints.history ▸ member⟩

theorem inRam_stays {α : Type} (program : Prog Ram α) : Relates (Stays block) (inRam program) :=
  fun _ held => held

theorem service_stays {ρ : Type} (answer : History → ρ) (event : ρ → Event)
    (keeps : ∀ reply history, block ∈ live history → block ∈ live (event reply :: history)) :
    Relates (Stays block) (service answer event) :=
  fun _ ⟨early, member⟩ => ⟨early, keeps _ _ member⟩

theorem allocatePages_stays (kind : AllocateType) (pages request : Nat) :
    Relates (Stays block) (allocatePages fw kind pages request) := by
  refine service_stays _ _ fun reply history member => ?_
  simp only [live]
  split
  · exact member
  · exact List.mem_cons_of_mem _ member

theorem free_stays {ptr : Nat} (harmless : Harmless block ptr) : Relates (Stays block) (free fw ptr) := by
  intro world ⟨early, member⟩
  obtain ⟨spares, still⟩ := free_spares harmless early (Prod.mk.eta.symm : free fw ptr world = _)
  exact ⟨still, (spares member).1⟩

/-- What follows an allocation may free it. -/
theorem malloc_stays {α : Type} (sound : AllocatorSound fw) (size : Nat) {rest : Nat → Boot α}
    (later : ∀ ptr, Harmless block ptr → Relates (Stays block) (rest ptr)) :
    Relates (Stays block) (malloc fw size >>= rest) := by
  intro world held
  have allocates := malloc_allocates fw sound held.1 (Prod.mk.eta.symm : malloc fw size world = _)
  refine later _ (allocates_harmless allocates held.2) _ ?_
  exact ⟨allocates.bsExited.trans held.1, allocates.keeps held.2⟩

/-- The temporary buffer of `%-s` is the only block a printf frees. -/
theorem printf_stays (sound : AllocatorSound fw) (format : List UInt16) (args : List Arg) :
    Relates (Stays block) (printf fw format args) := by
  have narrow (arg : Arg) : Relates (Stays block) (printfNarrow fw arg) := by
    refine Relates.bind ((recordRead_prints arg).mono fun _ _ => prints_stays) fun _ => ?_
    refine (Relates.read _).bind fun str => malloc_stays sound _ fun buffer harmless => ?_
    refine Relates.bind ((inRam_stays _).bind fun _ => inRam_stays _) fun _ => ?_
    exact Relates.bind ((printfWriteArg_prints _).mono fun _ _ => prints_stays) fun _ => free_stays harmless
  exact (printfScan_relates (fun _ _ => prints_stays) narrow format args).bind fun _ =>
    (console_prints _).mono fun _ _ => prints_stays

end Rules

/-! ### Before the kernel has its pages -/

section Loading
variable {fw : Firmware} {zstd : Zstd} {block : Block} {before after : World}

theorem printConfig_stays (sound : AllocatorSound fw) (config : WbootConfig) :
    Relates (Stays block) (printConfig fw config) :=
  (printf_stays sound _ _).bind fun _ => (printf_stays sound _ _).bind fun _ =>
    (printf_stays sound _ _).bind fun _ => printf_stays sound _ _

theorem openFile_stays (root path : Nat) : Relates (Stays block) (openFile fw root path) :=
  (Relates.read _).bind fun _ => service_stays _ _ fun _ _ member => member

theorem fileRead_stays (file size : Nat) : Relates (Stays block) (fileRead fw file size) :=
  service_stays _ _ fun _ _ member => member

theorem fileReadInto_stays (file size buffer : Nat) :
    Relates (Stays block) (fileReadInto fw file size buffer) :=
  (fileRead_stays file size).bind fun _ => (inRam_stays _).bind fun _ => .pure _

theorem fileGetInfo_stays (file size buffer : Nat) :
    Relates (Stays block) (fileGetInfo fw file size buffer) := by
  unfold fileGetInfo
  refine (service_stays _ _ fun _ _ member => member).bind fun reply => ?_
  exact Relates.ite (fun _ => (inRam_stays _).bind fun _ => .pure _) fun _ => Relates.bind (.pure _) fun _ => .pure _

theorem fileSetPosition_stays (file position : Nat) :
    Relates (Stays block) (fileSetPosition fw file position) :=
  service_stays _ _ fun _ _ member => member

theorem wbootReadSetupHeader_stays (sound : AllocatorSound fw) (file : Nat) (header : SetupHeader) :
    Relates (Stays block) (wbootReadSetupHeader fw file header) := by
  have told (format : List UInt16) (args : List Arg) : Relates (Stays block) (printf fw format args) :=
    printf_stays sound format args
  refine (fileSetPosition_stays _ _).bind fun status => .ite (fun _ => ?_) fun _ => ?_
  · exact (told _ _).bind fun _ => .pure _
  refine (fileRead_stays _ _).bind fun reply => .ite (fun _ => ?_) fun _ => ?_
  · exact (told _ _).bind fun _ => .pure _
  refine .ite (fun _ => (told _ _).bind fun _ => .pure _) fun _ => ?_
  refine .ite (fun _ => (told _ _).bind fun _ => .pure _) fun _ => ?_
  exact .ite (fun _ => (told _ _).bind fun _ => .pure _) fun _ => .pure _

theorem readyContext_stays : Relates (Stays block) (readyContext zstd) := by
  refine (Relates.read _).bind fun dctx => .ite (fun _ => .pure _) fun _ => ?_
  exact (Relates.read _).bind fun created => Relates.bind (fun _ held => held) fun _ => .pure _

theorem readPayload_stays (sound : AllocatorSound fw) (header : SetupHeader) (file : Nat) :
    Relates (Stays block) (readPayload fw header file) := by
  have told (format : List UInt16) (args : List Arg) : Relates (Stays block) (printf fw format args) :=
    printf_stays sound format args
  refine malloc_stays sound _ fun compressed harmless => ?_
  have freed (status : EfiStatus) : Relates (Stays block) (do
      free fw compressed
      return .error status : Boot (Except EfiStatus Nat)) :=
    (free_stays harmless).bind fun _ => .pure _
  refine .ite (fun _ => (Relates.read _).bind fun _ => (told _ _).bind fun _ => .pure _) fun _ => ?_
  refine (fileSetPosition_stays _ _).bind fun status => .ite (fun _ => ?_) fun _ => ?_
  · exact (told _ _).bind fun _ => freed _
  refine (fileReadInto_stays _ _ _).bind fun reply => .ite (fun _ => ?_) fun _ => ?_
  · exact (told _ _).bind fun _ => freed _
  exact .ite (fun _ => (told _ _).bind fun _ => freed _) fun _ => .pure _

theorem lacksMagic_stays (size magic : Nat) (word : Prog Ram Nat) :
    Relates (Stays block) (lacksMagic size magic word) :=
  .ite (fun _ => .pure _) fun _ => (inRam_stays _).bind fun _ => .pure _

/-- A frame that is found costs no call. -/
theorem payloadFrame_stays {header : SetupHeader} {compressed : Nat} {outcome : Except EfiStatus Nat}
    (run : payloadFrame fw zstd header compressed before = (outcome, after)) :
    outcome = .error efiInvalidParameter ∨
      ((∃ frame, outcome = .ok frame) ∧ ∀ block, Stays block before after) := by
  unfold payloadFrame at run
  rw [run_bind] at run
  obtain ⟨lacking, tested, tests, run⟩ := run
  rw [run_ite] at run
  rcases run with ⟨-, run⟩ | ⟨-, run⟩
  · simp only [run_bind] at run
    obtain ⟨_, _, _, _, _, _, _, _, _, done⟩ := run
    exact Or.inl (congrArg Prod.fst done).symm
  rw [run_bind] at run
  obtain ⟨found, _, reads, run⟩ := run
  cases reads
  rw [run_ite] at run
  rcases run with ⟨-, run⟩ | ⟨-, run⟩
  · simp only [run_bind] at run
    obtain ⟨_, _, _, _, _, _, done⟩ := run
    exact Or.inl (congrArg Prod.fst done).symm
  · cases run
    exact Or.inr ⟨⟨_, rfl⟩, fun block => (lacksMagic_stays _ _ _).run tests⟩

/-! ### The pages of the kernel -/

def kernelBlock (header : SetupHeader) (pointer : Nat) : Block :=
  ⟨.pages, pointer, kernelPages header * efiPageSize⟩

/-- Pages that were granted are apart from all that was live when they were asked for. -/
theorem allocatePages_fresh {kind : AllocateType} {count request pointer : Nat} {status : EfiStatus}
    (sound : AllocatorSound fw) (run : allocatePages fw kind count request before = ((status, pointer), after))
    (granted : efiError status = false) :
    Fresh (live before.history) ⟨.pages, pointer, count * efiPageSize⟩ ∧
      live after.history = ⟨.pages, pointer, count * efiPageSize⟩ :: live before.history ∧
      after.bsExited = before.bsExited := by
  have answer : fw.allocatePages before.history kind count request = (status, pointer) :=
    congrArg Prod.fst run
  have called : after.history = .allocatePages kind count request
      (fw.allocatePages before.history kind count request).1
      (fw.allocatePages before.history kind count request).2 :: before.history :=
    (congrArg (fun outcome => outcome.2.history) run).symm
  have fresh := sound.pages before.history kind count request
  rw [answer] at called fresh
  refine ⟨fresh granted, ?_, (congrArg (fun outcome => outcome.2.bsExited) run).symm⟩
  rw [called]
  simp only [live, granted, Bool.false_eq_true, ↓reduceIte]

/-- Whichever request was granted, with the calls before it. -/
theorem allocateImage_grants {header : SetupHeader} {status : EfiStatus} {pointer : Nat}
    (sound : AllocatorSound fw) (run : allocateImage fw header before = ((status, pointer), after))
    (granted : efiError status = false) :
    ∃ asking, (∀ block, Stays block before asking) ∧
      Fresh (live asking.history) (kernelBlock header pointer) ∧
      live after.history = kernelBlock header pointer :: live asking.history ∧
      after.bsExited = asking.bsExited := by
  unfold allocateImage at run
  rw [run_ite] at run
  rcases run with ⟨-, run⟩ | ⟨-, run⟩
  · exact ⟨before, fun _ => Std.Refl.refl _, allocatePages_fresh sound run granted⟩
  rw [run_bind] at run
  obtain ⟨⟨firstStatus, first⟩, tried, tries, run⟩ := run
  rw [run_ite] at run
  rcases run with ⟨-, run⟩ | ⟨-, run⟩
  · rw [run_bind] at run
    obtain ⟨_, told, tells, run⟩ := run
    refine ⟨told, fun block => IsTrans.trans _ _ _ ((allocatePages_stays _ _ _).run tries)
      ((printf_stays sound _ _).run tells), allocatePages_fresh sound run granted⟩
  · cases run
    exact ⟨before, fun _ => Std.Refl.refl _, allocatePages_fresh sound tries granted⟩

/-- An image that is unpacked costs no call. -/
theorem unpackImage_stays {header : SetupHeader} {compressed frame image : Nat}
    {outcome : Except EfiStatus Nat}
    (run : unpackImage fw zstd header compressed frame image before = (outcome, after)) :
    outcome = .error efiInvalidParameter ∨
      ((∃ size, outcome = .ok size) ∧ ∀ block, Stays block before after) := by
  have decompresses (block : Block) : Relates (Stays block) (zstdDecompress zstd image
      (header.get Hdr.initSize) compressed frame) :=
    (Relates.read _).bind fun _ => (inRam_stays _).bind fun _ => .pure _
  unfold unpackImage at run
  rw [run_bind] at run
  obtain ⟨found, unpacked, unpacks, run⟩ := run
  rw [run_ite] at run
  rcases run with ⟨-, run⟩ | ⟨-, run⟩
  · simp only [run_bind] at run
    obtain ⟨_, _, _, _, _, _, _, _, _, done⟩ := run
    exact Or.inl (congrArg Prod.fst done).symm
  rw [run_bind] at run
  obtain ⟨lacking, tested, tests, run⟩ := run
  rw [run_ite] at run
  rcases run with ⟨-, run⟩ | ⟨-, run⟩
  · simp only [run_bind] at run
    obtain ⟨_, _, _, _, _, _, _, _, _, _, _, _, done⟩ := run
    exact Or.inl (congrArg Prod.fst done).symm
  · cases run
    exact Or.inr ⟨⟨_, rfl⟩, fun block => IsTrans.trans _ _ _ ((decompresses block).run unpacks)
      ((lacksMagic_stays _ _ _).run tests)⟩

/-- The one grant of pages in a run that succeeds. -/
theorem wbootDecompressKernel_places {header : SetupHeader} {file : Nat} {out kernel : KernelBuffer}
    {status : EfiStatus} (sound : AllocatorSound fw) (early : before.bsExited = false)
    (run : wbootDecompressKernel fw zstd header file out before = ((status, kernel), after))
    (fine : efiError status = false) :
    ∃ asking granted, (∀ block, Stays block before asking) ∧
      Fresh (live asking.history) (kernelBlock header kernel.pointer) ∧
      live granted.history = kernelBlock header kernel.pointer :: live asking.history ∧
      granted.bsExited = asking.bsExited ∧
      ∀ block : Block, block.kind = .pages → Stays block granted after := by
  have refused : efiError efiInvalidParameter = true := by decide
  -- only the last course returns success
  cases KernelReads.wbootDecompressKernel_course early run with
  | unready => exact absurd fine (by decide)
  | unread _ _ bad => exact Bool.noConfusion (fine.symm.trans bad)
  | unframed => exact Bool.noConfusion (fine.symm.trans refused)
  | unplaced _ failed => exact Bool.noConfusion (fine.symm.trans failed)
  | unpacked steps granted unpacks =>
      rcases unpackImage_stays unpacks with same | ⟨⟨size, done⟩, -⟩
      · cases same
        exact Bool.noConfusion (fine.symm.trans refused)
      · cases done
  | placed steps granted unpacks frees =>
      obtain ⟨asking, asked, fresh, lives, exits⟩ := allocateImage_grants sound steps.allocates granted
      refine ⟨asking, steps.allocated, fun block => ?_, fresh, lives, exits, fun block pages => ?_⟩
      · rcases payloadFrame_stays steps.frames with same | ⟨-, framing⟩
        · cases same
        · have preparing : Stays block before steps.prepared := readyContext_stays.run steps.prepares
          have reading : Stays block steps.prepared steps.delivered :=
            (readPayload_stays sound header file).run steps.reads
          exact IsTrans.trans _ _ _ (IsTrans.trans _ _ _ (IsTrans.trans _ _ _ preparing reading) (framing block))
            (asked block)
      · rcases unpackImage_stays unpacks with same | ⟨-, unpacking⟩
        · cases same
        · -- what is freed at the end came from the pool
          have harmless : Harmless block steps.payload.pointer :=
            Or.inr fun pool => absurd (pages.symm.trans pool) (by decide)
          exact IsTrans.trans _ _ _ (unpacking block) ((free_stays harmless).run frees)

/-! ### The initramfs -/

def initramfsPages (size : Nat) : Nat := u64 (size + efiPageSize - 1) / efiPageSize

theorem initramfsFileSize_stays (sound : AllocatorSound fw) (file : Nat) :
    Relates (Stays block) (initramfsFileSize fw file) := by
  have told (format : List UInt16) (args : List Arg) : Relates (Stays block) (printf fw format args) :=
    printf_stays sound format args
  refine (fileGetInfo_stays _ _ _).bind fun query => .ite (fun _ => ?_) fun _ => ?_
  · exact (told _ _).bind fun _ => .pure _
  refine malloc_stays sound _ fun fileInfo harmless => .ite (fun _ => ?_) fun _ => ?_
  · exact (Relates.read _).bind fun _ => (told _ _).bind fun _ => (Relates.read _).bind fun _ => .pure _
  refine (fileGetInfo_stays _ _ _).bind fun info => .ite (fun _ => ?_) fun _ => ?_
  · exact (told _ _).bind fun _ => (free_stays harmless).bind fun _ => .pure _
  exact (inRam_stays _).bind fun _ => (free_stays harmless).bind fun _ => .pure _

/-- The first grant, below 4 GiB, or the second. -/
theorem allocateInitramfs_grants {pages pointer : Nat} {status : EfiStatus} (sound : AllocatorSound fw)
    (run : allocateInitramfs fw pages before = ((status, pointer), after))
    (granted : efiError status = false) :
    ∃ asking, (∀ block, Stays block before asking) ∧
      Fresh (live asking.history) ⟨.pages, pointer, pages * efiPageSize⟩ ∧
      live after.history = ⟨.pages, pointer, pages * efiPageSize⟩ :: live asking.history ∧
      after.bsExited = asking.bsExited := by
  unfold allocateInitramfs at run
  rw [run_bind] at run
  obtain ⟨⟨lowStatus, low⟩, tried, tries, run⟩ := run
  rw [run_ite] at run
  rcases run with ⟨-, run⟩ | ⟨-, run⟩
  · exact ⟨tried, fun block => (allocatePages_stays _ _ _).run tries, allocatePages_fresh sound run granted⟩
  · cases run
    exact ⟨before, fun _ => Std.Refl.refl _, allocatePages_fresh sound tries granted⟩

/-- The steps of a run that has read all of the file. -/
structure Fetching (fw : Firmware) (config : WbootConfig) (before after : World) (initramfs : Initramfs) where
  openStatus : EfiStatus
  file : Nat
  bufferStatus : EfiStatus
  readStatus : EfiStatus
  opened : World
  sized : World
  granted : World
  cleared : World
  opens : openFile fw config.root config.initrdPath before = ((openStatus, file), opened)
  openable : efiError openStatus = false
  sizes : initramfsFileSize fw file opened = (.ok initramfs.size, sized)
  grants : allocateInitramfs fw (initramfsPages initramfs.size) sized = ((bufferStatus, initramfs.pointer), granted)
  given : efiError bufferStatus = false
  clears : inRam (memset initramfs.pointer 0 (initramfsPages initramfs.size * efiPageSize)) granted = ((), cleared)
  reads : fileReadInto fw file initramfs.size initramfs.pointer cleared = ((readStatus, initramfs.size), after)

/-- A run that succeeds has read all of the file, or has found a status that is no error
in place of its size and set nothing. -/
theorem wbootLoadInitramfs_fetches {config : WbootConfig} {out initramfs : Initramfs} {status : EfiStatus}
    (run : wbootLoadInitramfs fw config out before = ((status, initramfs), after))
    (fine : efiError status = false) :
    (∃ openStatus file opened, openFile fw config.root config.initrdPath before = ((openStatus, file), opened) ∧
      efiError openStatus = false ∧ initramfsFileSize fw file opened = (.error status, after) ∧ initramfs = out) ∨
      Nonempty (Fetching fw config before after initramfs) := by
  unfold wbootLoadInitramfs at run
  rw [run_bind] at run
  obtain ⟨⟨openStatus, file⟩, opened, opens, run⟩ := run
  rw [run_ite] at run
  -- every failure after the first test returns an error status
  rcases run with ⟨failed, run⟩ | ⟨openable, run⟩
  · rw [run_bind] at run
    obtain ⟨_, _, _, done⟩ := run
    cases done
    exact Bool.noConfusion (fine.symm.trans failed)
  rw [run_bind] at run
  obtain ⟨outcome, sized, sizes, run⟩ := run
  -- the size alone may fail with a status that is no error, and then nothing is loaded
  cases outcome with
  | error failed =>
      cases run
      exact Or.inl ⟨openStatus, file, opened, opens, by simpa using openable, sizes, rfl⟩
  | ok fileSize =>
      dsimp only at run
      rw [run_bind] at run
      obtain ⟨⟨bufferStatus, buffer⟩, granted, grants, run⟩ := run
      rw [run_ite] at run
      rcases run with ⟨failed, run⟩ | ⟨given, run⟩
      · rw [run_bind] at run
        obtain ⟨_, _, _, done⟩ := run
        cases done
        exact Bool.noConfusion (fine.symm.trans failed)
      simp only [run_bind] at run
      obtain ⟨_, cleared, clears, ⟨readStatus, count⟩, delivered, reads, run⟩ := run
      rw [run_ite] at run
      rcases run with ⟨failed, run⟩ | ⟨-, run⟩
      · simp only [run_bind] at run
        obtain ⟨_, _, _, _, _, _, done⟩ := run
        cases done
        exact Bool.noConfusion (fine.symm.trans failed)
      rw [run_ite] at run
      rcases run with ⟨-, run⟩ | ⟨whole, run⟩
      · simp only [run_bind] at run
        obtain ⟨_, _, _, _, _, _, done⟩ := run
        cases done
        exact absurd fine (by decide)
      · have all : count = fileSize := Decidable.not_not.mp whole
        subst all
        cases run
        exact Or.inr ⟨{ openStatus, file, bufferStatus, readStatus, opened, sized, granted, cleared, opens, sizes
                        grants, clears, reads
                        openable := by simpa using openable
                        given := by simpa using given }⟩

/-- A run that succeeds set nothing, or read all of the file into pages of its own. -/
theorem wbootLoadInitramfs_places {config : WbootConfig} {out initramfs : Initramfs} {status : EfiStatus}
    (sound : AllocatorSound fw)
    (run : wbootLoadInitramfs fw config out before = ((status, initramfs), after))
    (fine : efiError status = false) :
    (initramfs = out ∧ ∀ block, Stays block before after) ∨
      ∃ requesting bufferStatus granted, (∀ block, Stays block before requesting) ∧
        allocateInitramfs fw (initramfsPages initramfs.size) requesting =
          ((bufferStatus, initramfs.pointer), granted) ∧ efiError bufferStatus = false ∧
        (∀ block, Stays block granted after) ∧
        ∃ history file, initramfs.size ≤ (fw.fileRead history file initramfs.size).2.length := by
  rcases wbootLoadInitramfs_fetches run fine with
    ⟨openStatus, file, opened, opens, -, sizes, same⟩ | ⟨⟨steps⟩⟩
  · refine Or.inl ⟨same, fun block => ?_⟩
    exact IsTrans.trans _ _ _ ((openFile_stays _ _).run opens) ((initramfsFileSize_stays sound _).run sizes)
  · refine Or.inr ⟨steps.sized, steps.bufferStatus, steps.granted, fun block => ?_, steps.grants, steps.given,
      fun block => ?_, steps.cleared.history, steps.file, ?_⟩
    · exact IsTrans.trans _ _ _ ((openFile_stays _ _).run steps.opens)
        ((initramfsFileSize_stays sound _).run steps.sizes)
    · exact IsTrans.trans _ _ _ ((inRam_stays _).run steps.clears) ((fileReadInto_stays _ _ _).run steps.reads)
    · -- the read delivered as many bytes as were asked for
      have length : ((fw.fileRead steps.cleared.history steps.file initramfs.size).2.take
          initramfs.size).length = initramfs.size := congrArg (fun outcome => outcome.1.2) steps.reads
      rw [List.length_take] at length
      exact min_eq_left_iff.mp length

end Loading
end Wboot.Survival
