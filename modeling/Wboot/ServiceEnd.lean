import Wboot.ConfigEffects
import Wboot.GraphicsEffects
import Wboot.KernelReads
import Wboot.Phase3

/-! Boot services end with `wboot_exit_bs`. No part before it exits, and no part
after it calls the firmware: not by printing, not by a late `malloc` or `free`,
not by `read_char`. -/

namespace Wboot.ServiceEnd
open StateProgram ByteMemory Machine LinuxBoot Wstdlib Effects ConfigEffects ConfigParser KernelImage BootParams
  Graphics GraphicsEffects E820Sizing E820Translation ExitBootServices ElfPlacement Phase3 KernelReads

/-- A call that is neither the exit nor the jump into the kernel. -/
def ordinary : Event → Prop
  | .exitBootServices .. | .handoff .. => False
  | _ => True

theorem display_ordinary (event : Event) (display : displayCall event) : ordinary event := by
  cases event <;> first | exact display.elim | trivial

theorem file_ordinary (event : Event) (file : fileCall event) : ordinary event := by
  cases event <;> first | exact file.elim | trivial

theorem search_ordinary (event : Event) (search : searchCall event) : ordinary event := by
  cases event <;> first | exact search.elim | trivial

section Stages
variable (fw : Firmware) (zstd : Zstd)

theorem ordinary_absorbs : Absorbs fw (Calls ordinary) where
  prints := fun _ _ prints => prints.calls ordinary
  errno := setErrno_calls
  allocates := fun _ => service_calls _ _ fun _ => trivial
  releases := fun _ => service_calls _ _ fun _ => trivial
  stores := fun _ _ => (inRam_calls _).bind fun _ => inRam_calls _

theorem getMemoryMap_ordinary (size buffer : Nat) :
    Relates (Calls ordinary) (getMemoryMap fw size buffer) :=
  (service_calls _ _ fun _ => trivial).bind fun _ =>
    .ite (fun _ => (inRam_calls _).bind fun _ => .pure _) fun _ => .pure _

theorem fileReadInto_ordinary (file size buffer : Nat) :
    Relates (Calls ordinary) (fileReadInto fw file size buffer) :=
  Relates.bind (service_calls _ _ fun _ => trivial) fun _ => (inRam_calls _).bind fun _ => .pure _

theorem fileGetInfo_ordinary (file size buffer : Nat) :
    Relates (Calls ordinary) (fileGetInfo fw file size buffer) :=
  (service_calls _ _ fun _ => trivial).bind fun _ =>
    .ite (fun _ => (inRam_calls _).bind fun _ => .pure _) fun _ => .pure _

theorem allocatePages_ordinary (kind : AllocateType) (pages request : Nat) :
    Relates (Calls ordinary) (allocatePages fw kind pages request) :=
  service_calls _ _ fun _ => trivial

theorem freePages_ordinary (address pages : Nat) :
    Relates (Calls ordinary) (freePages fw address pages) :=
  service_calls _ _ fun _ => trivial

/-! ### The configuration -/

theorem ordinary_loads : Loads fw (Calls ordinary) where
  prints := fun format args _ _ => (ordinary_absorbs fw).printf format args
  allocates := (ordinary_absorbs fw).malloc
  releases := (ordinary_absorbs fw).free
  stores := fun ptr bytes _ => (ordinary_absorbs fw).stores ptr bytes
  edits := fun program _ => inRam_calls program
  files := fun _ _ called => service_calls _ _ fun reply => file_ordinary _ (called reply)

theorem convertDevicePathToText_ordinary (path : Nat) :
    Relates (Calls ordinary) (convertDevicePathToText fw path) :=
  (service_calls _ _ fun _ => trivial).bind fun _ =>
    .ite (fun _ => (inRam_calls _).bind fun _ => .pure _) fun _ => .pure _

theorem ordinary_searches : Searches fw (Calls ordinary) where
  toLoads := ordinary_loads fw
  shows := (ordinary_absorbs fw).printf
  texts := convertDevicePathToText_ordinary fw
  drops := (ordinary_absorbs fw).releases
  looks := fun _ _ called => service_calls _ _ fun reply => search_ordinary _ (called reply)

theorem wbootLocateConfig_ordinary : Relates (Calls ordinary) (wbootLocateConfig fw) :=
  (ordinary_searches fw).wbootLocateConfig

/-! ### The kernel and the initramfs -/

theorem openFile_ordinary (root path : Nat) : Relates (Calls ordinary) (openFile fw root path) :=
  (Relates.read _).bind fun _ => service_calls _ _ fun _ => trivial

theorem wbootReadSetupHeader_ordinary (file : Nat) (header : SetupHeader) :
    Relates (Calls ordinary) (wbootReadSetupHeader fw file header) := by
  have absorbs := ordinary_absorbs fw
  have refuses (message : List UInt16) (args : List Arg) (result : EfiStatus × SetupHeader) :
      Relates (Calls ordinary) (do printf fw message args; return result : Boot _) :=
    (absorbs.printf _ _).bind fun _ => .pure _
  refine (service_calls _ _ fun _ => trivial).bind fun status => .ite (fun _ => ?_) fun _ => ?_
  · exact (absorbs.perror _ _).bind fun _ => .pure _
  refine (service_calls _ _ fun _ => trivial).bind fun reply => .ite (fun _ => ?_) fun _ => ?_
  · exact (absorbs.perror _ _).bind fun _ => .pure _
  · exact .ite (fun _ => refuses _ _ _) fun _ => .ite (fun _ => refuses _ _ _) fun _ =>
      .ite (fun _ => refuses _ _ _) fun _ => .pure _

theorem readPayload_ordinary (header : SetupHeader) (file : Nat) :
    Relates (Calls ordinary) (readPayload fw header file) := by
  have absorbs := ordinary_absorbs fw
  have undone (compressed : Nat) (program : Boot Unit) (prints : Relates (Calls ordinary) program)
      (status : EfiStatus) : Relates (Calls ordinary)
        (do program; free fw compressed; return .error status : Boot (Except EfiStatus Nat)) :=
    prints.bind fun _ => (absorbs.free _).bind fun _ => .pure _
  refine (absorbs.malloc _).bind fun compressed => .ite (fun _ => ?_) fun _ => ?_
  · exact (Relates.read _).bind fun _ => (absorbs.perror _ _).bind fun _ => .pure _
  refine (service_calls _ _ fun _ => trivial).bind fun status =>
    .ite (fun _ => undone _ _ (absorbs.perror _ _) _) fun _ => ?_
  refine (fileReadInto_ordinary fw _ _ _).bind fun reply => ?_
  exact .ite (fun _ => undone _ _ (absorbs.perror _ _) _) fun _ =>
    .ite (fun _ => undone _ _ (absorbs.printf _ _) _) fun _ => .pure _

theorem lacksMagic_ordinary (size magic : Nat) (word : Prog Ram Nat) :
    Relates (Calls ordinary) (lacksMagic size magic word) :=
  .ite (fun _ => .pure _) fun _ => (inRam_calls _).bind fun _ => .pure _

theorem payloadFrame_ordinary (header : SetupHeader) (compressed : Nat) :
    Relates (Calls ordinary) (payloadFrame fw zstd header compressed) := by
  have absorbs := ordinary_absorbs fw
  have refuses (message : List UInt16) (args : List Arg) : Relates (Calls ordinary) (do
      printf fw message args
      free fw compressed
      return .error efiInvalidParameter : Boot (Except EfiStatus Nat)) :=
    (absorbs.printf _ _).bind fun _ => (absorbs.free _).bind fun _ => .pure _
  refine (lacksMagic_ordinary _ _ _).bind fun lacking => .ite (fun _ => ?_) fun _ => ?_
  · exact (inRam_calls _).bind fun _ => refuses _ _
  · exact (Relates.read _).bind fun frame => .ite (fun _ => refuses _ _) fun _ => .pure _

theorem allocateImage_ordinary (header : SetupHeader) :
    Relates (Calls ordinary) (allocateImage fw header) := by
  unfold allocateImage
  refine .ite (fun _ => allocatePages_ordinary fw _ _ _) fun _ => ?_
  refine (allocatePages_ordinary fw _ _ _).bind fun preferred => ?_
  refine .ite (fun _ => ?_) fun _ => .pure preferred
  exact ((ordinary_absorbs fw).printf _ _).bind fun _ => allocatePages_ordinary fw _ _ _

theorem unpackImage_ordinary (header : SetupHeader) (compressed frame image : Nat) :
    Relates (Calls ordinary) (unpackImage fw zstd header compressed frame image) := by
  have absorbs := ordinary_absorbs fw
  have refuses (message : List UInt16) (args : List Arg) : Relates (Calls ordinary) (do
      printf fw message args
      let _ ← freePages fw image (kernelPages header)
      free fw compressed
      return .error efiInvalidParameter : Boot (Except EfiStatus Nat)) :=
    (absorbs.printf _ _).bind fun _ => (freePages_ordinary fw _ _).bind fun _ =>
      (absorbs.free _).bind fun _ => .pure _
  have fills : Relates (Calls ordinary)
      (zstdDecompress zstd image (header.get Hdr.initSize) compressed frame) :=
    (Relates.read _).bind fun _ => (inRam_calls _).bind fun _ => .pure _
  refine fills.bind fun size => .ite (fun _ => refuses _ _) fun _ => ?_
  refine (lacksMagic_ordinary _ _ _).bind fun lacking => .ite (fun _ => ?_) fun _ => .pure _
  exact (inRam_calls _).bind fun _ => refuses _ _

theorem wbootDecompressKernel_ordinary (header : SetupHeader) (file : Nat) (out : KernelBuffer) :
    Relates (Calls ordinary) (wbootDecompressKernel fw zstd header file out) := by
  have absorbs := ordinary_absorbs fw
  have ready : Relates (Calls ordinary) (readyContext zstd) :=
    (Relates.read _).bind fun _ => .ite (fun _ => .pure _) fun _ => (Relates.read _).bind fun _ =>
      Relates.bind (fun _ => ⟨rfl, [], rfl, by simp⟩) fun _ => .pure _
  refine ready.bind fun ready => .ite (fun _ => (absorbs.printf _ _).bind fun _ => .pure _) fun _ => ?_
  refine (readPayload_ordinary fw _ _).bind fun payload => ?_
  cases payload with
  | error status => exact .pure _
  | ok compressed =>
      refine (payloadFrame_ordinary fw zstd _ _).bind fun frame => ?_
      cases frame with
      | error status => exact .pure _
      | ok frame =>
          refine (allocateImage_ordinary fw _).bind fun image => .ite (fun _ => ?_) fun _ => ?_
          · exact (absorbs.printf _ _).bind fun _ => (absorbs.free _).bind fun _ => .pure _
          refine (unpackImage_ordinary fw zstd _ _ _ _).bind fun size => ?_
          cases size with
          | error status => exact .pure _
          | ok size => exact (absorbs.free _).bind fun _ => .pure _

theorem initramfsFileSize_ordinary (file : Nat) : Relates (Calls ordinary) (initramfsFileSize fw file) := by
  have absorbs := ordinary_absorbs fw
  refine (fileGetInfo_ordinary fw _ _ _).bind fun query => .ite (fun _ => ?_) fun _ => ?_
  · exact (absorbs.printf _ _).bind fun _ => .pure _
  refine (absorbs.malloc _).bind fun fileInfo => .ite (fun _ => ?_) fun _ => ?_
  · exact (Relates.read _).bind fun _ => (absorbs.printf _ _).bind fun _ => (Relates.read _).bind fun _ => .pure _
  refine (fileGetInfo_ordinary fw _ _ _).bind fun info => .ite (fun _ => ?_) fun _ => ?_
  · exact (absorbs.printf _ _).bind fun _ => (absorbs.free _).bind fun _ => .pure _
  · exact (inRam_calls _).bind fun _ => (absorbs.free _).bind fun _ => .pure _

theorem wbootLoadInitramfs_ordinary (config : WbootConfig) (out : Initramfs) :
    Relates (Calls ordinary) (wbootLoadInitramfs fw config out) := by
  have absorbs := ordinary_absorbs fw
  have undone (buffer pages : Nat) (message : List UInt16) (args : List Arg)
      (result : EfiStatus × Initramfs) : Relates (Calls ordinary)
        (do printf fw message args; let _ ← freePages fw buffer pages; return result : Boot _) :=
    (absorbs.printf _ _).bind fun _ => (freePages_ordinary fw _ _).bind fun _ => .pure _
  have pages (count : Nat) : Relates (Calls ordinary) (allocateInitramfs fw count) :=
    Relates.bind (allocatePages_ordinary fw _ _ _) fun _ =>
      .ite (fun _ => allocatePages_ordinary fw _ _ _) fun _ => .pure _
  refine (openFile_ordinary fw _ _).bind fun opened => .ite (fun _ => ?_) fun _ => ?_
  · exact (absorbs.printf _ _).bind fun _ => .pure _
  refine (initramfsFileSize_ordinary fw _).bind fun size => ?_
  cases size with
  | error status => exact .pure _
  | ok fileSize =>
      refine (pages _).bind fun buffer => .ite (fun _ => (absorbs.printf _ _).bind fun _ => .pure _) fun _ => ?_
      refine (inRam_calls _).bind fun _ => (fileReadInto_ordinary fw _ _ _).bind fun reply => ?_
      exact .ite (fun _ => undone _ _ _ _ _) fun _ => .ite (fun _ => undone _ _ _ _ _) fun _ => .pure _

/-! ### The boot parameters -/

theorem wbootPrepareBootparams_ordinary (config : WbootConfig) (header : SetupHeader)
    (initramfs : Initramfs) :
    Relates (Calls ordinary) (wbootPrepareBootparams fw config header initramfs) := by
  have absorbs := ordinary_absorbs fw
  refine (absorbs.malloc _).bind fun params => .ite (fun _ => ?_) fun _ => ?_
  · exact (Relates.read _).bind fun _ => (absorbs.printf _ _).bind fun _ => .pure _
  · exact (inRam_calls _).bind fun _ => .pure _

theorem wbootSetupGraphics_ordinary (config : WbootConfig) (params : Nat) :
    Relates (Calls ordinary) (wbootSetupGraphics fw config params) :=
  wbootSetupGraphics_relates
    { prints := fun _ _ prints => prints.calls ordinary
      calls := fun _ _ display => service_calls _ _ fun reply => display_ordinary _ (display reply)
      paints := fun _ _ => inRam_calls _ } config

theorem wbootAllocateE820_ordinary (buffer : E820Buffer) :
    Relates (Calls ordinary) (wbootAllocateE820 fw buffer) := by
  have absorbs := ordinary_absorbs fw
  refine (getMemoryMap_ordinary fw _ _).bind fun query => .ite (fun _ => ?_) fun _ => ?_
  · exact (absorbs.printf _ _).bind fun _ => .pure _
  refine (absorbs.malloc _).bind fun memmap => .ite (fun _ => ?_) fun _ => ?_
  · exact (Relates.read _).bind fun _ => (absorbs.printf _ _).bind fun _ => .pure _
  refine (getMemoryMap_ordinary fw _ _).bind fun reply => .ite (fun _ => ?_) fun _ => .ite (fun _ => ?_) fun _ => ?_
  · exact (absorbs.printf _ _).bind fun _ => (absorbs.free _).bind fun _ => .pure _
  · refine (absorbs.malloc _).bind fun node => .ite (fun _ => ?_) fun _ => ?_
    · exact (Relates.read _).bind fun _ => (absorbs.printf _ _).bind fun _ =>
        (absorbs.free _).bind fun _ => .pure _
    · exact (absorbs.free _).bind fun _ => .pure _
  · exact (absorbs.free _).bind fun _ => .pure _

/-! ### The parts of efi_main before the exit -/

theorem loadKernel_ordinary (config : WbootConfig) (stack : SetupHeader) :
    Relates (Calls ordinary) (loadKernel fw zstd config stack) := by
  have absorbs := ordinary_absorbs fw
  have opened : Relates (Calls ordinary) (wbootOpenKernel fw config) := openFile_ordinary fw _ _
  unfold loadKernel
  refine (absorbs.printf _ _).bind fun _ => opened.bind fun file => .ite (fun _ => .pure _) fun _ => ?_
  refine (absorbs.printf _ _).bind fun _ => (wbootReadSetupHeader_ordinary fw _ _).bind fun header => ?_
  refine .ite (fun _ => .pure _) fun _ => ?_
  refine (absorbs.printf _ _).bind fun _ => (wbootDecompressKernel_ordinary fw zstd _ _ _).bind fun kernel => ?_
  exact .ite (fun _ => .pure _) fun _ => .pure _

theorem printConfig_ordinary (config : WbootConfig) :
    Relates (Calls ordinary) (printConfig fw config) := by
  have absorbs := ordinary_absorbs fw
  exact (absorbs.printf _ _).bind fun _ => (absorbs.printf _ _).bind fun _ =>
    (absorbs.printf _ _).bind fun _ => absorbs.printf _ _

theorem loadFiles_ordinary (stack : SetupHeader) : Relates (Calls ordinary) (loadFiles fw zstd stack) := by
  have absorbs := ordinary_absorbs fw
  unfold loadFiles
  refine (absorbs.printf _ _).bind fun _ => (absorbs.printf _ _).bind fun _ => (absorbs.printf _ _).bind fun _ => ?_
  refine (wbootLocateConfig_ordinary fw).bind fun located => .ite (fun _ => .pure _) fun _ => ?_
  refine (printConfig_ordinary fw _).bind fun _ => (loadKernel_ordinary fw zstd _ _).bind fun kernel => ?_
  cases kernel with
  | error status => exact .pure _
  | ok loaded =>
      refine (absorbs.printf _ _).bind fun _ => (wbootLoadInitramfs_ordinary fw _ _).bind fun initramfs => ?_
      exact .ite (fun _ => .pure _) fun _ => .pure _

theorem prepareHandoff_ordinary (files : LoadedFiles) :
    Relates (Calls ordinary) (prepareHandoff fw files) := by
  have absorbs := ordinary_absorbs fw
  unfold prepareHandoff
  refine (absorbs.printf _ _).bind fun _ => (wbootPrepareBootparams_ordinary fw _ _ _).bind fun params => ?_
  refine .ite (fun _ => (absorbs.printf _ _).bind fun _ => .pure _) fun _ => ?_
  refine (absorbs.printf _ _).bind fun _ => (wbootSetupGraphics_ordinary fw _ _).bind fun status => ?_
  refine .ite (fun _ => (absorbs.perror _ _).bind fun _ => .pure _) fun _ => ?_
  refine (absorbs.printf _ _).bind fun _ => (wbootAllocateE820_ordinary fw _).bind fun e820ext => ?_
  exact .ite (fun _ => (absorbs.perror _ _).bind fun _ => .pure _) fun _ => .pure _

theorem readChar_calls {allowed : Event → Prop} (waiting : allowed .waitForEvent)
    (reading : ∀ pressed, allowed (.readKeyStroke pressed)) : Relates (Calls allowed) (readChar fw) := by
  have keys (delay : Nat) : Relates (Calls allowed) (readKeyStrokes fw delay) := by
    induction delay with
    | zero => exact service_calls _ _ fun _ => reading _
    | succ delay ih => exact (service_calls _ _ fun _ => reading _).bind fun _ => ih
  have waits : Relates (Calls allowed) (do
      waitForEvent
      let delay ← readState fun world => fw.keyDelay world.history
      readKeyStrokes fw delay : Boot UInt16) :=
    Relates.bind (service_calls _ _ fun _ => waiting) fun _ => (Relates.read _).bind fun _ => keys _
  exact Relates.bind (Relates.read _) fun exited => .ite (fun _ => .read _) fun _ => waits

theorem readChar_ordinary : Relates (Calls ordinary) (readChar fw) := readChar_calls fw trivial fun _ => trivial

end Stages

/-! ### The exit and what follows -/

/-- A call that has not ended the boot services. -/
def unexited : Event → Prop
  | .exitBootServices _ status => efiError status = true
  | .handoff .. => False
  | _ => True

def isHandoff : Event → Bool
  | .handoff .. => true
  | _ => false

def jump (event : Event) : Prop := isHandoff event = true

def handsOff (history : History) : Prop := ∃ event ∈ history, jump event

instance (history : History) : Decidable (handsOff history) :=
  inferInstanceAs (Decidable (∃ event ∈ history, isHandoff event = true))

theorem ordinary_unexited (event : Event) (kind : ordinary event) : unexited event := by
  cases event <;> first | exact kind.elim | trivial

/-- Boot services are up, or the newest call but for jumps ended them. -/
def Ended (world : World) : Prop :=
  world.bsExited = true ∧ ∃ jumps key status older,
    world.history = jumps ++ .exitBootServices key status :: older ∧
      (∀ event ∈ jumps, jump event) ∧ ∀ event ∈ older, unexited event

def Running (world : World) : Prop := world.bsExited = false ∧ ∀ event ∈ world.history, unexited event

/-- No boot service and no console protocol is called after a successful exit. -/
def SilentAfterExit (history : History) : Prop :=
  ∀ newer key status older, history = newer ++ .exitBootServices key status :: older →
    efiError status = false → ∀ event ∈ newer, jump event

theorem Running.calls {before after : World} (running : Running before)
    (calls : Calls unexited before after) : Running after := by
  obtain ⟨events, grown, kind⟩ := calls.history
  refine ⟨calls.bsExited.trans running.1, ?_⟩
  rw [grown]
  exact List.forall_mem_append.mpr ⟨kind, running.2⟩

theorem Ended.calls {before after : World} (ended : Ended before) (calls : Calls jump before after) :
    Ended after := by
  obtain ⟨exited, jumps, key, status, older, history, kind, early⟩ := ended
  obtain ⟨events, grown, jumped⟩ := calls.history
  refine ⟨calls.bsExited.trans exited, events ++ jumps, key, status, older, ?_, ?_, early⟩
  · rw [grown, history, List.append_assoc]
  · exact List.forall_mem_append.mpr ⟨jumped, kind⟩

theorem Running.silent {world : World} (running : Running world) : SilentAfterExit world.history := by
  intro newer key status older split success
  have kind := running.2 (.exitBootServices key status) (by rw [split]; simp)
  exact Bool.noConfusion (kind.symm.trans success)

theorem Ended.silent {world : World} (ended : Ended world) : SilentAfterExit world.history := by
  obtain ⟨-, jumps, key, status, older, history, kind, early⟩ := ended
  intro newer exitKey exitStatus rest split success
  rw [history] at split
  -- two exits split one history; an older one would have failed and a newer one be a jump
  rcases List.append_eq_append_iff.mp split with ⟨more, longer, tail⟩ | ⟨more, longer, tail⟩
  · cases more with
    | nil =>
        rw [longer, List.append_nil]
        exact kind
    | cons first more =>
        cases tail
        have refused := early (.exitBootServices exitKey exitStatus) (by simp)
        exact Bool.noConfusion (refused.symm.trans success)
  · cases more with
    | nil =>
        rw [List.append_nil] at longer
        rw [← longer]
        exact kind
    | cons first more =>
        cases tail
        exact Bool.noConfusion (kind (.exitBootServices exitKey exitStatus) (by rw [longer]; simp))

/-! ### Before the jump -/

section Waiting
variable {before after : World}

theorem calls_handsOff_iff {allowed : Event → Prop} (calls : Calls allowed before after)
    (waits : ∀ event, allowed event → ¬ jump event) :
    handsOff after.history ↔ handsOff before.history := by
  obtain ⟨events, grown, kind⟩ := calls.history
  rw [grown]
  constructor
  · rintro ⟨event, member, jumps⟩
    rcases List.mem_append.mp member with new | old
    · exact absurd jumps (waits event (kind event new))
    · exact ⟨event, old, jumps⟩
  · rintro ⟨event, old, jumps⟩
    exact ⟨event, List.mem_append_right events old, jumps⟩

theorem ordinary_waits (event : Event) (kind : ordinary event) : ¬ jump event := by
  cases event <;> first | exact kind.elim | exact Bool.false_ne_true

theorem unexited_waits (event : Event) (kind : unexited event) : ¬ jump event := by
  cases event <;> first | exact kind.elim | exact Bool.false_ne_true

theorem running_waits {world : World} (running : Running world) : ¬ handsOff world.history :=
  fun ⟨event, member, jumps⟩ => unexited_waits event (running.2 event member) jumps

end Waiting

section Exit
variable {fw : Firmware} {before after : World}

theorem perror_unexited (message : List UInt16) (status : EfiStatus) :
    Relates (Calls unexited) (perror fw message status) :=
  (perror_prints fw message status).mono fun _ _ prints => prints.calls _

theorem free_unexited (ptr : Nat) : Relates (Calls unexited) (free fw ptr) :=
  free_calls fw (fun _ _ => trivial) ptr

theorem getMemoryMap_unexited (size buffer : Nat) :
    Relates (Calls unexited) (getMemoryMap fw size buffer) :=
  (getMemoryMap_ordinary fw size buffer).mono fun _ _ calls => calls.mono ordinary_unexited

/-- An attempt that returns a map made its last call the successful exit. -/
def Concludes (before after : World) : Option MemoryMapReply → Prop
  | none => Calls unexited before after
  | some _ => ∃ middle key status, Calls unexited before middle ∧ efiError status = false ∧
      after = { middle with history := .exitBootServices key status :: middle.history }

theorem Concludes.prepend {middle : World} {outcome : Option MemoryMapReply}
    (concludes : Concludes middle after outcome) (calls : Calls unexited before middle) :
    Concludes before after outcome := by
  cases outcome with
  | none => exact IsTrans.trans _ _ _ calls concludes
  | some reply =>
      obtain ⟨last, key, status, later, success, done⟩ := concludes
      exact ⟨last, key, status, IsTrans.trans _ _ _ calls later, success, done⟩

/-- One fetch and one exit; `retry` is what a refused exit leads to. -/
theorem attempt_concludes {size memmap : Nat} {message : List UInt16} {outcome : Option MemoryMapReply}
    {retry : EfiStatus → Boot (Option MemoryMapReply)}
    (retries : ∀ status world outcome after, retry status world = (outcome, after) →
      Concludes world after outcome)
    (run : (do
      let reply ← getMemoryMap fw size memmap
      if efiError reply.status then
        perror fw message reply.status
        free fw memmap
        return none
      let status ← exitBootServices fw reply.mapKey
      if efiError status then retry status
      else return some reply) before = (outcome, after)) : Concludes before after outcome := by
  rw [run_bind] at run
  obtain ⟨reply, fetched, fetch, run⟩ := run
  have asked := (getMemoryMap_unexited size memmap).run fetch
  rw [run_ite] at run
  rcases run with ⟨failed, run⟩ | ⟨-, run⟩
  · have quiet := Relates.run ((perror_unexited _ _).bind fun _ => (free_unexited _).bind fun _ => .pure _) run
    cases (congrArg Prod.fst run : none = outcome)
    exact IsTrans.trans _ _ _ asked quiet
  · rw [run_bind] at run
    obtain ⟨status, exited, exits, run⟩ := run
    cases exits
    rw [run_ite] at run
    rcases run with ⟨refused, run⟩ | ⟨accepted, run⟩
    · have later := retries _ _ _ _ run
      refine later.prepend (IsTrans.trans _ _ _ asked ?_)
      exact ⟨rfl, [_], rfl, List.forall_mem_singleton.mpr refused⟩
    · cases run
      exact ⟨fetched, _, _, asked, by simpa using accepted, rfl⟩

theorem secondAttempt_concludes {size memmap : Nat} {outcome : Option MemoryMapReply}
    (run : secondAttempt fw size memmap before = (outcome, after)) : Concludes before after outcome := by
  refine attempt_concludes (fun status world outcome after run => ?_) run
  have quiet := Relates.run ((perror_unexited _ _).bind fun _ => (free_unexited _).bind fun _ => .pure _) run
  cases (congrArg Prod.fst run : none = outcome)
  exact quiet

theorem firstAttempt_concludes {passed size memmap : Nat} {outcome : Option MemoryMapReply}
    (run : firstAttempt fw passed size memmap before = (outcome, after)) :
    Concludes before after outcome := by
  refine attempt_concludes (fun status world outcome after run => ?_) run
  simp only [run_bind] at run
  obtain ⟨_, warned, warns, _, told, tells, run⟩ := run
  have printed := (printf_prints fw _ _ plain_retry).run tells
  exact (secondAttempt_concludes run).prepend
    (IsTrans.trans _ _ _ ((perror_unexited _ _).run warns) (printed.calls _))

/-- NULL leaves boot services up; a map means they ended with the last call. -/
theorem wbootExitBs_ends {params memmap : Nat} (running : Running before)
    (run : wbootExitBs fw params before = (memmap, after)) :
    (memmap = 0 ∧ Running after) ∨ (memmap ≠ 0 ∧ Ended after ∧ ¬ handsOff after.history) := by
  have allocated {size ptr : Nat} {first second : World} (allocation : malloc fw size first = (ptr, second)) :
      Calls unexited first second := (malloc_calls fw (fun _ _ _ => trivial) _).run allocation
  cases wbootExitBs_course fw run with
  | unsized asks _ tells =>
      have asked := (getMemoryMap_unexited 0 0).run asks
      exact Or.inl ⟨rfl, running.calls (IsTrans.trans _ _ _ asked ((perror_unexited _ _).run tells))⟩
  | scarce asks _ allocation tells =>
      have ready := running.calls (IsTrans.trans _ _ _ ((getMemoryMap_unexited 0 0).run asks) (allocated allocation))
      exact Or.inl ⟨rfl, ready.calls ((perror_unexited _ _).run tells)⟩
  | refused steps attempts =>
      have ready := running.calls (IsTrans.trans _ _ _ ((getMemoryMap_unexited 0 0).run steps.asks)
        (allocated steps.allocation))
      exact Or.inl ⟨rfl, ready.calls (firstAttempt_concludes attempts)⟩
  | exited steps attempts ends =>
      have ready := running.calls (IsTrans.trans _ _ _ ((getMemoryMap_unexited 0 0).run steps.asks)
        (allocated steps.allocation))
      obtain ⟨middle, key, status, calls, success, done⟩ := firstAttempt_concludes attempts
      have reached := ready.calls calls
      subst done
      cases ends
      refine Or.inr ⟨steps.present, ⟨rfl, [], key, status, middle.history, rfl, by simp, reached.2⟩, ?_⟩
      -- the newest call is the exit, and the ones before it do not jump
      rintro ⟨event, member, jumps⟩
      rcases List.mem_cons.mp member with newest | older
      · subst newest
        exact Bool.false_ne_true jumps
      · exact running_waits reached ⟨event, older, jumps⟩

/-- Translation, placement and printing make no call but the jump. -/
theorem afterExit_jumps (prepared : Prepared) (memmap : Nat) :
    Relates (Calls jump) (afterExit fw prepared memmap) := by
  have printed {format : List UInt16} (said : format ∈ messages) (args : List Arg) :
      Relates (Calls jump) (printf fw format args) :=
    (message_prints fw said args).mono fun _ _ prints => prints.calls _
  have failed (message : List UInt16) (status : EfiStatus) :
      Relates (Calls jump) (perror fw message status) :=
    (perror_prints fw message status).mono fun _ _ prints => prints.calls _
  have jumps (params entry : Nat) : Relates (Calls jump) (wbootHandoff params entry) :=
    service_calls _ _ fun _ => rfl
  unfold afterExit
  refine (printed (by simp [messages]) _).bind fun _ => ?_
  refine (printed (by simp [messages]) _).bind fun _ => ?_
  refine (inRam_calls _).bind fun outcome => ?_
  cases outcome with
  | none => exact .pure _
  | some status =>
      refine .ite (fun _ => (failed _ _).bind fun _ => .pure _) fun _ => ?_
      refine (inRam_calls _).bind fun entry => ?_
      refine (printed (by simp [messages]) _).bind fun _ => (jumps _ _).bind fun _ => ?_
      exact (printed (by simp [messages]) _).bind fun _ => .pure _

theorem enterKernel_ends (prepared : Prepared) {status : Option EfiStatus} (running : Running before)
    (run : enterKernel fw prepared before = (status, after)) : Running after ∨ Ended after := by
  unfold enterKernel at run
  rw [run_bind] at run
  obtain ⟨_, printed, prints, run⟩ := run
  have quiet := (message_prints fw (by simp [messages]) _).run prints
  rw [run_bind] at run
  obtain ⟨memmap, left, exits, run⟩ := run
  rcases wbootExitBs_ends (running.calls (quiet.calls _)) exits with ⟨null, still⟩ | ⟨present, ended, -⟩
  · rw [if_pos null, run_bind] at run
    obtain ⟨_, told, tells, run⟩ := run
    have last := (message_prints fw (by simp [messages]) _).run tells
    cases run
    exact Or.inl (still.calls (last.calls _))
  · rw [if_neg present] at run
    exact Or.inr (ended.calls ((afterExit_jumps prepared memmap).run run))

theorem bootStages_ends {zstd : Zstd} {stack : SetupHeader} {status : Option EfiStatus}
    (running : Running before)
    (run : bootStages fw zstd stack before = (status, after)) : Running after ∨ Ended after := by
  unfold bootStages at run
  rw [run_bind] at run
  obtain ⟨loaded, files, loads, run⟩ := run
  have first := running.calls (((loadFiles_ordinary fw zstd stack).run loads).mono ordinary_unexited)
  cases loaded with
  | error status =>
      cases run
      exact Or.inl first
  | ok loaded =>
      dsimp only at run
      rw [run_bind] at run
      obtain ⟨outcome, middle, prepares, run⟩ := run
      have second := first.calls (((prepareHandoff_ordinary fw loaded).run prepares).mono ordinary_unexited)
      cases outcome with
      | error status =>
          cases run
          exact Or.inl second
      | ok prepared => exact enterKernel_ends prepared second run

end Exit

/-- Whatever the firmware answers, nothing but the jump into the kernel follows a
successful ExitBootServices, down to the last `read_char`. -/
theorem efiMain_silent_after_exit (fw : Firmware) (zstd : Zstd) (stack : SetupHeader) (world : World)
    (running : Running world) : SilentAfterExit (efiMain fw zstd stack world).2.history := by
  obtain ⟨outcome, after, run⟩ : ∃ outcome after, efiMain fw zstd stack world = (outcome, after) :=
    ⟨_, _, rfl⟩
  rw [run]
  rcases efiMain_ends fw zstd run with ⟨-, stages⟩ | ⟨status, staged, printed, key, -, stages, prints, reads⟩
  -- a run that hangs in the translation calls nothing any more
  · rcases bootStages_ends running stages with still | ended
    · exact still.silent
    · exact ended.silent
  · have quiet := (message_prints fw (by simp [messages]) _).run prints
    rcases bootStages_ends running stages with still | ended
    · have last := still.calls (quiet.calls _)
      exact (last.calls (((readChar_ordinary fw).run reads).mono ordinary_unexited)).silent
    · have last := ended.calls (quiet.calls _)
      -- after the exit the key is polled from the keyboard port
      have polled : readChar fw printed = (fw.scanCode printed.history, printed) := by
        have read : readChar fw printed = _ := bind_apply _ _ printed
        rw [read, readState_apply, last.1, if_pos rfl, readState_apply]
      obtain ⟨-, rfl⟩ := Prod.mk.inj (polled.symm.trans reads)
      exact last.silent

/-! A volume with the configuration, a kernel that zstd accepts and an initramfs,
in numbered files. -/

def confText : List UInt8 := ascii "kernel k\ninitrd i\ncmdline c\nmode 1 1\n"

def fileNumber (path : List UInt16) : Nat :=
  if path = wide "wboot.conf" then 2 else if path = wide "k" then 3 else 4

/-- EFI_FILE_INFO with its FileSize. -/
def infoOf (size : Nat) : List UInt8 := bytesAt (store (fun _ => 0) 8 8 size) 0 88

def diskFirmware : Firmware := { idleFirmware with
  locateHandle := fun _ _ => (efiSuccess, [1])
  fileOpen := fun _ _ path => (efiSuccess, fileNumber path)
  fileGetInfo := fun _ file size _ =>
    if size = 0 then ⟨efiBufferTooSmall, 88, []⟩
    else ⟨efiSuccess, 88, infoOf (if file = 2 then confText.length else 0)⟩
  fileRead := fun _ file size =>
    (efiSuccess, if file = 2 then confText else if size = sizeofSetupHeader then (acceptedHeader 193).bytes
      else if file = 3 then storedImage 0x2000000 else [])
  getMemoryMap := fun _ size _ =>
    if size = 0 then ⟨efiBufferTooSmall, 48, 0, 48, 0, []⟩
    else ⟨efiSuccess, 48, 1, 48, 1, List.replicate 48 0⟩
  locateHandleBuffer := fun _ _ => (efiSuccess, [1]) }

theorem disk_hands_off :
    handsOff (efiMain diskFirmware storingZstd (acceptedHeader 0) bootWorld).2.history := by
  decide +kernel

theorem handoff_run_silent :
    handsOff (efiMain diskFirmware storingZstd (acceptedHeader 0) bootWorld).2.history ∧
      SilentAfterExit (efiMain diskFirmware storingZstd (acceptedHeader 0) bootWorld).2.history :=
  ⟨disk_hands_off, efiMain_silent_after_exit diskFirmware storingZstd (acceptedHeader 0) bootWorld
    ⟨rfl, List.forall_mem_nil _⟩⟩

end Wboot.ServiceEnd
