import Wboot.InitramfsCleanup
import Wboot.KernelCleanup
import Wboot.PhaseAgreement
import Wboot.SearchLedger

/-! Whole runs in their ledger. Each stage gives back only what it has taken, down to the
exit and the jump into the kernel. What a run may free that is nobody's is the NULL of a
path without a text, and nothing else. -/

namespace Wboot.RunLedger
open StateProgram ByteMemory Machine LinuxBoot Wstdlib Effects ConfigParser KernelImage BootParams Graphics
  GraphicsEffects E820Sizing ExitBootServices Phase3 ServiceEnd Ledger Holdings KernelCleanup InitramfsCleanup
  PhaseAgreement SearchLedger
open KernelReads (storingZstd acceptedHeader)

/-- What is held stays held, and there may be more. -/
def Grows (before after : World) : Prop :=
  ∀ start held, Holds start held before → ∃ more, Holds start (more + held) after

instance : IsPreorder World Grows where
  refl := fun _ _ held holds => ⟨0, by rwa [zero_add]⟩
  trans := fun _ _ _ left right start held holds => by
    obtain ⟨early, first⟩ := left start held holds
    obtain ⟨late, last⟩ := right start _ first
    exact ⟨late + early, by rwa [add_assoc]⟩

theorem kept_grows (before after : World) (kept : Kept before after) : Grows before after :=
  fun start held holds => ⟨0, by rw [zero_add]; exact kept start held holds⟩

section Runs
variable {α : Type} {program : Boot α}

theorem grows_of_kept (kept : Relates Kept program) : Relates Grows program := kept.mono kept_grows

theorem grows_of_run (adds : ∀ {start before after : World} {held : Multiset Held} {outcome : α},
    Holds start held before → program before = (outcome, after) → ∃ more, Holds start (more + held) after) :
    Relates Grows program :=
  fun _ _ _ holds => adds holds Prod.mk.eta.symm

theorem longer_of_calls {allowed : Event → Prop} (calls : Relates (Calls allowed) program) :
    Relates Longer program :=
  calls.mono calls_longer

end Runs

/-! ### Stages that both phases have -/

section Stages
variable {fw : Firmware} {zstd : Zstd} {start before after : World} {held : Multiset Held}

theorem nothing_more (holds : Holds start held after) : ∃ more, Holds start (more + held) after :=
  ⟨0, by rwa [zero_add]⟩

theorem fileOpen_grows (parent : Nat) (path : List UInt16) : Relates Grows (fileOpen fw parent path) := by
  refine grows_of_run fun {_ _ _ held reply} holds run => ?_
  have opening := fileOpen_holds holds run
  by_cases failed : efiError reply.1 = true
  · rw [if_pos failed] at opening
    exact nothing_more opening
  · rw [if_neg failed] at opening
    exact ⟨{.file reply.2}, by rwa [Multiset.singleton_add]⟩

theorem getMemoryMap_kept (size buffer : Nat) : Relates Kept (getMemoryMap fw size buffer) := by
  have asks := service_kept (fun history => fw.getMemoryMap history size buffer)
    (fun reply => .getMemoryMap size buffer reply) (fun _ => rfl) fun _ _ => rfl
  exact asks.bind fun reply => .ite (fun _ => (inRam_kept _).bind fun _ => .pure _) fun _ => .pure _

/-- A call of the keyboard. -/
def keyCall : Event → Prop
  | .waitForEvent | .readKeyStroke _ => True
  | _ => False

theorem key_neither (event : Event) (key : keyCall event) : entry event = .neither := by
  cases event <;> first | exact key.elim | rfl

theorem readChar_keys : Relates (Calls keyCall) (readChar fw) := readChar_calls fw trivial fun _ => trivial

/-- The exit label of both phases. -/
theorem keyPrompt_keys {prompt : List UInt16} {told : World} {key : UInt16} (quiet : plain prompt = true)
    (tells : printf fw prompt [] before = ((), told)) (reads : readChar fw told = (key, after)) :
    Calls keyCall before after :=
  IsTrans.trans _ _ _ (((printf_prints fw _ _ quiet).run tells).calls keyCall) (readChar_keys.run reads)

variable (sound : AllocatorSound fw)
include sound

theorem printf_grows (format : List UInt16) (args : List Arg) : Relates Grows (printf fw format args) :=
  grows_of_kept (printf_kept sound format args)

theorem malloc_grows (size : Nat) : Relates Grows (malloc fw size) :=
  grows_of_run fun holds run => ⟨_, malloc_holds sound holds run⟩

theorem wbootReadSetupHeader_kept (file : Nat) (header : SetupHeader) :
    Relates Kept (wbootReadSetupHeader fw file header) := by
  have refuses (message : List UInt16) (args : List Arg) (result : EfiStatus × SetupHeader) :
      Relates Kept (do printf fw message args; return result : Boot _) :=
    (printf_kept sound _ _).bind fun _ => .pure _
  refine (fileSetPosition_kept file _).bind fun status => .ite (fun _ => ?_) fun _ => ?_
  · exact (printf_kept sound _ _).bind fun _ => .pure _
  refine Relates.bind (service_kept _ _ (fun _ => rfl) fun _ _ => rfl) fun reply => .ite (fun _ => ?_) fun _ => ?_
  · exact (printf_kept sound _ _).bind fun _ => .pure _
  · exact .ite (fun _ => refuses _ _ _) fun _ => .ite (fun _ => refuses _ _ _) fun _ =>
      .ite (fun _ => refuses _ _ _) fun _ => .pure _

theorem wbootDecompressKernel_grows (header : SetupHeader) (file : Nat) (out : KernelBuffer) :
    Relates Grows (wbootDecompressKernel fw zstd header file out) :=
  grows_of_run fun holds run => ⟨_, wbootDecompressKernel_adds sound holds run⟩

end Stages

/-! ### The searches -/

/-- What is held stays held, or the accounts begin again behind a NULL that was freed. -/
def Resumes (before after : World) : Prop :=
  ∀ start held, Holds start held before → ∃ fresh left, Pardons start fresh ∧ Holds fresh left after

instance : IsPreorder World Resumes where
  refl := fun _ start held holds => ⟨start, held, Std.Refl.refl start, holds⟩
  trans := fun _ _ _ left right start held holds => by
    obtain ⟨early, between, first, middle⟩ := left start held holds
    obtain ⟨late, rest, second, last⟩ := right early between middle
    exact ⟨late, rest, IsTrans.trans _ _ _ first second, last⟩

theorem grows_resumes (before after : World) (grows : Grows before after) : Resumes before after := by
  intro start held holds
  obtain ⟨more, later⟩ := grows start held holds
  exact ⟨start, _, Std.Refl.refl start, later⟩

theorem kept_resumes (before after : World) (kept : Kept before after) : Resumes before after :=
  grows_resumes _ _ (kept_grows _ _ kept)

section Searching
variable {fw : Firmware}

theorem openVolume_grows (fs : Nat) : Relates Grows (openVolume fw fs) := by
  refine grows_of_run fun {_ _ _ held reply} holds run => ?_
  have opening := openVolume_holds holds run
  by_cases failed : efiError reply.1 = true
  · rw [if_pos failed] at opening
    exact nothing_more opening
  · rw [if_neg failed] at opening
    exact ⟨{.file reply.2}, by rwa [Multiset.singleton_add]⟩

variable (sound : AllocatorSound fw)
include sound

theorem showPath_resumes (handle : Nat) (mute shown failed : List UInt16) :
    Relates Resumes (showPath fw handle mute shown failed) := by
  intro world start held holds
  obtain ⟨⟨⟩, after, run⟩ : ∃ outcome after, showPath fw handle mute shown failed world = (outcome, after) :=
    ⟨_, _, rfl⟩
  rw [run]
  rcases path_courses sound holds run with ⟨-, freed⟩ | ⟨-, told, status, telling, frees⟩
  · exact ⟨start, held, Std.Refl.refl start, freed⟩
  · have flag : after.bsExited = false := (service_bsExited frees).trans telling.early
    exact ⟨after, 0, freePool_pardons telling.settles frees, .nothing flag⟩

theorem tryHandle_resumes (handle : Nat) : Relates Resumes (tryHandle fw handle) := by
  have told (message : List UInt16) (status : EfiStatus) : Relates Grows (do
      perror fw message status
      return none : Boot (Option WbootConfig)) :=
    (printf_grows sound _ _).bind fun _ => .pure _
  refine Relates.bind (showPath_resumes sound handle _ _ _) fun _ => Relates.mono ?_ grows_resumes
  refine (grows_of_kept (handleProtocol_kept _ _)).bind fun fs => .ite (fun _ => told _ _) fun _ => ?_
  refine (openVolume_grows _).bind fun root => .ite (fun _ => told _ _) fun _ => ?_
  exact grows_of_run fun holds run => ⟨_, (ConfigCleanup.wbootLoadConfig_adds sound holds run).1⟩

theorem tryHandles_resumes (handles : List Nat) : Relates Resumes (tryHandles fw handles) := by
  induction handles with
  | nil => exact .pure _
  | cons handle rest ih =>
      refine (tryHandle_resumes sound handle).bind fun found => ?_
      cases found with
      | none => exact ih
      | some config => exact .pure _

theorem wbootLocateConfig_resumes : Relates Resumes (wbootLocateConfig fw) := by
  have lists := service_kept (fun history => fw.locateHandle history .simpleFileSystem)
    (fun reply => .locateHandle .simpleFileSystem reply.1) (fun _ => rfl) fun _ _ => rfl
  have asks (message : List UInt16) := Relates.mono (textProtocol_kept sound message) kept_resumes
  refine Relates.bind (asks _) fun status => .ite (fun _ => .pure _) fun _ => ?_
  refine (lists.mono kept_resumes).bind fun handles => .ite (fun _ => .pure _) fun _ => ?_
  refine (tryHandles_resumes sound _).bind fun found => ?_
  cases found with
  | none => exact ((printf_kept sound _ _).mono kept_resumes).bind fun _ => .pure _
  | some config => exact .pure _

theorem tryVolume_resumes (handle : Nat) (out : Phase2.FoundFiles) :
    Relates Resumes (Phase2.tryVolume fw handle out) := by
  have told (message : List UInt16) (status : EfiStatus) (result : Bool × Phase2.FoundFiles) : Relates Grows (do
      perror fw message status
      return result : Boot (Bool × Phase2.FoundFiles)) :=
    (printf_grows sound _ _).bind fun _ => .pure _
  refine Relates.bind (showPath_resumes sound handle _ _ _) fun _ => Relates.mono ?_ grows_resumes
  refine (grows_of_kept (handleProtocol_kept _ _)).bind fun fs => .ite (fun _ => told _ _ _) fun _ => ?_
  refine (openVolume_grows _).bind fun root => .ite (fun _ => told _ _ _) fun _ => ?_
  refine (fileOpen_grows _ _).bind fun kernel => .ite (fun _ => told _ _ _) fun _ => ?_
  refine (printf_grows sound _ _).bind fun _ => (fileOpen_grows _ _).bind fun initramfs => ?_
  exact .ite (fun _ => told _ _ _) fun _ => (printf_grows sound _ _).bind fun _ => .pure _

theorem tryVolumes_resumes (handles : List Nat) (out : Phase2.FoundFiles) :
    Relates Resumes (Phase2.tryVolumes fw handles out) := by
  induction handles generalizing out with
  | nil => exact .pure _
  | cons handle rest ih =>
      exact (tryVolume_resumes sound handle out).bind fun tried => .ite (fun _ => .pure _) fun _ => ih _

theorem wbootLocateKernel_resumes (out : Phase2.FoundFiles) : Relates Resumes (Phase2.wbootLocateKernel fw out) := by
  have tells (format : List UInt16) (args : List Arg) : Relates Resumes (printf fw format args) :=
    (printf_kept sound _ _).mono kept_resumes
  have lists := service_kept (fun history => fw.locateHandle history .simpleFileSystem)
    (fun reply => .locateHandle .simpleFileSystem reply.1) (fun _ => rfl) fun _ _ => rfl
  have asks (message : List UInt16) := Relates.mono (textProtocol_kept sound message) kept_resumes
  refine (tells _ _).bind fun _ => Relates.bind (asks _) fun status => ?_
  refine .ite (fun _ => .pure _) fun _ => (lists.mono kept_resumes).bind fun handles => .ite (fun _ => ?_) fun _ => ?_
  · exact (tells _ _).bind fun _ => .pure _
  refine (tells _ _).bind fun _ => (tryVolumes_resumes sound _ _).bind fun tried => ?_
  exact .ite (fun _ => .pure _) fun _ => (tells _ _).bind fun _ => .pure _

end Searching

/-! ### The stages of phase 3 -/

section Loading
variable {fw : Firmware} {zstd : Zstd} (sound : AllocatorSound fw)

theorem openFile_grows (root path : Nat) : Relates Grows (openFile fw root path) :=
  (Relates.read _).bind fun _ => fileOpen_grows _ _

include sound

theorem loadKernel_grows (config : WbootConfig) (stack : SetupHeader) :
    Relates Grows (loadKernel fw zstd config stack) := by
  have opened : Relates Grows (wbootOpenKernel fw config) := openFile_grows _ _
  unfold loadKernel
  refine (printf_grows sound _ _).bind fun _ => opened.bind fun file => .ite (fun _ => .pure _) fun _ => ?_
  refine (printf_grows sound _ _).bind fun _ => ?_
  refine (grows_of_kept (wbootReadSetupHeader_kept sound _ _)).bind fun header => .ite (fun _ => .pure _) fun _ => ?_
  refine (printf_grows sound _ _).bind fun _ => (wbootDecompressKernel_grows sound _ _ _).bind fun kernel => ?_
  exact .ite (fun _ => .pure _) fun _ => .pure _

theorem wbootLoadInitramfs_grows (config : WbootConfig) (out : Initramfs) :
    Relates Grows (wbootLoadInitramfs fw config out) := by
  refine (openFile_grows _ _).bind fun opened => .ite (fun _ => ?_) fun _ => ?_
  · exact (printf_grows sound _ _).bind fun _ => .pure _
  refine (grows_of_kept (initramfsFileSize_kept sound _)).bind fun size => ?_
  cases size with
  | error status => exact .pure _
  | ok fileSize =>
      refine grows_of_run fun {_ _ _ held _} holds run => ?_
      dsimp only at run
      rw [run_bind] at run
      obtain ⟨buffer, granted, grants, run⟩ := run
      have granting := allocateInitramfs_holds holds grants
      rw [run_ite] at run
      rcases run with ⟨refused, run⟩ | ⟨given, run⟩
      · rw [if_pos refused] at granting
        rw [run_bind] at run
        obtain ⟨_, told, tells, run⟩ := run
        cases run
        exact nothing_more ((printf_kept sound _ _).run tells _ _ granting)
      rw [if_neg given] at granting
      rw [run_bind] at run
      obtain ⟨_, cleared, clears, run⟩ := run
      have clearing := (inRam_kept _).run clears _ _ granting
      rw [run_bind] at run
      obtain ⟨reply, delivered, delivers, run⟩ := run
      have delivering := (fileReadInto_kept _ _ _).run delivers _ _ clearing
      rw [run_ite] at run
      rcases run with ⟨-, run⟩ | ⟨-, run⟩
      · exact nothing_more (unread_holds sound delivering run)
      rw [run_ite] at run
      rcases run with ⟨-, run⟩ | ⟨-, run⟩
      · exact nothing_more (unread_holds sound delivering run)
      · cases run
        exact ⟨{.pages buffer.2 _}, by rw [Multiset.singleton_add]; exact delivering⟩

end Loading

section Preparing
variable {fw : Firmware}

theorem display_neither (event : Event) (display : displayCall event) :
    entry event = .neither ∧ ∀ history, live (event :: history) = live history := by
  cases event <;> first | exact display.elim | exact ⟨rfl, fun _ => rfl⟩

variable (sound : AllocatorSound fw)
include sound

theorem wbootPrepareBootparams_grows (config : WbootConfig) (header : SetupHeader) (initramfs : Initramfs) :
    Relates Grows (wbootPrepareBootparams fw config header initramfs) := by
  refine (malloc_grows sound _).bind fun params => .ite (fun _ => ?_) fun _ => ?_
  · exact (Relates.read _).bind fun _ => (printf_grows sound _ _).bind fun _ => .pure _
  · exact (grows_of_kept (inRam_kept _)).bind fun _ => .pure _

omit sound in
theorem wbootSetupGraphics_kept (config : WbootConfig) (params : Nat) :
    Relates Kept (wbootSetupGraphics fw config params) :=
  wbootSetupGraphics_relates
    { prints := prints_kept
      calls := fun _ _ display => service_kept _ _ (fun reply => (display_neither _ (display reply)).1)
        fun reply => (display_neither _ (display reply)).2
      paints := fun _ _ => inRam_kept _ } config

/-- The map is only counted here; the list of the entries stays. -/
theorem wbootAllocateE820_grows (buffer : E820Buffer) : Relates Grows (wbootAllocateE820 fw buffer) := by
  refine (grows_of_kept (getMemoryMap_kept _ _)).bind fun query => .ite (fun _ => ?_) fun _ => ?_
  · exact (printf_grows sound _ _).bind fun _ => .pure _
  refine grows_of_run fun {_ _ _ held _} holds run => ?_
  rw [run_bind] at run
  obtain ⟨memmap, allocated, allocation, run⟩ := run
  have taken := malloc_holds sound holds allocation
  rw [run_ite] at run
  rcases run with ⟨null, run⟩ | ⟨-, run⟩
  · simp only [run_bind] at run
    obtain ⟨errno, _, here, _, told, tells, run⟩ := run
    obtain ⟨rfl, rfl⟩ := Prod.mk.inj here
    cases run
    exact ⟨_, (printf_kept sound _ _).run tells _ _ taken⟩
  rw [run_bind] at run
  obtain ⟨reply, fetched, fetches, run⟩ := run
  have fetching := (getMemoryMap_kept _ _).run fetches _ _ taken
  rw [run_ite] at run
  rcases run with ⟨-, run⟩ | ⟨-, run⟩
  · exact nothing_more (undone_holds sound fetching run)
  rw [run_ite] at run
  rcases run with ⟨-, run⟩ | ⟨-, run⟩
  · rw [run_bind] at run
    obtain ⟨node, given, gives, run⟩ := run
    have both := malloc_holds sound fetching gives
    rw [add_left_comm] at both
    rw [run_ite] at run
    rcases run with ⟨-, run⟩ | ⟨-, run⟩
    · rw [run_bind] at run
      obtain ⟨errno, _, here, run⟩ := run
      obtain ⟨rfl, rfl⟩ := Prod.mk.inj here
      exact ⟨_, undone_holds sound both run⟩
    · rw [run_bind] at run
      obtain ⟨⟨⟩, freed, frees, run⟩ := run
      cases run
      exact ⟨_, free_holds both frees⟩
  · rw [run_bind] at run
    obtain ⟨⟨⟩, freed, frees, run⟩ := run
    cases run
    exact nothing_more (free_holds fetching frees)

theorem prepareHandoff_grows (files : LoadedFiles) : Relates Grows (prepareHandoff fw files) := by
  unfold prepareHandoff
  refine (printf_grows sound _ _).bind fun _ => (wbootPrepareBootparams_grows sound _ _ _).bind fun params => ?_
  refine .ite (fun _ => (printf_grows sound _ _).bind fun _ => .pure _) fun _ => ?_
  refine (printf_grows sound _ _).bind fun _ => ?_
  refine (grows_of_kept (wbootSetupGraphics_kept _ _)).bind fun status => .ite (fun _ => ?_) fun _ => ?_
  · exact (printf_grows sound _ _).bind fun _ => .pure _
  refine (printf_grows sound _ _).bind fun _ => (wbootAllocateE820_grows sound _).bind fun e820ext => ?_
  exact .ite (fun _ => (printf_grows sound _ _).bind fun _ => .pure _) fun _ => .pure _

end Preparing

/-! ### The exit -/

section Exit
variable {fw : Firmware} {start before after : World} {held : Multiset Held} {size memmap : Nat}
  {outcome : Option MemoryMapReply}

/-- A failed attempt has freed the buffer of the map. -/
def mapHeld (memmap : Nat) : Option MemoryMapReply → Multiset Held
  | none => 0
  | some _ => owned memmap

theorem refused_holds (sound : AllocatorSound fw) {message : List UInt16} {status : EfiStatus}
    (holds : Holds start (owned memmap + held) before)
    (run : (do
      perror fw message status
      free fw memmap
      return none : Boot (Option MemoryMapReply)) before = (outcome, after)) :
    Holds start (mapHeld memmap outcome + held) after := by
  have failed : outcome = none := (congrArg Prod.fst run).symm
  subst failed
  rw [mapHeld, zero_add]
  exact undone_holds sound holds run

theorem attempt_holds (sound : AllocatorSound fw) {message : List UInt16}
    {retry : EfiStatus → Boot (Option MemoryMapReply)}
    (retries : ∀ status world, Holds start (owned memmap + held) world → retry status world = (outcome, after) →
      Holds start (mapHeld memmap outcome + held) after)
    (holds : Holds start (owned memmap + held) before)
    (run : (do
      let reply ← getMemoryMap fw size memmap
      if efiError reply.status then
        perror fw message reply.status
        free fw memmap
        return none
      let status ← exitBootServices fw reply.mapKey
      if efiError status then retry status
      else return some reply) before = (outcome, after)) : Holds start (mapHeld memmap outcome + held) after := by
  rw [run_bind] at run
  obtain ⟨reply, fetched, fetches, run⟩ := run
  have fetching := (getMemoryMap_kept _ _).run fetches _ _ holds
  rw [run_ite] at run
  rcases run with ⟨-, run⟩ | ⟨-, run⟩
  · exact refused_holds sound fetching run
  rw [run_bind] at run
  obtain ⟨status, exited, exits, run⟩ := run
  have exiting := (service_kept _ _ (fun _ => rfl) fun _ _ => rfl).run exits _ _ fetching
  rw [run_ite] at run
  rcases run with ⟨-, run⟩ | ⟨-, run⟩
  · exact retries _ _ exiting run
  · cases run
    exact exiting

theorem firstAttempt_holds (sound : AllocatorSound fw) {mapSize : Nat}
    (holds : Holds start (owned memmap + held) before)
    (run : firstAttempt fw mapSize size memmap before = (outcome, after)) :
    Holds start (mapHeld memmap outcome + held) after := by
  refine attempt_holds sound (fun status world again run => ?_) holds run
  simp only [run_bind] at run
  obtain ⟨_, warned, warns, _, told, tells, run⟩ := run
  have telling := (printf_kept sound _ _).run tells _ _ ((printf_kept sound _ _).run warns _ _ again)
  exact attempt_holds sound (fun status world refused run => refused_holds sound refused run) telling run

/-- Without a map everything is as it was; with one, boot services have ended. -/
theorem wbootExitBs_settles (sound : AllocatorSound fw) {params : Nat} (holds : Holds start held before)
    (run : wbootExitBs fw params before = (memmap, after)) : Settles start after (owned memmap + held) := by
  have asked {query : MemoryMapReply} {queried : World} (asks : getMemoryMap fw 0 0 before = (query, queried)) :
      Holds start held queried := (getMemoryMap_kept _ _).run asks _ _ holds
  cases wbootExitBs_course fw run with
  | unsized asks _ tells =>
      rw [owned, if_pos rfl, zero_add]
      exact ((printf_kept sound _ _).run tells _ _ (asked asks)).settles
  | scarce asks _ allocation tells =>
      exact ((printf_kept sound _ _).run tells _ _ (malloc_holds sound (asked asks) allocation)).settles
  | refused steps attempts =>
      have attempted := firstAttempt_holds sound (malloc_holds sound (asked steps.asks) steps.allocation) attempts
      rw [owned, if_pos rfl]
      exact attempted.settles
  | exited steps attempts ends =>
      have attempted := firstAttempt_holds sound (malloc_holds sound (asked steps.asks) steps.allocation) attempts
      cases ends
      exact attempted.settles

theorem jump_neither (event : Event) (jumps : jump event) : entry event = .neither := by
  cases event <;> first | exact absurd jumps Bool.false_ne_true | rfl

theorem enterKernel_settles (sound : AllocatorSound fw) (prepared : Prepared) {status : Option EfiStatus}
    (holds : Holds start held before) (run : enterKernel fw prepared before = (status, after)) :
    ∃ left, Settles start after left := by
  unfold enterKernel at run
  rw [run_bind] at run
  obtain ⟨_, printed, prints, run⟩ := run
  rw [run_bind] at run
  obtain ⟨memmap, exited, exits, run⟩ := run
  have exiting := wbootExitBs_settles sound ((printf_kept sound _ _).run prints _ _ holds) exits
  have calls : Calls jump exited after := by
    refine Relates.run (.ite (fun _ => Relates.bind ?_ fun _ => .pure _) fun _ => afterExit_jumps prepared memmap) run
    exact (message_prints fw (by simp [messages]) _).mono fun _ _ prints => prints.calls _
  exact ⟨_, exiting.later jump_neither calls⟩

/-! No call is taken back, whatever the attempts come to. -/

theorem attempt_longer {message : List UInt16} {retry : EfiStatus → Boot (Option MemoryMapReply)}
    (retries : ∀ status, Relates Longer (retry status)) : Relates Longer (do
      let reply ← getMemoryMap fw size memmap
      if efiError reply.status then
        perror fw message reply.status
        free fw memmap
        return none
      let status ← exitBootServices fw reply.mapKey
      if efiError status then retry status
      else return some reply) := by
  have exits (key : Nat) : Relates (Calls fun _ => True) (exitBootServices fw key) :=
    service_calls _ _ fun _ => trivial
  refine (longer_of_calls (getMemoryMap_unexited _ _)).bind fun reply => .ite (fun _ => ?_) fun _ => ?_
  · exact longer_of_calls ((perror_unexited _ _).bind fun _ => (free_unexited _).bind fun _ => .pure _)
  · exact (longer_of_calls (exits _)).bind fun status => .ite (fun _ => retries _) fun _ => .pure _

theorem firstAttempt_longer (mapSize : Nat) : Relates Longer (firstAttempt fw mapSize size memmap) := by
  have second : Relates Longer (secondAttempt fw size memmap) := attempt_longer fun _ =>
    longer_of_calls ((perror_unexited _ _).bind fun _ => (free_unexited _).bind fun _ => .pure _)
  refine attempt_longer fun status => ?_
  refine (longer_of_calls (perror_unexited _ _)).bind fun _ => Relates.bind ?_ fun _ => second
  exact (printf_prints fw _ _ plain_retry).mono fun _ _ prints => calls_longer _ _ (prints.calls ordinary)

theorem wbootExitBs_longer (params : Nat) : Relates Longer (wbootExitBs fw params) := by
  have ends (memmap : Nat) (reply : MemoryMapReply) : Relates Longer (do
      wstdlibBsExited
      inRam (populateBootparamsEfi fw.systemTable params memmap reply.mapSize reply.descSize (u32 reply.descVer))
      return memmap : Boot Nat) :=
    fun _ => List.suffix_rfl
  refine (longer_of_calls (getMemoryMap_unexited _ _)).bind fun query => .ite (fun _ => ?_) fun _ => ?_
  · exact longer_of_calls ((perror_unexited _ _).bind fun _ => .pure _)
  refine (longer_of_calls ((ordinary_absorbs fw).malloc _)).bind fun memmap => .ite (fun _ => ?_) fun _ => ?_
  · exact longer_of_calls ((Relates.read _).bind fun _ => (perror_unexited _ _).bind fun _ => .pure _)
  refine (firstAttempt_longer _).bind fun outcome => ?_
  cases outcome with
  | none => exact .pure _
  | some reply => exact ends _ _

theorem enterKernel_longer (prepared : Prepared) : Relates Longer (enterKernel fw prepared) := by
  have absorbs := ordinary_absorbs fw
  refine (longer_of_calls (absorbs.printf _ _)).bind fun _ => (wbootExitBs_longer _).bind fun memmap => ?_
  refine .ite (fun _ => longer_of_calls ((absorbs.printf _ _).bind fun _ => .pure _)) fun _ => ?_
  exact longer_of_calls (afterExit_jumps prepared memmap)

end Exit

/-! ### A search, and the rest of the run -/

section Searched
variable {fw : Firmware} {start found after : World} {held : Multiset Held} {visits : List ConfigSearch.Visit}

/-- When nothing goes wrong behind the search, the run balances exactly if every path of the
search has a text, and NULL is the worst that it frees. -/
theorem searched_run_balances (accounts : Accounts fw start held visits found)
    (resumes : ∃ fresh left, Pardons start fresh ∧ Holds fresh left found) (longer : Longer found after)
    (ending : ∀ begun kept, Holds begun kept found → ∃ left, Settles begun after left) :
    ((∃ left, Settles start after left) ↔ ∀ visit ∈ visits, visit.named fw) ∧ Pardons start after := by
  refine ⟨⟨?_, fun named => ending _ _ (accounts.balances named)⟩, ?_⟩
  · rintro ⟨left, settles⟩ visit member
    by_contra unnamed
    exact ((accounts.faults visit member unnamed).later longer).unsettled settles
  · obtain ⟨fresh, kept, pardons, holds⟩ := resumes
    obtain ⟨left, settles⟩ := ending fresh kept holds
    exact IsTrans.trans _ _ _ pardons settles.pardons

end Searched

/-! ### efi_main of phase 3 -/

section Phase3
variable {fw : Firmware} {zstd : Zstd} {stack : SetupHeader} {start : World}

/-- The world in which the configuration is looked for. -/
def greeted (fw : Firmware) (world : World) : World :=
  (do
    printf fw logo []
    printf fw (wide "[wboot] hello from wboot!\r\n") []
    printf fw (wide "[wboot] locating config...\r\n") [] : Boot Unit) world |>.2

theorem greeted_kept (sound : AllocatorSound fw) (world : World) : Kept world (greeted fw world) := by
  have greets : Relates Kept (do
      printf fw logo []
      printf fw (wide "[wboot] hello from wboot!\r\n") []
      printf fw (wide "[wboot] locating config...\r\n") [] : Boot Unit) :=
    (printf_kept sound _ _).bind fun _ => (printf_kept sound _ _).bind fun _ => printf_kept sound _ _
  exact greets world

/-- What the stages of the load have in common, `loadFiles` has behind the search. -/
theorem loadFiles_after (fw : Firmware) (zstd : Zstd) (stack : SetupHeader) {step : World → World → Prop}
    [IsPreorder World step]
    (tells : ∀ format args, Relates step (printf fw format args))
    (kernel : ∀ config, Relates step (loadKernel fw zstd config stack))
    (initramfs : ∀ config, Relates step (wbootLoadInitramfs fw config ⟨0, 0⟩)) (world : World) :
    step (wbootLocateConfig fw (greeted fw world)).2 (loadFiles fw zstd stack world).2 := by
  obtain ⟨outcome, after, run⟩ : ∃ outcome after, loadFiles fw zstd stack world = (outcome, after) := ⟨_, _, rfl⟩
  rw [run]
  unfold loadFiles at run
  rw [run_bind] at run
  obtain ⟨⟨⟩, first, logos, run⟩ := run
  rw [run_bind] at run
  obtain ⟨⟨⟩, second, greets, run⟩ := run
  rw [run_bind] at run
  obtain ⟨⟨⟩, third, announces, run⟩ := run
  rw [run_bind] at run
  obtain ⟨located, found, locates, run⟩ := run
  have here : wbootLocateConfig fw (greeted fw world) = (located, found) := by
    simp only [greeted, bind_apply, logos, greets, announces, locates]
  rw [here]
  have shows (config : WbootConfig) : Relates step (printConfig fw config) :=
    (tells _ _).bind fun _ => (tells _ _).bind fun _ => (tells _ _).bind fun _ => tells _ _
  refine Relates.run (.ite (fun _ => .pure _) fun _ => (shows _).bind fun _ => (kernel _).bind fun loaded => ?_) run
  cases loaded with
  | error status => exact .pure _
  | ok loaded =>
      exact (tells _ _).bind fun _ => (initramfs _).bind fun read => .ite (fun _ => .pure _) fun _ => .pure _

theorem bootStages_longer (world : World) :
    Longer (loadFiles fw zstd stack world).2 (bootStages fw zstd stack world).2 := by
  obtain ⟨status, after, run⟩ : ∃ status after, bootStages fw zstd stack world = (status, after) := ⟨_, _, rfl⟩
  rw [run]
  unfold bootStages at run
  rw [run_bind] at run
  obtain ⟨loaded, files, loads, run⟩ := run
  rw [loads]
  cases loaded with
  | error status =>
      cases run
      exact List.suffix_rfl
  | ok loaded =>
      dsimp only at run
      rw [run_bind] at run
      obtain ⟨outcome, middle, prepares, run⟩ := run
      have preparing := (longer_of_calls (prepareHandoff_ordinary fw loaded)).run prepares
      cases outcome with
      | error status =>
          cases run
          exact preparing
      | ok prepared => exact IsTrans.trans _ _ _ preparing ((enterKernel_longer prepared).run run)

theorem bootStages_settles (sound : AllocatorSound fw) {held : Multiset Held} (world : World)
    (holds : Holds start held (loadFiles fw zstd stack world).2) :
    ∃ left, Settles start (bootStages fw zstd stack world).2 left := by
  obtain ⟨status, after, run⟩ : ∃ status after, bootStages fw zstd stack world = (status, after) := ⟨_, _, rfl⟩
  rw [run]
  unfold bootStages at run
  rw [run_bind] at run
  obtain ⟨loaded, files, loads, run⟩ := run
  rw [loads] at holds
  cases loaded with
  | error status =>
      cases run
      exact ⟨_, holds.settles⟩
  | ok loaded =>
      dsimp only at run
      rw [run_bind] at run
      obtain ⟨outcome, middle, prepares, run⟩ := run
      obtain ⟨more, preparing⟩ := (prepareHandoff_grows sound loaded).run prepares _ _ holds
      cases outcome with
      | error status =>
          cases run
          exact ⟨_, preparing.settles⟩
      | ok prepared => exact enterKernel_settles sound prepared preparing run

/-- A run of phase 3 frees what it holds, each thing once, exactly if every path it shows has a text.
Whatever else it frees is NULL. -/
theorem phase3_balances_iff (fw : Firmware) (zstd : Zstd) (stack : SetupHeader) (world : World)
    (sound : AllocatorSound fw) (early : world.bsExited = false) :
    ((∃ left, Settles world (efiMain fw zstd stack world).2 left) ↔
      ∀ visit ∈ tried fw (greeted fw world), visit.named fw) ∧
    Pardons world (efiMain fw zstd stack world).2 := by
  obtain ⟨located, found, locates⟩ : ∃ located found, wbootLocateConfig fw (greeted fw world) = (located, found) :=
    ⟨_, _, rfl⟩
  have greeting := greeted_kept sound world _ _ (.nothing early)
  have accounts := wbootLocateConfig_accounts sound greeting (fun _ => Multiset.notMem_zero _) locates
  obtain ⟨outcome, after, run⟩ : ∃ outcome after, efiMain fw zstd stack world = (outcome, after) := ⟨_, _, rfl⟩
  rw [run]
  obtain ⟨status, staged, stages, last⟩ : ∃ status staged, bootStages fw zstd stack world = (status, staged) ∧
      Calls keyCall staged after := by
    rcases efiMain_ends fw zstd run with ⟨-, stages⟩ | ⟨status, staged, told, key, -, stages, tells, reads⟩
    · exact ⟨_, _, stages, Std.Refl.refl after⟩
    · exact ⟨_, _, stages, keyPrompt_keys (plainMessages _ (by simp [messages])) tells reads⟩
  have loading : Grows found (loadFiles fw zstd stack world).2 := by
    have later := loadFiles_after fw zstd stack (printf_grows sound) (loadKernel_grows sound · stack)
      (wbootLoadInitramfs_grows sound · _) world
    rwa [locates] at later
  -- from a search that is accounted for to the end of the run
  have ending (begun : World) (kept : Multiset Held) (holds : Holds begun kept found) :
      ∃ left, Settles begun after left := by
    obtain ⟨more, loaded⟩ := loading _ _ holds
    obtain ⟨left, staging⟩ := bootStages_settles sound world loaded
    rw [stages] at staging
    exact ⟨left, staging.later key_neither last⟩
  have absorbs := ordinary_absorbs fw
  have loaded : Longer _ _ := loadFiles_after fw zstd stack
    (fun format args => longer_of_calls (absorbs.printf format args))
    (fun config => longer_of_calls (loadKernel_ordinary fw zstd config stack))
    (fun config => longer_of_calls (wbootLoadInitramfs_ordinary fw config _)) world
  have staging := @bootStages_longer fw zstd stack world
  rw [stages] at staging
  rw [locates] at loaded
  have whole := IsTrans.trans _ _ _ (IsTrans.trans _ _ _ loaded staging) (calls_longer _ _ last)
  exact searched_run_balances accounts ((wbootLocateConfig_resumes sound).run locates _ _ greeting) whole ending

/-! A run that boots from a volume without a device path. -/

def pathlessDisk : Firmware := { diskFirmware with
  handleProtocol := fun _ handle protocol =>
    if protocol = .devicePath then (efiNotFound, 0) else (efiSuccess, handle) }

theorem pathlessDisk_sound : AllocatorSound pathlessDisk :=
  ⟨idleFirmware_sound.pool, idleFirmware_sound.pages, idleFirmware_sound.text, idleFirmware_sound.atAddress⟩

theorem pathless_boot_balances :
    handsOff (efiMain pathlessDisk storingZstd (acceptedHeader 0) bootWorld).2.history ∧
      ∃ left, Settles bootWorld (efiMain pathlessDisk storingZstd (acceptedHeader 0) bootWorld).2 left := by
  refine ⟨by decide +kernel, (phase3_balances_iff pathlessDisk storingZstd (acceptedHeader 0) bootWorld
    pathlessDisk_sound rfl).1.mpr ?_⟩
  intro visit _ pathed
  exact absurd pathed (by decide : efiError efiNotFound ≠ false)

end Phase3

/-! ### efi_main of phase 2 -/

section Phase2
variable {fw : Firmware} {zstd : Zstd} {stack : Phase2.Locals}

theorem plain_anyKey : plain (wide "Press any key to continue...\r\n") = true := by decide +kernel

theorem alike_kept (before after : World) (alike : Alike before after) : Kept before after :=
  kept_of_same alike.bsExited.symm alike.history.symm

theorem alike_longer (before after : World) (alike : Alike before after) : Longer before after :=
  ⟨[], alike.history⟩

/-- A part of phase 2 that agrees with one of phase 3 has the same entries in the ledger. -/
theorem relates_of_agrees {α : Type} {left right : Boot α} {step : World → World → Prop} [IsPreorder World step]
    (blind : ∀ before after, Alike before after → step before after) (agrees : Agrees Alike left right)
    (relates : Relates step right) : Relates step left := by
  intro world
  obtain ⟨-, alike⟩ := agrees world world (Std.Refl.refl _)
  exact IsTrans.trans _ _ _ (relates world) (blind _ _ (Std.Symm.symm _ _ alike))

theorem showFile_relates {step : World → World → Prop} [IsPreorder World step]
    (tells : ∀ format args, Relates step (printf fw format args))
    (informs : ∀ file size buffer, Relates step (fileGetInfo fw file size buffer))
    (loads : ∀ base field, Relates step (inRam (loadField base field))) (file fileInfo : Nat)
    (failed found sized : List UInt16) : Relates step (Phase2.showFile fw file fileInfo failed found sized) := by
  refine (informs _ _ _).bind fun info => .ite (fun _ => (tells _ _).bind fun _ => .pure _) fun _ => ?_
  exact (tells _ _).bind fun _ => (loads _ _).bind fun _ => (tells _ _).bind fun _ => .pure _

theorem wbootDumpSetupHeader_relates {step : World → World → Prop} [IsPreorder World step]
    (tells : ∀ format args, Relates step (printf fw format args)) (header : SetupHeader) :
    Relates step (Phase2.wbootDumpSetupHeader fw header) := by
  have lines (some : List Phase2.DumpLine) : Relates step (Phase2.printLines fw header some) := by
    induction some with
    | nil => exact .pure ()
    | cons line rest ih => exact (tells _ _).bind fun _ => ih
  exact (tells _ _).bind fun _ => (lines _).bind fun _ => (tells _ _).bind fun _ => lines _

theorem kernelInitramfs_grows (sound : AllocatorSound fw) (file : Nat) (out : Initramfs) :
    Relates Grows (Phase2.wbootLoadInitramfs fw file out) := by
  have sizes := relates_of_agrees alike_kept (initramfsFileSize_agrees fw file) (initramfsFileSize_kept sound file)
  refine (grows_of_kept sizes).bind fun size => ?_
  cases size with
  | error status => exact .pure _
  | ok fileSize =>
      refine grows_of_run fun {_ _ _ held _} holds run => ?_
      dsimp only at run
      rw [run_bind] at run
      obtain ⟨buffer, allocated, allocation, run⟩ := run
      have taken := malloc_holds sound holds allocation
      rw [run_ite] at run
      rcases run with ⟨-, run⟩ | ⟨-, run⟩
      · simp only [run_bind] at run
        obtain ⟨errno, _, here, _, told, tells, later, _, there, run⟩ := run
        obtain ⟨rfl, rfl⟩ := Prod.mk.inj here
        obtain ⟨rfl, rfl⟩ := Prod.mk.inj there
        cases run
        exact ⟨_, (printf_kept sound _ _).run tells _ _ taken⟩
      rw [run_bind] at run
      obtain ⟨reply, delivered, delivers, run⟩ := run
      have delivering := (fileReadInto_kept _ _ _).run delivers _ _ taken
      rw [run_ite] at run
      rcases run with ⟨-, run⟩ | ⟨-, run⟩
      · exact nothing_more (undone_holds sound delivering run)
      · cases run
        exact ⟨_, delivering⟩

theorem kernelInitramfs_longer (file : Nat) (out : Initramfs) :
    Relates Longer (Phase2.wbootLoadInitramfs fw file out) := by
  have absorbs := ordinary_absorbs fw
  have tells (format : List UInt16) (args : List Arg) : Relates Longer (printf fw format args) :=
    longer_of_calls (absorbs.printf format args)
  refine (relates_of_agrees alike_longer (initramfsFileSize_agrees fw file)
    (longer_of_calls (initramfsFileSize_ordinary fw file))).bind fun size => ?_
  cases size with
  | error status => exact .pure _
  | ok fileSize =>
      refine (longer_of_calls (absorbs.malloc _)).bind fun buffer => .ite (fun _ => ?_) fun _ => ?_
      · exact (Relates.read _).bind fun _ => (tells _ _).bind fun _ => (Relates.read _).bind fun _ => .pure _
      refine (longer_of_calls (fileReadInto_ordinary fw _ _ _)).bind fun reply => .ite (fun _ => ?_) fun _ => .pure _
      exact (tells _ _).bind fun _ => (longer_of_calls (absorbs.free _)).bind fun _ => .pure _

/-- The block for the names of the files is given back behind the dump, and kept if something
fails before that. -/
theorem loadStages_grows (sound : AllocatorSound fw) (world : World) :
    Grows (Phase2.wbootLocateKernel fw stack.files world).2 (Phase2.loadStages fw zstd stack world).2 := by
  have tells := printf_kept sound
  obtain ⟨located, found, locates⟩ : ∃ located found,
      Phase2.wbootLocateKernel fw stack.files world = (located, found) := ⟨_, _, rfl⟩
  obtain ⟨outcome, after, run⟩ : ∃ outcome after, Phase2.loadStages fw zstd stack world = (outcome, after) :=
    ⟨_, _, rfl⟩
  rw [locates, run]
  intro start held holds
  unfold Phase2.loadStages at run
  rw [run_bind] at run
  obtain ⟨_, _, again, run⟩ := run
  obtain ⟨rfl, rfl⟩ := Prod.mk.inj (locates.symm.trans again)
  rw [run_ite] at run
  rcases run with ⟨-, run⟩ | ⟨-, run⟩
  · cases run
    exact nothing_more holds
  rw [run_bind] at run
  obtain ⟨fileInfo, allocated, allocation, run⟩ := run
  have taken := malloc_holds sound holds allocation
  rw [run_ite] at run
  rcases run with ⟨-, run⟩ | ⟨present, run⟩
  · rw [run_bind] at run
    obtain ⟨_, told, warns, run⟩ := run
    cases run
    exact ⟨_, (tells _ _).run warns _ _ taken⟩
  have shows := showFile_relates tells fileGetInfo_kept fun _ _ => inRam_kept _
  rw [run_bind] at run
  obtain ⟨status, first, kernels, run⟩ := run
  have kernel := (shows _ _ _ _ _).run kernels _ _ taken
  rw [run_ite] at run
  rcases run with ⟨-, run⟩ | ⟨-, run⟩
  · cases run
    exact ⟨_, kernel⟩
  rw [run_bind] at run
  obtain ⟨status, second, initramfses, run⟩ := run
  have initramfs := (shows _ _ _ _ _).run initramfses _ _ kernel
  rw [run_ite] at run
  rcases run with ⟨-, run⟩ | ⟨-, run⟩
  · cases run
    exact ⟨_, initramfs⟩
  rw [run_bind] at run
  obtain ⟨header, read, reads, run⟩ := run
  have reading := (relates_of_agrees alike_kept (wbootReadSetupHeader_agrees fw _ _)
    (wbootReadSetupHeader_kept sound _ _)).run reads _ _ initramfs
  rw [run_ite] at run
  rcases run with ⟨-, run⟩ | ⟨-, run⟩
  · cases run
    exact ⟨_, reading⟩
  rw [run_bind] at run
  obtain ⟨⟨⟩, dumped, dumps, run⟩ := run
  have dumping := (wbootDumpSetupHeader_relates tells _).run dumps _ _ reading
  rw [owned, if_neg present, Multiset.singleton_add] at dumping
  rw [run_bind] at run
  obtain ⟨status, freed, frees, run⟩ := run
  have freeing := freePool_holds dumping frees
  suffices rest : Grows freed after from rest _ _ freeing
  have decompresses (header : SetupHeader) (file : Nat) (out : KernelBuffer) :
      Relates Grows (Phase2.wbootDecompressKernel fw zstd header file out) :=
    relates_of_agrees (fun _ _ alike => kept_grows _ _ (alike_kept _ _ alike))
      (wbootDecompressKernel_agrees fw zstd header file out) (wbootDecompressKernel_grows sound header file out)
  have prints := printf_grows sound
  refine Relates.run (.ite (fun _ => (prints _ _).bind fun _ => .pure _) fun _ => ?_) run
  refine (decompresses _ _ _).bind fun kernel => .ite (fun _ => .pure _) fun _ => (prints _ _).bind fun _ => ?_
  refine (kernelInitramfs_grows sound _ _).bind fun initramfs => .ite (fun _ => .pure _) fun _ => ?_
  exact (prints _ _).bind fun _ => .pure _

theorem loadStages_longer (world : World) :
    Longer (Phase2.wbootLocateKernel fw stack.files world).2 (Phase2.loadStages fw zstd stack world).2 := by
  have absorbs := ordinary_absorbs fw
  have tells (format : List UInt16) (args : List Arg) : Relates Longer (printf fw format args) :=
    longer_of_calls (absorbs.printf format args)
  have shows := showFile_relates tells (fun _ _ _ => longer_of_calls (fileGetInfo_ordinary fw _ _ _))
    fun _ _ _ => List.suffix_rfl
  have reads (file : Nat) (header : SetupHeader) : Relates Longer (Phase2.wbootReadSetupHeader fw file header) :=
    relates_of_agrees alike_longer (wbootReadSetupHeader_agrees fw file header)
      (longer_of_calls (wbootReadSetupHeader_ordinary fw file header))
  have decompresses (header : SetupHeader) (file : Nat) (out : KernelBuffer) :
      Relates Longer (Phase2.wbootDecompressKernel fw zstd header file out) :=
    relates_of_agrees alike_longer (wbootDecompressKernel_agrees fw zstd header file out)
      (longer_of_calls (wbootDecompressKernel_ordinary fw zstd header file out))
  obtain ⟨located, found, locates⟩ : ∃ located found,
      Phase2.wbootLocateKernel fw stack.files world = (located, found) := ⟨_, _, rfl⟩
  obtain ⟨outcome, after, run⟩ : ∃ outcome after, Phase2.loadStages fw zstd stack world = (outcome, after) :=
    ⟨_, _, rfl⟩
  rw [locates, run]
  unfold Phase2.loadStages at run
  rw [run_bind] at run
  obtain ⟨_, _, again, run⟩ := run
  obtain ⟨rfl, rfl⟩ := Prod.mk.inj (locates.symm.trans again)
  refine Relates.run (.ite (fun _ => .pure _) fun _ => ?_) run
  refine (longer_of_calls (absorbs.malloc _)).bind fun fileInfo => .ite (fun _ => ?_) fun _ => ?_
  · exact (tells _ _).bind fun _ => .pure _
  refine (shows _ _ _ _ _).bind fun status => .ite (fun _ => .pure _) fun _ => ?_
  refine (shows _ _ _ _ _).bind fun status => .ite (fun _ => .pure _) fun _ => ?_
  refine (reads _ _).bind fun header => .ite (fun _ => .pure _) fun _ => ?_
  refine (wbootDumpSetupHeader_relates tells _).bind fun _ => ?_
  refine (longer_of_calls (absorbs.releases _)).bind fun status => ?_
  refine .ite (fun _ => (tells _ _).bind fun _ => .pure _) fun _ => ?_
  refine (decompresses _ _ _).bind fun kernel => .ite (fun _ => .pure _) fun _ => (tells _ _).bind fun _ => ?_
  refine (kernelInitramfs_longer _ _).bind fun initramfs => .ite (fun _ => .pure _) fun _ => ?_
  exact (tells _ _).bind fun _ => .pure _

/-- A run of phase 2 frees what it holds, each thing once, exactly if every path it shows has a text.
Whatever else it frees is NULL. -/
theorem phase2_balances_iff (fw : Firmware) (zstd : Zstd) (stack : Phase2.Locals) (world : World)
    (sound : AllocatorSound fw) (early : world.bsExited = false) :
    ((∃ left, Settles world (Phase2.efiMain fw zstd stack world).2 left) ↔
      ∀ visit ∈ passed fw (KernelSearch.searched fw stack.files world), visit.named fw) ∧
    Pardons world (Phase2.efiMain fw zstd stack world).2 := by
  obtain ⟨located, found, locates⟩ : ∃ located found,
      Phase2.wbootLocateKernel fw stack.files world = (located, found) := ⟨_, _, rfl⟩
  have accounts := wbootLocateKernel_accounts sound (.nothing early) (fun _ => Multiset.notMem_zero _) locates
  obtain ⟨loaded, staged, stages⟩ : ∃ loaded staged, Phase2.loadStages fw zstd stack world = (loaded, staged) :=
    ⟨_, _, rfl⟩
  obtain ⟨outcome, after, run⟩ : ∃ outcome after, Phase2.efiMain fw zstd stack world = (outcome, after) :=
    ⟨_, _, rfl⟩
  rw [run]
  unfold Phase2.efiMain at run
  simp only [run_bind] at run
  obtain ⟨_, _, again, _, told, tells, key, _, reads, run⟩ := run
  cases run
  obtain ⟨rfl, rfl⟩ := Prod.mk.inj (stages.symm.trans again)
  have last := keyPrompt_keys plain_anyKey tells reads
  have loading : Grows found staged := by
    have later := @loadStages_grows fw zstd stack sound world
    rwa [locates, stages] at later
  have ending (begun : World) (kept : Multiset Held) (holds : Holds begun kept found) :
      ∃ left, Settles begun after left := by
    obtain ⟨more, later⟩ := loading _ _ holds
    exact ⟨_, later.settles.later key_neither last⟩
  have loaded := @loadStages_longer fw zstd stack world
  rw [locates, stages] at loaded
  have whole := IsTrans.trans _ _ _ loaded (calls_longer _ _ last)
  exact searched_run_balances accounts
    ((wbootLocateKernel_resumes sound _).run locates _ _ (.nothing early)) whole ending

/-! The same volume with its files under the names that phase 2 looks for. -/

def namedFiles : Firmware := { pathlessDisk with
  fileOpen := fun _ _ path => (efiSuccess, if path = wide "vmlinuz-linux" then 3 else 4) }

theorem namedFiles_sound : AllocatorSound namedFiles :=
  ⟨idleFirmware_sound.pool, idleFirmware_sound.pages, idleFirmware_sound.text, idleFirmware_sound.atAddress⟩

theorem named_files_balance :
    (Phase2.efiMain namedFiles storingZstd ⟨⟨0, 0⟩, acceptedHeader 0, ⟨0, 0⟩, ⟨0, 0⟩⟩ bootWorld).1 = efiSuccess ∧
      ∃ left, Settles bootWorld
        (Phase2.efiMain namedFiles storingZstd ⟨⟨0, 0⟩, acceptedHeader 0, ⟨0, 0⟩, ⟨0, 0⟩⟩ bootWorld).2 left := by
  refine ⟨by decide +kernel, (phase2_balances_iff namedFiles storingZstd
    ⟨⟨0, 0⟩, acceptedHeader 0, ⟨0, 0⟩, ⟨0, 0⟩⟩ bootWorld namedFiles_sound rfl).1.mpr ?_⟩
  intro visit _ pathed
  exact absurd pathed (by decide : efiError efiNotFound ≠ false)

end Phase2

end Wboot.RunLedger
