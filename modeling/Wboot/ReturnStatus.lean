import Wboot.ServiceEnd

/-! What `efi_main` returns when it does not reach the kernel. Most steps leave
through the error test of `status`. Two leave through NULL, with the status of
the step before, and that one had succeeded. -/

namespace Wboot.ReturnStatus
open StateProgram ByteMemory Machine LinuxBoot Wstdlib Effects ConfigParser KernelImage BootParams
  Graphics E820Sizing E820Translation ExitBootServices ElfPlacement Phase3 ServiceEnd KernelReads

/-- A failure is reported as one. A run that never returns reports nothing. -/
def ReportsFailure (returned : Option EfiStatus) (history : History) : Prop :=
  ∀ status, returned = some status → ¬ handsOff history → efiError status = true

def PoolGranted (fw : Firmware) (history : History) (size : Nat) : Prop :=
  efiError (fw.allocatePool history size).1 = false ∧ (fw.allocatePool history size).2 ≠ 0

/-- A fetch of this size succeeds, and then the exit with its key or what `later`
asks of the calls after a refused exit. -/
def AttemptGranted (fw : Firmware) (size memmap : Nat) (later : History → Prop) (history : History) :
    Prop :=
  let reply := fw.getMemoryMap history size memmap
  let fetched := .getMemoryMap size memmap reply :: history
  let status := fw.exitBootServices fetched reply.mapKey
  efiError reply.status = false ∧
    (efiError status = false ∨ later (.exitBootServices reply.mapKey status :: fetched))

/-- The firmware answers the size query, the allocation, and an attempt of
wboot_exit_bs: the first with the size of the query, the retry with all of the buffer. -/
def ExitGranted (fw : Firmware) (history : History) : Prop :=
  let query := fw.getMemoryMap history 0 0
  let asked := .getMemoryMap 0 0 query :: history
  let size := u64 (query.mapSize + query.descSize * 32)
  let pool := fw.allocatePool asked size
  query.status = efiBufferTooSmall ∧ PoolGranted fw asked size ∧
    AttemptGranted fw query.mapSize pool.2 (AttemptGranted fw size pool.2 fun _ => False)
      (.allocatePool size pool.1 pool.2 :: asked)

section Steps
variable {fw : Firmware} {before after : World}

/-- A pointer comes from a granted allocation. -/
theorem malloc_granted {size pointer : Nat} (early : before.bsExited = false)
    (run : malloc fw size before = (pointer, after)) :
    (pointer ≠ 0 ↔ PoolGranted fw before.history size) ∧
      after.history = .allocatePool size (fw.allocatePool before.history size).1
        (fw.allocatePool before.history size).2 :: before.history ∧
      (pointer ≠ 0 → pointer = (fw.allocatePool before.history size).2) := by
  rw [malloc_apply fw size before early] at run
  simp only [PoolGranted]
  by_cases failed : efiError (fw.allocatePool before.history size).1
  · rw [if_pos failed] at run
    cases run
    simp [failed]
  · rw [if_neg failed] at run
    cases run
    simp [failed]

theorem wbootPrepareBootparams_null {config : WbootConfig} {header : SetupHeader}
    {initramfs : Initramfs} {params : Nat} (early : before.bsExited = false)
    (run : wbootPrepareBootparams fw config header initramfs before = (params, after)) :
    params ≠ 0 ↔ PoolGranted fw before.history sizeofBootParams := by
  unfold wbootPrepareBootparams at run
  rw [run_bind] at run
  obtain ⟨pointer, allocated, allocates, run⟩ := run
  obtain ⟨granted, -⟩ := malloc_granted early allocates
  rw [← granted]
  rw [run_ite] at run
  rcases run with ⟨null, run⟩ | ⟨-, run⟩
  · have returned : params = 0 := (congrArg Prod.fst run).symm
    rw [null, returned]
  · have returned : params = pointer := (congrArg Prod.fst run).symm
    rw [returned]

theorem prepareHandoff_run {files : LoadedFiles} {outcome : Except EfiStatus Prepared}
    (early : before.bsExited = false) (run : prepareHandoff fw files before = (outcome, after)) :
    (¬ PoolGranted fw before.history sizeofBootParams ∧ outcome = .error files.status) ∨
      (PoolGranted fw before.history sizeofBootParams ∧
        ((∃ status, outcome = .error status ∧ efiError status = true) ∨
          ∃ prepared, outcome = .ok prepared ∧ efiError prepared.status = false)) := by
  unfold prepareHandoff at run
  rw [run_bind] at run
  obtain ⟨_, printed, prints, run⟩ := run
  have quiet := (message_prints fw (by simp [messages]) _).run prints
  rw [run_bind] at run
  obtain ⟨params, allocated, prepares, run⟩ := run
  have granted := wbootPrepareBootparams_null (quiet.bsExited.trans early) prepares
  rw [quiet.history] at granted
  rw [run_ite] at run
  rcases run with ⟨null, run⟩ | ⟨present, run⟩
  · exact Or.inl ⟨fun grant => granted.mpr grant null, (congrArg Prod.fst run).symm⟩
  refine Or.inr ⟨granted.mp present, ?_⟩
  rw [run_bind] at run
  obtain ⟨_, told, tells, run⟩ := run
  rw [run_bind] at run
  obtain ⟨status, drawn, draws, run⟩ := run
  rw [run_ite] at run
  rcases run with ⟨failed, run⟩ | ⟨-, run⟩
  · exact Or.inl ⟨status, (congrArg Prod.fst run).symm, failed⟩
  rw [run_bind] at run
  obtain ⟨_, announced, announces, run⟩ := run
  rw [run_bind] at run
  obtain ⟨e820ext, sized, sizes, run⟩ := run
  rw [run_ite] at run
  rcases run with ⟨failed, run⟩ | ⟨fine, run⟩
  · exact Or.inl ⟨e820ext.1, (congrArg Prod.fst run).symm, failed⟩
  · exact Or.inr ⟨_, (congrArg Prod.fst run).symm, by simpa using fine⟩

theorem loadKernel_run {zstd : Zstd} {config : WbootConfig} {stack : SetupHeader} {status : EfiStatus}
    (run : loadKernel fw zstd config stack before = (.error status, after)) :
    efiError status = true := by
  unfold loadKernel at run
  simp only [run_bind] at run
  obtain ⟨_, _, _, file, _, _, run⟩ := run
  rw [run_ite] at run
  rcases run with ⟨failed, run⟩ | ⟨-, run⟩
  · cases run
    exact failed
  simp only [run_bind] at run
  obtain ⟨_, _, _, header, _, _, run⟩ := run
  rw [run_ite] at run
  rcases run with ⟨failed, run⟩ | ⟨-, run⟩
  · cases run
    exact failed
  simp only [run_bind] at run
  obtain ⟨_, _, _, kernel, _, _, run⟩ := run
  rw [run_ite] at run
  rcases run with ⟨failed, run⟩ | ⟨-, run⟩
  · cases run
    exact failed
  · cases run

theorem loadFiles_run {zstd : Zstd} {stack : SetupHeader} {outcome : Except EfiStatus LoadedFiles}
    (run : loadFiles fw zstd stack before = (outcome, after)) :
    (∃ status, outcome = .error status ∧ efiError status = true) ∨
      ∃ files, outcome = .ok files ∧ efiError files.status = false := by
  unfold loadFiles at run
  simp only [run_bind] at run
  obtain ⟨_, _, _, _, _, _, _, _, _, located, _, _, run⟩ := run
  rw [run_ite] at run
  rcases run with ⟨failed, run⟩ | ⟨-, run⟩
  · exact Or.inl ⟨located.1, (congrArg Prod.fst run).symm, failed⟩
  simp only [run_bind] at run
  obtain ⟨_, _, _, kernel, loaded, loads, run⟩ := run
  cases kernel with
  | error status =>
      exact Or.inl ⟨status, (congrArg Prod.fst run).symm, loadKernel_run loads⟩
  | ok kernel =>
      simp only [run_bind] at run
      obtain ⟨_, _, _, initramfs, _, _, run⟩ := run
      rw [run_ite] at run
      rcases run with ⟨failed, run⟩ | ⟨fine, run⟩
      · exact Or.inl ⟨initramfs.1, (congrArg Prod.fst run).symm, failed⟩
      · exact Or.inr ⟨_, (congrArg Prod.fst run).symm, by simpa using fine⟩

/-- One fetch and one exit; `retry` is what a refused exit leads to. -/
theorem attempt_granted {size memmap : Nat} {message : List UInt16} {outcome : Option MemoryMapReply}
    {retry : EfiStatus → Boot (Option MemoryMapReply)} (later : History → Prop)
    (retries : ∀ status world outcome after, retry status world = (outcome, after) →
      (outcome ≠ none ↔ later world.history))
    (run : (do
      let reply ← getMemoryMap fw size memmap
      if efiError reply.status then
        perror fw message reply.status
        free fw memmap
        return none
      let status ← exitBootServices fw reply.mapKey
      if efiError status then retry status
      else return some reply) before = (outcome, after)) :
    outcome ≠ none ↔ AttemptGranted fw size memmap later before.history := by
  simp only [AttemptGranted]
  rw [run_bind] at run
  obtain ⟨_, asked, fetch, run⟩ := run
  rw [getMemoryMap_apply] at fetch
  cases fetch
  rw [run_ite] at run
  -- a failed fetch is not retried
  rcases run with ⟨failed, run⟩ | ⟨delivered, run⟩
  · have none : outcome = none := (congrArg Prod.fst run).symm
    simp only [none, ne_eq, not_true_eq_false, false_iff, not_and]
    exact fun fine => Bool.noConfusion (failed.symm.trans fine)
  have fine := Bool.eq_false_of_not_eq_true delivered
  rw [run_bind] at run
  obtain ⟨_, exited, exits, run⟩ := run
  cases exits
  rw [run_ite] at run
  -- a refused exit is worth what the retry is worth
  rcases run with ⟨refused, run⟩ | ⟨accepted, run⟩
  · rw [retries _ _ _ _ run]
    exact ⟨fun held => ⟨fine, Or.inr held⟩, fun ⟨_, either⟩ => either.elim
      (fun success => Bool.noConfusion (refused.symm.trans success)) id⟩
  · cases run
    simp only [ne_eq, reduceCtorEq, not_false_eq_true, true_iff]
    exact ⟨fine, Or.inl (Bool.eq_false_of_not_eq_true accepted)⟩

theorem secondAttempt_granted {size memmap : Nat} {outcome : Option MemoryMapReply}
    (run : secondAttempt fw size memmap before = (outcome, after)) :
    outcome ≠ none ↔ AttemptGranted fw size memmap (fun _ => False) before.history :=
  attempt_granted _ (fun status world outcome after run => by
    have none : outcome = none := (congrArg Prod.fst run).symm
    simp [none]) run

theorem firstAttempt_granted {passed size memmap : Nat} {outcome : Option MemoryMapReply}
    (run : firstAttempt fw passed size memmap before = (outcome, after)) :
    outcome ≠ none ↔ AttemptGranted fw passed memmap
      (AttemptGranted fw size memmap fun _ => False) before.history :=
  attempt_granted _ (fun status world outcome after run => by
    simp only [run_bind] at run
    obtain ⟨_, warned, warns, _, told, tells, run⟩ := run
    have history := ((printf_prints fw _ _ plain_retry).run tells).history.trans
      ((perror_prints fw _ _).run warns).history
    rw [secondAttempt_granted run, history]) run

/-- wboot_exit_bs returns NULL exactly when one of its calls is refused for good. -/
theorem wbootExitBs_null {params memmap : Nat} (early : before.bsExited = false)
    (run : wbootExitBs fw params before = (memmap, after)) :
    memmap ≠ 0 ↔ ExitGranted fw before.history := by
  -- a size query passes no buffer, so it only adds its event
  have queried {query : MemoryMapReply} {middle : World} (asks : getMemoryMap fw 0 0 before = (query, middle)) :
      query = fw.getMemoryMap before.history 0 0 ∧
        middle = { before with history := .getMemoryMap 0 0 query :: before.history } := by
    rw [getMemoryMap_apply, if_pos rfl] at asks
    cases asks
    exact ⟨rfl, rfl⟩
  simp only [ExitGranted]
  -- the map is null on every course but the last
  cases wbootExitBs_course fw run with
  | unsized asks refused tells =>
      obtain ⟨rfl, -⟩ := queried asks
      simp [refused]
  | scarce asks _ allocation tells =>
      obtain ⟨rfl, rfl⟩ := queried asks
      obtain ⟨granted, -, -⟩ := malloc_granted (by exact early) allocation
      simp only [ne_eq, not_true_eq_false, false_iff]
      rintro ⟨-, grant, -⟩
      exact granted.mpr grant rfl
  | refused steps attempts =>
      obtain ⟨query, buffer, middle, allocated, asks, answered, allocation, present⟩ := steps
      obtain ⟨rfl, rfl⟩ := queried asks
      obtain ⟨-, history, pointer⟩ := malloc_granted (by exact early) allocation
      have attempt := firstAttempt_granted attempts
      rw [history] at attempt
      simp only [ne_eq, not_true_eq_false, false_iff]
      rintro ⟨-, -, grant⟩
      exact attempt.mpr (pointer present ▸ grant) rfl
  | exited steps attempts ends =>
      obtain ⟨query, buffer, middle, allocated, asks, answered, allocation, present⟩ := steps
      obtain ⟨rfl, rfl⟩ := queried asks
      obtain ⟨granted, history, pointer⟩ := malloc_granted (by exact early) allocation
      have attempt := firstAttempt_granted attempts
      rw [history] at attempt
      exact ⟨fun _ => ⟨answered, granted.mp present, pointer present ▸ attempt.mp (by simp)⟩, fun _ => present⟩

theorem reports_error {status : EfiStatus} (failed : efiError status = true) (history : History) :
    ReportsFailure (some status) history := by
  rintro _ ⟨⟩ -
  exact failed

/-- A success without the jump is the misreport. -/
theorem not_reports {status : EfiStatus} {history : History} (fine : efiError status = false)
    (waits : ¬ handsOff history) : ¬ ReportsFailure (some status) history :=
  fun reports => Bool.noConfusion (fine.symm.trans (reports status rfl waits))

theorem afterExit_reports {prepared : Prepared} {memmap : Nat} {outcome : Option EfiStatus}
    (run : afterExit fw prepared memmap before = (outcome, after)) :
    ReportsFailure outcome after.history := by
  unfold afterExit at run
  simp only [run_bind] at run
  obtain ⟨_, _, _, _, _, _, translated, _, _, run⟩ := run
  rcases translated with _ | translated
  · obtain ⟨rfl, -⟩ := Prod.mk.inj run
    rintro _ ⟨⟩
  dsimp only at run
  rw [run_ite] at run
  rcases run with ⟨failed, run⟩ | ⟨-, run⟩
  · have returned : outcome = some translated := (congrArg Prod.fst run).symm
    exact returned ▸ reports_error failed _
  simp only [run_bind] at run
  obtain ⟨entry, _, _, _, told, _, _, jumped, jumps, _, printed, prints, run⟩ := run
  cases run
  cases jumps
  refine fun _ _ waits => absurd ?_ waits
  have quiet := (message_prints fw (by simp [messages]) _).run prints
  rw [quiet.history]
  exact ⟨.handoff prepared.params entry, List.mem_cons_self, rfl⟩

theorem enterKernel_reports {prepared : Prepared} {outcome : Option EfiStatus} (running : Running before)
    (fine : efiError prepared.status = false)
    (run : enterKernel fw prepared before = (outcome, after)) :
    ReportsFailure outcome after.history ↔ ExitGranted fw before.history := by
  have ends := enterKernel_ends prepared running run
  unfold enterKernel at run
  rw [run_bind] at run
  obtain ⟨_, printed, prints, run⟩ := run
  have quiet := (message_prints fw (by simp [messages]) _).run prints
  have still := running.calls (quiet.calls unexited)
  rw [run_bind] at run
  obtain ⟨memmap, left, exits, run⟩ := run
  rw [← quiet.history, ← wbootExitBs_null still.1 exits]
  rw [run_ite] at run
  rcases run with ⟨null, run⟩ | ⟨present, run⟩
  · have unended : Running left := (wbootExitBs_ends still exits).elim And.right
      fun ended => absurd null ended.1
    rw [run_bind] at run
    obtain ⟨_, told, tells, run⟩ := run
    have last := (message_prints fw (by simp [messages]) _).run tells
    cases run
    exact ⟨fun reports => absurd reports (not_reports fine (running_waits (unended.calls (last.calls _)))),
      fun present => absurd null present⟩
  · exact ⟨fun _ => present, fun _ => afterExit_reports run⟩

/-- The parameters block is granted to a run that has its files, and the exit to one
that has its parameters. -/
def LateStepsGranted (fw : Firmware) (zstd : Zstd) (stack : SetupHeader) (world : World) : Prop :=
  ∀ files reached, loadFiles fw zstd stack world = (.ok files, reached) →
    PoolGranted fw reached.history sizeofBootParams ∧
      ∀ prepared ready, prepareHandoff fw files reached = (.ok prepared, ready) →
        ExitGranted fw ready.history

theorem bootStages_reports {zstd : Zstd} {stack : SetupHeader} {returned : Option EfiStatus}
    (running : Running before) (run : bootStages fw zstd stack before = (returned, after)) :
    ReportsFailure returned after.history ↔ LateStepsGranted fw zstd stack before := by
  unfold bootStages at run
  rw [run_bind] at run
  obtain ⟨loaded, reached, loads, run⟩ := run
  have first := running.calls (((loadFiles_ordinary fw zstd stack).run loads).mono ordinary_unexited)
  unfold LateStepsGranted
  simp only [loads, Prod.mk.injEq, and_imp]
  -- an early failure is reported as it is, and then nothing has to be granted
  rcases loadFiles_run loads with ⟨error, same, failed⟩ | ⟨files, same, fine⟩
  · subst same
    cases run
    exact ⟨fun _ files reached other => (by cases other), fun _ => reports_error failed _⟩
  subst same
  dsimp only at run
  rw [run_bind] at run
  obtain ⟨outcome, ready, prepares, run⟩ := run
  have second := first.calls (((prepareHandoff_ordinary fw files).run prepares).mono ordinary_unexited)
  -- after the files are loaded, a refused page and a refused exit come back as success
  have granted : ReportsFailure returned after.history ↔ PoolGranted fw reached.history sizeofBootParams ∧
      ∀ prepared, outcome = .ok prepared → ExitGranted fw ready.history := by
    rcases prepareHandoff_run first.1 prepares with
      ⟨refused, same⟩ | ⟨grant, ⟨error, same, failed⟩ | ⟨prepared, same, good⟩⟩
    · subst same
      cases run
      exact ⟨fun reports => absurd reports (not_reports fine (running_waits second)),
        fun grants => absurd grants.1 refused⟩
    · subst same
      cases run
      exact ⟨fun _ => ⟨grant, fun prepared other => (by cases other)⟩, fun _ => reports_error failed _⟩
    · subst same
      rw [enterKernel_reports second good run]
      exact ⟨fun exit => ⟨grant, fun _ _ => exit⟩, fun grants => grants.2 prepared rfl⟩
  rw [granted]
  constructor
  · rintro grants files world ⟨⟩ ⟨⟩
    refine ⟨grants.1, fun prepared world prepared' => ?_⟩
    rw [prepares] at prepared'
    cases prepared'
    exact grants.2 prepared rfl
  · intro grants
    obtain ⟨pool, exit⟩ := grants files reached rfl rfl
    exact ⟨pool, fun prepared same => exit prepared ready (same ▸ prepares)⟩

end Steps

/-- A run without the jump returns an error exactly when the two steps that leave
through NULL are granted. -/
theorem efiMain_reports_iff (fw : Firmware) (zstd : Zstd) (stack : SetupHeader) (world : World)
    (running : Running world) :
    ReportsFailure (efiMain fw zstd stack world).1 (efiMain fw zstd stack world).2.history ↔
      LateStepsGranted fw zstd stack world := by
  obtain ⟨outcome, after, run⟩ : ∃ outcome after, efiMain fw zstd stack world = (outcome, after) :=
    ⟨_, _, rfl⟩
  rw [run]
  rcases efiMain_ends fw zstd run with
    ⟨rfl, stages⟩ | ⟨status, staged, printed, key, rfl, stages, prints, reads⟩
  · exact bootStages_reports running stages
  · have quiet := (message_prints fw (by simp [messages]) _).run prints
    rw [← bootStages_reports running stages]
    unfold ReportsFailure
    rw [calls_handsOff_iff ((readChar_ordinary fw).run reads) ordinary_waits, quiet.history]

/-- The disk boots, so its late steps were granted. -/
theorem booted_disk_granted :
    LateStepsGranted diskFirmware storingZstd (acceptedHeader 0) bootWorld :=
  (efiMain_reports_iff diskFirmware storingZstd (acceptedHeader 0) bootWorld
    ⟨rfl, List.forall_mem_nil _⟩).mp (fun _ _ waits => absurd disk_hands_off waits)

/-- A size query, with no buffer yet, is not answered with success. -/
def QueriesRefused (fw : Firmware) : Prop :=
  (∀ history buffer, efiError (fw.getMemoryMap history 0 buffer).status = true) ∧
    ∀ history file buffer, efiError (fw.fileGetInfo history file 0 buffer).status = true

def EveryFailureReported : Prop :=
  ∀ (fw : Firmware) (zstd : Zstd) (stack : SetupHeader) (world : World),
    QueriesRefused fw → Running world →
      ReportsFailure (efiMain fw zstd stack world).1 (efiMain fw zstd stack world).2.history

/-! The firmware of the disk, out of memory for the parameters block alone. -/

def fullFirmware : Firmware := { diskFirmware with
  allocatePool := fun history size =>
    if size = sizeofBootParams then (efiOutOfResources, 0) else diskFirmware.allocatePool history size }

theorem refused_parameters_succeed : ¬ EveryFailureReported := by
  intro every
  have refused : QueriesRefused fullFirmware := ⟨fun _ _ => rfl, fun _ _ _ => rfl⟩
  have reports := every fullFirmware storingZstd (acceptedHeader 0) bootWorld refused
    ⟨rfl, List.forall_mem_nil _⟩
  have quits : ¬ handsOff (efiMain fullFirmware storingZstd (acceptedHeader 0) bootWorld).2.history ∧
      (efiMain fullFirmware storingZstd (acceptedHeader 0) bootWorld).1 = some efiSuccess := by
    decide +kernel
  exact absurd (reports efiSuccess quits.2 quits.1) (by decide)

end Wboot.ReturnStatus
