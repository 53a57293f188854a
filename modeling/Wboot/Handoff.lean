import Wboot.ServiceEnd

/-! A run of `efi_main` that reaches the kernel, taken apart: the steps that
load the files, then those that compose the boot parameters, with the world between
any two of them. -/

namespace Wboot.Handoff
open StateProgram ByteMemory Machine LinuxBoot Wstdlib Effects ConfigParser KernelImage BootParams
  Graphics E820Sizing E820Translation ExitBootServices ElfPlacement Phase3 ServiceEnd

/-- The steps that load the files, none of them failing. -/
structure Loading (fw : Firmware) (zstd : Zstd) (stack : SetupHeader) (start : World)
    (files : LoadedFiles) (loaded : World) where
  file : Nat
  openStatus : EfiStatus
  readStatus : EfiStatus
  unpackStatus : EfiStatus
  introduced : World
  located : World
  shown : World
  opening : World
  opened : World
  reading : World
  read : World
  unpacking : World
  unpacked : World
  fetching : World
  introduces : Prints start introduced
  locates : wbootLocateConfig fw introduced = ((efiSuccess, some files.config), located)
  shows : printConfig fw files.config located = ((), shown)
  announces : Prints shown opening
  opens : wbootOpenKernel fw files.config opening = ((openStatus, file), opened)
  openable : efiError openStatus = false
  prompts : Prints opened reading
  reads : wbootReadSetupHeader fw file stack reading = ((readStatus, files.header), read)
  readable : efiError readStatus = false
  begins : Prints read unpacking
  unpacks : wbootDecompressKernel fw zstd files.header file ⟨0, 0⟩ unpacking =
    ((unpackStatus, files.kernel), unpacked)
  unpackable : efiError unpackStatus = false
  continues : Prints unpacked fetching
  fetches : wbootLoadInitramfs fw files.config ⟨0, 0⟩ fetching =
    ((files.status, files.initramfs), loaded)
  fetchable : efiError files.status = false

/-- The steps from the files to the end of boot services, none of them failing. -/
structure Departure (fw : Firmware) (files : LoadedFiles) (start : World) where
  params : Nat
  drawStatus : EfiStatus
  sizeStatus : EfiStatus
  e820ext : E820Buffer
  memmap : Nat
  greeted : World
  filled : World
  announced : World
  drawn : World
  prompted : World
  sized : World
  leaving : World
  exited : World
  reported : World
  translating : World
  greets : printf fw (wide "[wboot] preparing boot params\r\n") [] start = ((), greeted)
  prepares : wbootPrepareBootparams fw files.config files.header files.initramfs greeted =
    (params, filled)
  present : params ≠ 0
  announces : printf fw (wide "[wboot] setting up graphics\r\n") [] filled = ((), announced)
  draws : wbootSetupGraphics fw files.config params announced = (drawStatus, drawn)
  shown : efiError drawStatus = false
  prompts : printf fw (wide "[wboot] allocating e820 memory map\r\n") [] drawn = ((), prompted)
  sizes : wbootAllocateE820 fw noBuffer prompted = ((sizeStatus, e820ext), sized)
  granted : efiError sizeStatus = false
  leaves : printf fw (wide "[wboot] exiting boot services!\r\n") [] sized = ((), leaving)
  exits : wbootExitBs fw params leaving = (memmap, exited)
  mapped : memmap ≠ 0
  reports : printf fw (wide "[wboot] exited boot services, acquired memory map at %p\r\n")
    [.num memmap] exited = ((), reported)
  begins : printf fw (wide "[wboot] translating EFI memory map to e820\r\n") [] reported =
    ((), translating)

/-- And the translated memory map. -/
structure Composition (fw : Firmware) (files : LoadedFiles) (start : World) extends
    Departure fw files start where
  translated : Ram
  translates : wbootTranslateMemmap params e820ext.node e820ext.size translating.toRam =
    (some efiSuccess, translated)

structure HandoffRun (fw : Firmware) (zstd : Zstd) (stack : SetupHeader) (start : World) where
  files : LoadedFiles
  loaded : World
  loading : Loading fw zstd stack start files loaded
  composition : Composition fw files loaded

/-- The placement of the kernel that the jump follows. -/
def HandoffRun.placing {fw : Firmware} {zstd : Zstd} {stack : SetupHeader} {start : World}
    (run : HandoffRun fw zstd stack start) : Nat × Ram :=
  wbootGetKernelEntry run.files.kernel.pointer run.composition.translated

section Runs
variable {fw : Firmware} {zstd : Zstd} {stack : SetupHeader} {before after : World}

theorem wbootLocateConfig_found {status : EfiStatus} {found : Option WbootConfig}
    (run : wbootLocateConfig fw before = ((status, found), after)) (fine : efiError status = false) :
    ∃ config, status = efiSuccess ∧ found = some config := by
  unfold wbootLocateConfig at run
  rw [run_bind] at run
  obtain ⟨texts, _, -, run⟩ := run
  rw [run_ite] at run
  rcases run with ⟨failed, run⟩ | ⟨-, run⟩
  · cases run
    exact Bool.noConfusion (fine.symm.trans failed)
  rw [run_bind] at run
  obtain ⟨handles, _, -, run⟩ := run
  rw [run_ite] at run
  rcases run with ⟨failed, run⟩ | ⟨-, run⟩
  · cases run
    exact Bool.noConfusion (fine.symm.trans failed)
  rw [run_bind] at run
  obtain ⟨tried, _, -, run⟩ := run
  cases tried with
  | some config =>
      cases run
      exact ⟨config, rfl, rfl⟩
  | none =>
      rw [run_bind] at run
      obtain ⟨_, _, -, run⟩ := run
      cases run
      exact absurd fine (by decide)

theorem loadKernel_steps {config : WbootConfig} {header : SetupHeader} {kernel : KernelBuffer}
    (run : loadKernel fw zstd config stack before = (.ok (header, kernel), after)) :
    ∃ opening openStatus file opened reading readStatus read unpacking unpackStatus,
      Prints before opening ∧ wbootOpenKernel fw config opening = ((openStatus, file), opened) ∧
      efiError openStatus = false ∧ Prints opened reading ∧
      wbootReadSetupHeader fw file stack reading = ((readStatus, header), read) ∧
      efiError readStatus = false ∧ Prints read unpacking ∧
      wbootDecompressKernel fw zstd header file ⟨0, 0⟩ unpacking = ((unpackStatus, kernel), after) ∧
      efiError unpackStatus = false := by
  unfold loadKernel at run
  simp only [run_bind] at run
  obtain ⟨_, opening, announces, ⟨openStatus, file⟩, opened, opens, run⟩ := run
  rw [run_ite] at run
  rcases run with ⟨-, run⟩ | ⟨openable, run⟩
  · cases run
  simp only [run_bind] at run
  obtain ⟨_, reading, prompts, ⟨readStatus, found⟩, read, reads, run⟩ := run
  rw [run_ite] at run
  rcases run with ⟨-, run⟩ | ⟨readable, run⟩
  · cases run
  simp only [run_bind] at run
  obtain ⟨_, unpacking, begins, ⟨unpackStatus, image⟩, unpacked, unpacks, run⟩ := run
  rw [run_ite] at run
  rcases run with ⟨-, run⟩ | ⟨unpackable, run⟩
  · cases run
  cases run
  exact ⟨opening, openStatus, file, opened, reading, readStatus, read, unpacking, unpackStatus,
    (message_prints fw (by simp [messages]) _).run announces, opens, by simpa using openable,
    (message_prints fw (by simp [messages]) _).run prompts, reads, by simpa using readable,
    (message_prints fw (by simp [messages]) _).run begins, unpacks, by simpa using unpackable⟩

/-- What `loadFiles` returns went through all its steps. -/
theorem loadFiles_steps {files : LoadedFiles}
    (run : loadFiles fw zstd stack before = (.ok files, after)) :
    Nonempty (Loading fw zstd stack before files after) := by
  unfold loadFiles at run
  simp only [run_bind] at run
  obtain ⟨_, greeted, greets, _, hailed, hails, _, introduced, introduces, ⟨status, found⟩, located,
    locates, run⟩ := run
  have quiet : Prints before introduced := IsTrans.trans _ _ _ (IsTrans.trans _ _ _
    ((message_prints fw (by simp [messages]) _).run greets)
    ((message_prints fw (by simp [messages]) _).run hails))
    ((message_prints fw (by simp [messages]) _).run introduces)
  rw [run_ite] at run
  -- each failure returns early, and then there are no files
  rcases run with ⟨-, run⟩ | ⟨fine, run⟩
  · cases run
  obtain ⟨config, rfl, rfl⟩ := wbootLocateConfig_found locates (by simpa using fine)
  simp only [run_bind] at run
  obtain ⟨_, shown, shows, outcome, unpacked, loads, run⟩ := run
  cases outcome with
  | error status => cases run
  | ok pair =>
      obtain ⟨header, kernel⟩ := pair
      obtain ⟨opening, openStatus, file, opened, reading, readStatus, read, unpacking, unpackStatus,
        announces, opens, openable, prompts, reads, readable, begins, unpacks, unpackable⟩ :=
        loadKernel_steps loads
      simp only [run_bind] at run
      obtain ⟨_, fetching, continues, ⟨fetchStatus, initramfs⟩, fetched, fetches, run⟩ := run
      rw [run_ite] at run
      rcases run with ⟨-, run⟩ | ⟨fetchable, run⟩
      · cases run
      cases run
      exact ⟨{
        file, openStatus, readStatus, unpackStatus, introduced, located, shown, opening, opened, reading
        read, unpacking, unpacked, fetching
        introduces := quiet
        locates, shows, announces, opens, openable, prompts, reads, readable, begins, unpacks, unpackable
        continues := (message_prints fw (by simp [messages]) _).run continues
        fetches
        fetchable := by simpa using fetchable }⟩

/-- The services are up while the files are loaded. -/
theorem loading_early {files : LoadedFiles} (early : before.bsExited = false)
    (loading : Loading fw zstd stack before files after) : after.bsExited = false := by
  have located := ((wbootLocateConfig_ordinary fw).run loading.locates).bsExited
  have shown := ((printConfig_ordinary fw files.config).run loading.shows).bsExited
  have opened := ((openFile_ordinary fw _ _).run loading.opens).bsExited
  have read := ((wbootReadSetupHeader_ordinary fw loading.file stack).run loading.reads).bsExited
  have unpacked := ((wbootDecompressKernel_ordinary fw zstd files.header loading.file ⟨0, 0⟩).run
    loading.unpacks).bsExited
  have fetched := ((wbootLoadInitramfs_ordinary fw files.config ⟨0, 0⟩).run loading.fetches).bsExited
  rw [fetched, loading.continues.bsExited, unpacked, loading.begins.bsExited, read,
    loading.prompts.bsExited, opened, loading.announces.bsExited, shown, located,
    loading.introduces.bsExited, early]

theorem wbootTranslateMemmap_status {params e820ext e820extSize : Nat} {ram later : Ram}
    {status : EfiStatus}
    (run : wbootTranslateMemmap params e820ext e820extSize ram = (some status, later)) :
    status = efiBufferTooSmall ∨ status = efiSuccess := by
  unfold wbootTranslateMemmap at run
  simp only [run_bind] at run
  obtain ⟨nrDesc, _, -, cursor, looped, -, run⟩ := run
  cases cursor with
  | none => exact Or.inl (Option.some.inj (congrArg Prod.fst run)).symm
  | some cursor =>
      rw [run_ite] at run
      -- after the loop only a walk that never ends keeps the call from success
      rcases run with ⟨-, run⟩ | ⟨-, run⟩
      all_goals
        rw [run_bind] at run
        obtain ⟨linked, _, -, last⟩ := run
        cases linked with
        | none => cases congrArg Prod.fst last
        | some linked => exact Or.inr (Option.some.inj (congrArg Prod.fst last)).symm

theorem prepareHandoff_composes {files : LoadedFiles} {prepared : Prepared}
    (run : prepareHandoff fw files before = (.ok prepared, after)) :
    ∃ greeted filled announced drawStatus drawn prompted sizeStatus,
      printf fw (wide "[wboot] preparing boot params\r\n") [] before = ((), greeted) ∧
      wbootPrepareBootparams fw files.config files.header files.initramfs greeted =
        (prepared.params, filled) ∧ prepared.params ≠ 0 ∧
      printf fw (wide "[wboot] setting up graphics\r\n") [] filled = ((), announced) ∧
      wbootSetupGraphics fw files.config prepared.params announced = (drawStatus, drawn) ∧
      efiError drawStatus = false ∧
      printf fw (wide "[wboot] allocating e820 memory map\r\n") [] drawn = ((), prompted) ∧
      wbootAllocateE820 fw noBuffer prompted = ((sizeStatus, prepared.e820ext), after) ∧
      efiError sizeStatus = false ∧ prepared.toLoadedFiles = { files with status := sizeStatus } := by
  unfold prepareHandoff at run
  simp only [run_bind] at run
  obtain ⟨_, greeted, greets, params, filled, prepares, run⟩ := run
  rw [run_ite] at run
  rcases run with ⟨-, run⟩ | ⟨present, run⟩
  · cases run
  simp only [run_bind] at run
  obtain ⟨_, announced, announces, status, drawn, draws, run⟩ := run
  rw [run_ite] at run
  rcases run with ⟨-, run⟩ | ⟨shown, run⟩
  · cases run
  simp only [run_bind] at run
  obtain ⟨_, prompted, prompts, sizing, sized, sizes, run⟩ := run
  rw [run_ite] at run
  rcases run with ⟨-, run⟩ | ⟨granted, run⟩
  · cases run
  cases run
  exact ⟨greeted, filled, announced, status, drawn, prompted, sizing.1, greets, prepares, present,
    announces, draws, by simpa using shown, prompts, sizes, by simpa using granted, rfl⟩

/-- What comes after the exit jumps, or it failed to translate the map and only printed. -/
theorem afterExit_hands {prepared : Prepared} {memmap : Nat} {status : Option EfiStatus}
    (waits : ¬ handsOff before.history)
    (run : afterExit fw prepared memmap before = (status, after)) (hands : handsOff after.history) :
    ∃ reported translating translated,
      printf fw (wide "[wboot] exited boot services, acquired memory map at %p\r\n")
        [.num memmap] before = ((), reported) ∧
      printf fw (wide "[wboot] translating EFI memory map to e820\r\n") [] reported =
        ((), translating) ∧
      wbootTranslateMemmap prepared.params prepared.e820ext.node prepared.e820ext.size
        translating.toRam = (some efiSuccess, translated) ∧
      after.mem = (wbootGetKernelEntry prepared.kernel.pointer translated).2.mem ∧
      after.history = .handoff prepared.params
        (wbootGetKernelEntry prepared.kernel.pointer translated).1 :: before.history := by
  unfold afterExit at run
  simp only [run_bind] at run
  obtain ⟨_, reported, reports, _, translating, begins, outcome, translated, translates, run⟩ := run
  have quiet : translating.history = before.history :=
    ((message_prints fw (by simp [messages]) _).run begins).history.trans
      ((message_prints fw (by simp [messages]) _).run reports).history
  obtain ⟨result, history⟩ := inRam_run translates
  rw [quiet] at history
  rcases outcome with _ | status
  · cases run
    rw [history] at hands
    exact absurd hands waits
  dsimp only at run
  rw [run_ite] at run
  -- a failed translation prints and returns: the kernel is never entered
  rcases run with ⟨failed, run⟩ | ⟨fine, run⟩
  · simp only [run_bind] at run
    obtain ⟨_, told, tells, done⟩ := run
    cases done
    have still := ((perror_prints fw _ _).run tells).history
    rw [still, history] at hands
    exact absurd hands waits
  · simp only [run_bind] at run
    obtain ⟨entry, placed, places, _, told, tells, _, jumped, jumps, _, back, returns, done⟩ := run
    cases jumps
    cases done
    have told := (message_prints fw (by simp [messages]) _).run tells
    have still := (message_prints fw (by simp [messages]) _).run returns
    have success := (wbootTranslateMemmap_status result).resolve_left fun short =>
      fine (by rw [short]; rfl)
    obtain ⟨placing, same⟩ := inRam_run places
    refine ⟨reported, translating, translated.toRam, reports, begins, success ▸ result, ?_, ?_⟩
    · rw [still.mem, placing]
      exact told.mem
    · -- placing the segments and printing add nothing to the history
      rw [still.history, placing]
      dsimp only
      rw [told.history, same, history]

theorem enterKernel_hands {prepared : Prepared} {status : Option EfiStatus} (running : Running before)
    (run : enterKernel fw prepared before = (status, after)) (hands : handsOff after.history) :
    ∃ leaving memmap exited reported translating translated,
      printf fw (wide "[wboot] exiting boot services!\r\n") [] before = ((), leaving) ∧
      wbootExitBs fw prepared.params leaving = (memmap, exited) ∧ memmap ≠ 0 ∧
      printf fw (wide "[wboot] exited boot services, acquired memory map at %p\r\n")
        [.num memmap] exited = ((), reported) ∧
      printf fw (wide "[wboot] translating EFI memory map to e820\r\n") [] reported =
        ((), translating) ∧
      wbootTranslateMemmap prepared.params prepared.e820ext.node prepared.e820ext.size
        translating.toRam = (some efiSuccess, translated) ∧
      after.mem = (wbootGetKernelEntry prepared.kernel.pointer translated).2.mem ∧
      .handoff prepared.params (wbootGetKernelEntry prepared.kernel.pointer translated).1 ∈
        after.history := by
  unfold enterKernel at run
  simp only [run_bind] at run
  obtain ⟨_, leaving, leaves, memmap, exited, exits, run⟩ := run
  have quiet := (message_prints fw (by simp [messages]) _).run leaves
  have ends := wbootExitBs_ends (running.calls (quiet.calls _)) exits
  rw [run_ite] at run
  rcases run with ⟨null, run⟩ | ⟨mapped, run⟩
  · have still := (ends.resolve_right fun ended => ended.1 null).2
    simp only [run_bind] at run
    obtain ⟨_, told, tells, done⟩ := run
    cases done
    have last := (message_prints fw (by simp [messages]) _).run tells
    exact absurd hands (running_waits (still.calls (last.calls _)))
  · have waits := (ends.resolve_left fun null => mapped null.1).2.2
    obtain ⟨reported, translating, translated, reports, begins, translates, leftover, jumped⟩ :=
      afterExit_hands waits run hands
    exact ⟨leaving, memmap, exited, reported, translating, translated, leaves, exits, mapped,
      reports, begins, translates, leftover, jumped ▸ List.mem_cons_self⟩

theorem readChar_sameMem {key : UInt16} (run : readChar fw before = (key, after)) : after.mem = before.mem := by
  have keys (delay : Nat) (world : World) : (readKeyStrokes fw delay world).2.mem = world.mem := by
    induction delay generalizing world with
    | zero => rfl
    | succ delay ih => exact ih _
  unfold readChar at run
  rw [run_bind] at run
  obtain ⟨exited, _, here, run⟩ := run
  cases here
  rw [run_ite] at run
  rcases run with ⟨-, run⟩ | ⟨-, run⟩
  · cases run
    rfl
  · simp only [run_bind] at run
    obtain ⟨_, waited, waits, delay, _, here, run⟩ := run
    obtain ⟨-, rfl⟩ := Prod.mk.inj here
    have same := keys delay waited
    rw [run] at same
    cases waits
    exact same

/-- A run that hands off went through all the steps, and jumps with the parameters
they composed to the entry of the kernel they placed, in the memory it is placed in. -/
theorem efiMain_hands (running : Running before)
    (hands : handsOff (efiMain fw zstd stack before).2.history) :
    ∃ run : HandoffRun fw zstd stack before,
      loadFiles fw zstd stack before = (.ok run.files, run.loaded) ∧
      (efiMain fw zstd stack before).2.mem = run.placing.2.mem ∧
      .handoff run.composition.params run.placing.1 ∈ (efiMain fw zstd stack before).2.history := by
  obtain ⟨result, last, run⟩ : ∃ result last, efiMain fw zstd stack before = (result, last) := ⟨_, _, rfl⟩
  -- the last message and the key press call nothing that matters here, and write no memory
  obtain ⟨status, staged, stages, quiet, sameMem⟩ : ∃ status staged,
      bootStages fw zstd stack before = (status, staged) ∧ Calls ordinary staged last ∧
        last.mem = staged.mem := by
    rcases efiMain_ends fw zstd run with ⟨-, stages⟩ | ⟨status, staged, printed, key, -, stages, prints, reads⟩
    · exact ⟨_, _, stages, Std.Refl.refl last, rfl⟩
    · have told := (message_prints fw (by simp [messages]) _).run prints
      have read : Calls ordinary printed last := (readChar_ordinary fw).run reads
      exact ⟨_, _, stages, IsTrans.trans _ _ _ (told.calls _) read, (readChar_sameMem reads).trans told.mem⟩
  rw [run] at hands ⊢
  have staysIn {event : Event} (member : event ∈ staged.history) : event ∈ last.history := by
    obtain ⟨events, grown, -⟩ := quiet.history
    rw [grown]
    exact List.mem_append_right events member
  rw [calls_handsOff_iff quiet ordinary_waits] at hands
  unfold bootStages at stages
  rw [run_bind] at stages
  obtain ⟨outcome, loaded, loads, stages⟩ := stages
  have first := running.calls (((loadFiles_ordinary fw zstd stack).run loads).mono ordinary_unexited)
  -- a stage that fails leaves a machine that has handed nothing off
  cases outcome with
  | error status =>
      cases stages
      exact absurd hands (running_waits first)
  | ok files =>
      dsimp only at stages
      rw [run_bind] at stages
      obtain ⟨outcome, readied, prepares, stages⟩ := stages
      have second := first.calls (((prepareHandoff_ordinary fw files).run prepares).mono ordinary_unexited)
      cases outcome with
      | error status =>
          cases stages
          exact absurd hands (running_waits second)
      | ok prepared =>
          obtain ⟨greeted, filled, announced, drawStatus, drawn, prompted, sizeStatus, greets, fills,
            present, announces, draws, shown, prompts, sizes, granted, same⟩ :=
            prepareHandoff_composes prepares
          obtain ⟨leaving, memmap, exited, reported, translating, translated, leaves, exits, mapped,
            reports, begins, translates, leftover, jumped⟩ := enterKernel_hands second stages hands
          let composition : Composition fw files loaded :=
            { params := prepared.params
              drawStatus, sizeStatus
              e820ext := prepared.e820ext
              memmap, greeted, filled, announced, drawn, prompted
              sized := readied
              leaving, exited, reported, translating, translated, greets
              prepares := fills
              present, announces, draws, shown, prompts, sizes, granted, leaves, exits, mapped, reports
              begins, translates }
          have kernel : prepared.kernel = files.kernel := by rw [same]
          rw [kernel] at leftover jumped
          obtain ⟨loading⟩ := loadFiles_steps loads
          exact ⟨⟨files, loaded, loading, composition⟩, loads, sameMem.trans leftover, staysIn jumped⟩

/-- Steps that prepare the handoff and an exit that succeeds are a departure. -/
theorem prepared_departs {files : LoadedFiles} {start sized : World} {prepared : Prepared}
    (run : prepareHandoff fw files start = (.ok prepared, sized))
    (mapped : (wbootExitBs fw prepared.params
      (printf fw (wide "[wboot] exiting boot services!\r\n") [] sized).2).1 ≠ 0) :
    ∃ run : Departure fw files start, run.params = prepared.params ∧ run.e820ext = prepared.e820ext := by
  obtain ⟨greeted, filled, announced, drawStatus, drawn, prompted, sizeStatus, greets, prepares,
    present, announces, draws, shown, prompts, sizes, granted, -⟩ := prepareHandoff_composes run
  exact ⟨{ params := prepared.params, e820ext := prepared.e820ext, drawStatus, sizeStatus, greeted,
           filled, announced, drawn, prompted, sized, greets, prepares, present, announces, draws,
           shown, prompts, sizes, granted, mapped
           memmap := _, leaving := _, exited := _, reported := _, translating := _
           leaves := Prod.mk.eta.symm
           exits := Prod.mk.eta.symm
           reports := Prod.mk.eta.symm
           begins := Prod.mk.eta.symm }, rfl, rfl⟩

end Runs

/-- Whether a run gets past the exit, with files and parameters as expected. -/
def launches (fw : Firmware) (zstd : Zstd) (stack : SetupHeader) (start : World)
    (expected : LoadedFiles → World → Prepared → Bool) : Bool :=
  match loadFiles fw zstd stack start with
  | (.ok files, loaded) =>
      match prepareHandoff fw files loaded with
      | (.ok prepared, sized) => expected files loaded prepared && decide ((wbootExitBs fw prepared.params
          (printf fw (wide "[wboot] exiting boot services!\r\n") [] sized).2).1 ≠ 0)
      | (.error _, _) => false
  | (.error _, _) => false

theorem launches_departs {fw : Firmware} {zstd : Zstd} {stack : SetupHeader} {start : World}
    {expected : LoadedFiles → World → Prepared → Bool}
    (launches : launches fw zstd stack start expected = true) :
    ∃ files loaded prepared, ∃ _ : Loading fw zstd stack start files loaded,
      ∃ run : Departure fw files loaded, expected files loaded prepared = true ∧
        run.params = prepared.params ∧ run.e820ext = prepared.e820ext := by
  unfold Handoff.launches at launches
  generalize loads : loadFiles fw zstd stack start = outcome at launches
  obtain ⟨outcome, loaded⟩ := outcome
  cases outcome with
  | error status => cases launches
  | ok files =>
      dsimp only at launches
      generalize prepares : prepareHandoff fw files loaded = outcome at launches
      obtain ⟨outcome, sized⟩ := outcome
      cases outcome with
      | error status => cases launches
      | ok prepared =>
          obtain ⟨holds, mapped⟩ := Bool.and_eq_true_iff.mp launches
          obtain ⟨loading⟩ := loadFiles_steps loads
          obtain ⟨run, params, e820ext⟩ := prepared_departs prepares (of_decide_eq_true mapped)
          exact ⟨files, loaded, prepared, loading, run, holds, params, e820ext⟩

end Wboot.Handoff
