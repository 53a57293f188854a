import Mathlib.Algebra.Order.Group.Multiset
import Mathlib.Tactic.Abel
import Wboot.ConfigEffects
import Wboot.ConfigLoad
import Wboot.Holdings

/-! What `wboot_load_config` holds on its nine ways out. While the lines are read, that is
the file, its buffer, the block of the configuration and one block for each text that has
been set; a failure gives all of it back, and a success all but the configuration. -/

namespace Wboot.ConfigCleanup
open StateProgram ByteMemory CString Machine Wstdlib Effects ConfigParser ConfigCourses ConfigGrammar ConfigEffects
  ConfigHeap ConfigLoad ServiceEnd Holdings

def fieldsHeld (config : WbootConfig) : Multiset Held :=
  owned config.kernelPath + owned config.initrdPath + owned config.cmdline

/-- The texts but one. -/
def othersHeld (config : WbootConfig) : TextKey → Multiset Held
  | .kernel => owned config.initrdPath + owned config.cmdline
  | .initrd => owned config.kernelPath + owned config.cmdline
  | .cmdline => owned config.kernelPath + owned config.initrdPath

theorem fieldsHeld_split (config : WbootConfig) (field : TextKey) :
    fieldsHeld config = owned (pointer config field) + othersHeld config field := by
  cases field <;> simp only [fieldsHeld, pointer, othersHeld] <;> abel

theorem fieldsHeld_replaced (config : WbootConfig) (field : TextKey) (address : Nat) :
    fieldsHeld (withPointer config field address) = owned address + othersHeld config field := by
  cases field <;> simp only [fieldsHeld, withPointer, othersHeld] <;> abel

theorem fieldsHeld_congr {left right : WbootConfig} (same : ∀ field, pointer left field = pointer right field) :
    fieldsHeld left = fieldsHeld right := by
  have kernel : left.kernelPath = right.kernelPath := same .kernel
  have initrd : left.initrdPath = right.initrdPath := same .initrd
  have cmdline : left.cmdline = right.cmdline := same .cmdline
  rw [fieldsHeld, fieldsHeld, kernel, initrd, cmdline]

/-- A text whose key has been seen is there. -/
def Given (config : WbootConfig) (state : ConfigParseState) : Prop :=
  ∀ field, flag state (.text field) = true → pointer config field ≠ 0

section Parsing
variable {fw : Firmware} {start before after : World} {held rest : Multiset Held}
  {config : WbootConfig} {state : ConfigParseState} {line value lineNo : Nat}

theorem kept_parses (sound : AllocatorSound fw) : Parses fw Kept where
  prints := fun format args _ _ => printf_kept sound format args
  edits := fun program _ => inRam_kept program

theorem duplicate_holds (sound : AllocatorSound fw) {field : TextKey} {source address : Nat}
    (holds : Holds start held before) (run : duplicate fw field source before = (address, after)) :
    Holds start (owned address + held) after := by
  have copies {size : Nat} {bytes : List UInt8} {world : World} (holds : Holds start held world)
      (run : (do
        let dst ← malloc fw size
        if dst = 0 then return 0
        heapStore dst bytes
        return dst : Boot Nat) world = (address, after)) : Holds start (owned address + held) after := by
    rw [run_bind] at run
    obtain ⟨dst, allocated, allocation, run⟩ := run
    have taken := malloc_holds sound holds allocation
    rw [run_ite] at run
    rcases run with ⟨null, run⟩ | ⟨-, run⟩
    · cases run
      rwa [null] at taken
    · rw [run_bind] at run
      obtain ⟨_, stored, stores, run⟩ := run
      have same : Kept allocated stored := by
        cases stores
        exact kept_of_same rfl rfl
      cases run
      exact same _ _ taken
  cases field with
  | cmdline => exact copies holds run
  | kernel | initrd => exact copies holds run

/-- The mode is no block. -/
theorem parseConfigMode_fields {parsed : WbootConfig}
    (run : parseConfigMode fw config value lineNo before = (some parsed, after)) (field : TextKey) :
    pointer parsed field = pointer config field := by
  unfold parseConfigMode at run
  simp only [run_bind] at run
  obtain ⟨_, _, -, _, _, -, _, _, -, _, _, -, _, _, -, run⟩ := run
  rw [run_ite] at run
  rcases run with ⟨-, run⟩ | ⟨-, run⟩
  · rw [run_bind] at run
    obtain ⟨_, _, -, done⟩ := run
    cases done
  · rw [run_bind] at run
    obtain ⟨mode, _, -, run⟩ := run
    cases mode with
    | none => cases run
    | some mode =>
        cases run
        cases field <;> rfl

/-- What is held after a line, and what the flags say of it. -/
def Line (start : World) (rest : Multiset Held) (config : WbootConfig) (after : World) :
    Option (WbootConfig × ConfigParseState) → Prop
  | none => Holds start (fieldsHeld config + rest) after
  | some (config, state) => Holds start (fieldsHeld config + rest) after ∧ Given config state

theorem applyText_holds (sound : AllocatorSound fw) {field : TextKey}
    (holds : Holds start (fieldsHeld config + rest) before)
    (given : Given config state) {outcome : Option (WbootConfig × ConfigParseState)}
    (run : applyText fw config state field value before = (outcome, after)) : Line start rest config after outcome := by
  unfold applyText at run
  rw [run_bind] at run
  obtain ⟨address, copied, copies, run⟩ := run
  have taken := duplicate_holds sound holds copies
  rw [run_ite] at run
  rcases run with ⟨null, run⟩ | ⟨present, run⟩
  · have told := Relates.run (Relates.bind (printf_kept sound _ _ : Relates Kept (perror fw _ _)) fun _ => .pure none) run
    have none : outcome = none := (congrArg Prod.fst run).symm
    subst none
    rw [null] at taken
    exact told _ _ (by simpa [owned] using taken)
  · rw [run_bind] at run
    obtain ⟨⟨⟩, freed, frees, run⟩ := run
    cases run
    constructor
    · rw [fieldsHeld_replaced]
      refine free_holds ?_ frees
      rw [fieldsHeld_split config field] at taken
      convert taken using 1
      abel
    · intro other seen
      rw [pointer_withPointer]
      by_cases same : other = field
      · rw [if_pos same]
        exact present
      · rw [if_neg same]
        rw [flag_raise] at seen
        exact given other (by simpa [same] using seen)

theorem applySetting_holds (sound : AllocatorSound fw) (holds : Holds start (fieldsHeld config + rest) before)
    (given : Given config state)
    {outcome : Option (WbootConfig × ConfigParseState)}
    (run : applySetting fw config state line value lineNo before = (outcome, after)) :
    Line start rest config after outcome := by
  rw [applySetting_keyed] at run
  generalize keyNamed (cstring before.mem line) = key at run
  match key with
  | some (.text field) => exact applyText_holds sound holds given run
  | some .mode =>
      rw [applyKey, applyMode, run_bind] at run
      obtain ⟨parsed, read, parses, run⟩ := run
      have still := ((kept_parses sound).parseConfigMode config value lineNo).run parses _ _ holds
      cases parsed with
      | none =>
          cases run
          exact still
      | some parsed =>
          have same := parseConfigMode_fields parses
          cases run
          refine ⟨?_, fun field seen => ?_⟩
          · rw [fieldsHeld_congr same]
            exact still
          · rw [flag_raise] at seen
            exact same field ▸ given field (by simpa using seen)
  | none =>
      rw [applyKey, unknownKey, run_bind] at run
      obtain ⟨_, told, tells, run⟩ := run
      cases run
      exact (printf_kept sound _ _).run tells _ _ holds

theorem parseConfigLine_holds (sound : AllocatorSound fw) (holds : Holds start (fieldsHeld config + rest) before)
    (given : Given config state) {outcome : Option (WbootConfig × ConfigParseState)}
    (run : parseConfigLine fw config state line lineNo before = (outcome, after)) :
    Line start rest config after outcome := by
  -- both refusals of a line print and return none, so the fields keep what they hold
  have missing {key lineNo : Nat} {world : World} (holds : Holds start (fieldsHeld config + rest) world)
      (run : missingValue fw key lineNo world = (outcome, after)) : Line start rest config after outcome := by
    rw [missingValue, run_bind] at run
    obtain ⟨_, told, tells, run⟩ := run
    cases run
    exact (printf_kept sound _ _).run tells _ _ holds
  unfold parseConfigLine at run
  rw [run_bind] at run
  obtain ⟨line, _, here, run⟩ := run
  obtain ⟨rfl, rfl⟩ := Prod.mk.inj here
  rw [run_bind] at run
  obtain ⟨first, _, here, run⟩ := run
  obtain ⟨rfl, rfl⟩ := Prod.mk.inj here
  rw [run_ite] at run
  rcases run with ⟨-, run⟩ | ⟨-, run⟩
  · cases run
    exact ⟨holds, given⟩
  simp only [run_bind] at run
  obtain ⟨stop, _, here, ending, _, there, run⟩ := run
  obtain ⟨rfl, rfl⟩ := Prod.mk.inj here
  obtain ⟨rfl, rfl⟩ := Prod.mk.inj there
  rw [run_ite] at run
  rcases run with ⟨-, run⟩ | ⟨-, run⟩
  · exact missing holds run
  simp only [run_bind] at run
  -- the cuts only write to the line; the setting is applied to the same holdings
  obtain ⟨_, cut, cuts, value, _, here, _, trimmed, trims, head, _, there, run⟩ := run
  obtain ⟨rfl, rfl⟩ := Prod.mk.inj here
  obtain ⟨rfl, rfl⟩ := Prod.mk.inj there
  have ready := (inRam_kept _).run trims _ _ ((inRam_kept _).run cuts _ _ holds)
  rw [run_ite] at run
  rcases run with ⟨-, run⟩ | ⟨-, run⟩
  · exact missing ready run
  · exact applySetting_holds sound ready given run

/-- The texts of a failure are those of the lines before it. -/
def Lines (start : World) (rest : Multiset Held) (after : World) :
    Except WbootConfig (WbootConfig × ConfigParseState) → Prop
  | .error config => Holds start (fieldsHeld config + rest) after
  | .ok (config, state) => Holds start (fieldsHeld config + rest) after ∧ Given config state

theorem parseLines_holds (sound : AllocatorSound fw) {fuel saveptr : Nat}
    (holds : Holds start (fieldsHeld config + rest) before) (given : Given config state)
    {outcome : Except WbootConfig (WbootConfig × ConfigParseState)}
    (run : parseLines fw fuel config state line saveptr lineNo before = (outcome, after)) :
    Lines start rest after outcome := by
  induction fuel generalizing config state line saveptr lineNo before with
  | zero =>
      cases run
      exact ⟨holds, given⟩
  | succ fuel ih =>
      rw [parseLines, run_ite] at run
      rcases run with ⟨-, run⟩ | ⟨-, run⟩
      · cases run
        exact ⟨holds, given⟩
      rw [run_bind] at run
      obtain ⟨parsed, read, parses, run⟩ := run
      have one := parseConfigLine_holds sound holds given parses
      cases parsed with
      | none =>
          cases run
          exact one
      | some parsed =>
          rw [run_bind] at run
          obtain ⟨token, fetched, fetches, run⟩ := run
          have still := ((kept_parses sound).nextToken 0 lineDelim saveptr).run fetches
          exact ih (still _ _ one.1) one.2 run

/-! ### The whole load -/

theorem perror_kept (sound : AllocatorSound fw) (message : List UInt16) (status : EfiStatus) :
    Relates Kept (perror fw message status) :=
  printf_kept sound _ _

theorem informing_holds (sound : AllocatorSound fw) {file : Nat} (steps : Informing fw file before)
    (holds : Holds start held before) : Holds start held steps.freed := by
  have taken := malloc_holds sound holds steps.allocation
  exact free_holds ((fileGetInfo_kept _ _ _).run steps.asks _ _ taken) steps.frees

theorem filling_holds (sound : AllocatorSound fw) {file : Nat} (steps : Filling fw file before)
    (holds : Holds start held before) : Holds start (owned steps.data + held) steps.read := by
  have data := malloc_holds sound (informing_holds sound steps.toInforming holds) steps.reserves
  exact (fileReadInto_kept _ _ _).run steps.reads _ _ data

theorem readConfigData_holds (sound : AllocatorSound fw) {file : Nat} (holds : Holds start held before)
    {outcome : Option Nat} (run : readConfigData fw file before = (outcome, after)) :
    Holds start (owned (outcome.getD 0) + held) after := by
  have nothing : owned 0 + held = held := zero_add held
  cases readConfigData_course fw run with
  | uninformed allocation tells => exact (perror_kept sound _ _).run tells _ _ (malloc_holds sound holds allocation)
  | unasked allocation present asks failed tells frees =>
      have asked := (fileGetInfo_kept _ _ _).run asks _ _ (malloc_holds sound holds allocation)
      rw [Option.getD_none, nothing]
      exact free_holds ((perror_kept sound _ _).run tells _ _ asked) frees
  | unbuffered steps reserves tells =>
      have none := malloc_holds sound (informing_holds sound steps holds) reserves
      exact (perror_kept sound _ _).run tells _ _ none
  | unread steps failed tells frees =>
      rw [Option.getD_none, nothing]
      exact free_holds ((perror_kept sound _ _).run tells _ _ (filling_holds sound steps holds)) frees
  | short steps served different tells frees =>
      rw [Option.getD_none, nothing]
      exact free_holds ((printf_kept sound _ _).run tells _ _ (filling_holds sound steps holds)) frees
  | whole steps served same =>
      have ended : Kept steps.read
          { steps.read with mem := poke steps.read.mem (steps.data + steps.result.2) 0 } := kept_of_same rfl rfl
      exact ended _ _ (filling_holds sound steps holds)

theorem parseConfigData_holds (sound : AllocatorSound fw) {root data : Nat} (holds : Holds start held before)
    {outcome : Except WbootConfig WbootConfig} (run : parseConfigData fw root data before = (outcome, after)) :
    match outcome with
    | .error config => Holds start (fieldsHeld config + held) after
    | .ok config => Holds start (fieldsHeld config + held) after ∧ ∀ field, pointer config field ≠ 0 := by
  have parses := kept_parses sound
  have empty : fieldsHeld (emptyConfig root) + held = held := zero_add held
  have unseen : Given (emptyConfig root) ⟨false, false, false, false⟩ := by
    intro field seen
    cases field <;> exact Bool.noConfusion seen
  unfold parseConfigData at run
  rw [run_bind] at run
  obtain ⟨token, fetched, fetches, run⟩ := run
  rw [run_bind] at run
  obtain ⟨lines, read, reads, run⟩ := run
  have still := (parses.nextToken data lineDelim 0).run fetches _ _ holds
  have parsed := parseLines_holds sound (empty.symm ▸ still) unseen reads
  -- a refused line leaves its half-filled fields to the caller, who frees them
  cases lines with
  | error config =>
      cases run
      exact parsed
  | ok result =>
      obtain ⟨config, state⟩ := result
      obtain ⟨kept, given⟩ := parsed
      dsimp only at run
      rw [run_ite] at run
      rcases run with ⟨complete, run⟩ | ⟨-, run⟩
      · cases run
        simp only [Bool.and_eq_true] at complete
        obtain ⟨⟨⟨kernel, initrd⟩, cmdline⟩, -⟩ := complete
        -- the flags of a complete file say that every field was given
        refine ⟨kept, fun field => given field ?_⟩
        cases field <;> assumption
      · rw [run_bind] at run
        obtain ⟨_, told, tells, run⟩ := run
        cases run
        exact (parses.printMissing state).run tells _ _ kept

/-- What is left of a load, with the block of the configuration at `block`. -/
def Left (block : Nat) : Option WbootConfig → Multiset Held
  | none => 0
  | some config => {.pool block, .pool config.kernelPath, .pool config.initrdPath, .pool config.cmdline}

theorem freeConfigFields_holds {config : WbootConfig} (holds : Holds start (fieldsHeld config + held) before)
    (run : freeConfigFields fw config before = ((), after)) : Holds start held after := by
  unfold freeConfigFields at run
  simp only [run_bind] at run
  obtain ⟨⟨⟩, one, first, ⟨⟩, two, second, third⟩ := run
  rw [fieldsHeld, add_assoc, add_assoc] at holds
  exact free_holds (free_holds (free_holds holds first) second) third

/-- After the open the block is held, and the file if there is one. -/
theorem opening_holds (sound : AllocatorSound fw) {root : Nat} (holds : Holds start held before)
    (steps : Opening fw root before) :
    Holds start (if efiError steps.reply.1 then owned steps.block + held
      else .file steps.reply.2 ::ₘ (owned steps.block + held)) steps.opened :=
  fileOpen_holds (malloc_holds sound holds steps.allocation) steps.opens

theorem wbootLoadConfig_adds (sound : AllocatorSound fw) {root : Nat} (holds : Holds start held before)
    {outcome : Option WbootConfig} (run : wbootLoadConfig fw root before = (outcome, after)) :
    Holds start (Left (fw.allocatePool before.history sizeofWbootConfig).2 outcome + held) after ∧
      ∀ config, outcome = some config →
        (fw.allocatePool before.history sizeofWbootConfig).2 ≠ 0 ∧ ∀ field, pointer config field ≠ 0 := by
  -- the buffer and the file are given back before the rest
  have order (data file block : Nat) (fields : WbootConfig) :
      fieldsHeld fields + (owned data + (.file file ::ₘ (owned block + held))) =
        owned data + (.file file ::ₘ (fieldsHeld fields + (owned block + held))) := by
    simp only [← Multiset.singleton_add]
    abel
  have nothing {block : Nat} {world : World} (holds : Holds start held world) :
      Holds start (Left block none + held) world :=
    (zero_add held).symm ▸ holds
  cases wbootLoadConfig_course fw run with
  | scarce allocation => exact ⟨nothing (by simpa [owned] using malloc_holds sound holds allocation), nofun⟩
  | unopened steps failed frees =>
      have opening := opening_holds sound holds steps
      rw [if_pos failed] at opening
      exact ⟨nothing (free_holds opening frees), nofun⟩
  | unread steps openable reads closes frees =>
      have opening := opening_holds sound holds steps
      rw [if_neg (by simp [openable])] at opening
      have reading := readConfigData_holds sound opening reads
      rw [Option.getD_none, owned, if_pos rfl, zero_add] at reading
      exact ⟨nothing (free_holds (fileClose_holds reading closes) frees), nofun⟩
  | @refused steps data fields _ _ _ openable reads parses undoes =>
      have opening := opening_holds sound holds steps
      rw [if_neg (by simp [openable])] at opening
      have parsing := parseConfigData_holds sound (readConfigData_holds sound opening reads) parses
      dsimp only at parsing
      rw [Option.getD_some, order] at parsing
      have texts := fileClose_holds (free_holds parsing undoes.empties) undoes.closes
      exact ⟨nothing (free_holds (freeConfigFields_holds texts undoes.clears) undoes.frees), nofun⟩
  | @loaded steps data config _ _ _ _ _ openable reads parses frees closes =>
      have opening := opening_holds sound holds steps
      rw [if_neg (by simp [openable])] at opening
      obtain ⟨kept, given⟩ := parseConfigData_holds sound (readConfigData_holds sound opening reads) parses
      rw [Option.getD_some, order] at kept
      have texts := fileClose_holds (free_holds kept frees) closes
      have answer := malloc_answer fw holds.early steps.present steps.allocation
      refine ⟨?_, fun other same => ⟨answer ▸ steps.present, Option.some.inj same ▸ given⟩⟩
      have single (ptr : Nat) (present : ptr ≠ 0) : owned ptr = {.pool ptr} := if_neg present
      have kernel := single config.kernelPath (given .kernel)
      have initrd := single config.initrdPath (given .initrd)
      have cmdline := single config.cmdline (given .cmdline)
      convert texts using 1
      rw [← answer, fieldsHeld, kernel, initrd, cmdline, single steps.block steps.present]
      simp only [Left, Multiset.insert_eq_cons, ← Multiset.singleton_add]
      abel

theorem wbootLoadConfig_holds (sound : AllocatorSound fw) {root : Nat} (early : before.bsExited = false)
    {outcome : Option WbootConfig} (run : wbootLoadConfig fw root before = (outcome, after)) :
    Holds before (Left (fw.allocatePool before.history sizeofWbootConfig).2 outcome) after ∧
      ∀ config, outcome = some config →
        (fw.allocatePool before.history sizeofWbootConfig).2 ≠ 0 ∧ ∀ field, pointer config field ≠ 0 := by
  have adds := wbootLoadConfig_adds sound (.nothing early) run
  rwa [add_zero] at adds

end Parsing

/-- Names that are held once each are different. -/
theorem distinct_names {start world : World} {names : List Nat}
    (holds : Holds start (names.map Held.pool : List Held) world) : names.Nodup := by
  refine List.Nodup.of_map Held.pool (Multiset.coe_nodup.mp (Multiset.nodup_iff_count_le_one.mpr fun name => ?_))
  cases name with
  | pool ptr => exact holds.single ptr
  | pages address count | file handle => simp

/-- A load that fails has given back what it took, once; one that succeeds has kept the
block of the configuration and those of its three texts, and closed the file. -/
theorem wbootLoadConfig_settles (fw : Firmware) (root : Nat) (world : World) (sound : AllocatorSound fw)
    (early : world.bsExited = false) :
    let block := (fw.allocatePool world.history sizeofWbootConfig).2
    let load := wbootLoadConfig fw root world
    Settles world load.2 (Left block load.1) ∧ ∀ config, load.1 = some config →
      [0, block, config.kernelPath, config.initrdPath, config.cmdline].Nodup := by
  obtain ⟨holds, present⟩ := wbootLoadConfig_holds sound early (Prod.mk.eta.symm : wbootLoadConfig fw root world = _)
  refine ⟨holds.settles, fun config found => ?_⟩
  obtain ⟨block, given⟩ := present config found
  rw [found] at holds
  have others := @distinct_names world (wbootLoadConfig fw root world).2
    [(fw.allocatePool world.history sizeofWbootConfig).2, config.kernelPath, config.initrdPath, config.cmdline] holds
  refine List.nodup_cons.mpr ⟨?_, others⟩
  have kernel : config.kernelPath ≠ 0 := given .kernel
  have initrd : config.initrdPath ≠ 0 := given .initrd
  have cmdline : config.cmdline ≠ 0 := given .cmdline
  simp [block.symm, kernel.symm, initrd.symm, cmdline.symm]

theorem disk_config_held :
    (wbootLoadConfig diskFirmware 1 bootWorld).1.isSome = true ∧
      Settles bootWorld (wbootLoadConfig diskFirmware 1 bootWorld).2
        (Left (diskFirmware.allocatePool [] sizeofWbootConfig).2 (wbootLoadConfig diskFirmware 1 bootWorld).1) :=
  ⟨by decide +kernel, (wbootLoadConfig_settles diskFirmware 1 bootWorld diskFirmware_sound rfl).1⟩

end Wboot.ConfigCleanup
