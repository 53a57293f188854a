import Wboot.ConfigParser
import Wboot.Effects

/-! The ways out of `read_config_data` and `wboot_load_config`. A run is taken apart here,
once; what is said of all runs is then said of each way out. -/

namespace Wboot.ConfigCourses
open StateProgram ByteMemory Machine Wstdlib Effects ConfigParser

section Courses
variable (fw : Firmware)

/-- A run that knows the size of the file. -/
structure Informing (file : Nat) (before : World) where
  fileInfo : Nat
  info : FileInfoReply
  informed : World
  asked : World
  freed : World
  allocation : malloc fw configInfoSize before = (fileInfo, informed)
  present : fileInfo ≠ 0
  asks : fileGetInfo fw file configInfoSize fileInfo informed = (info, asked)
  told : efiError info.status = false
  frees : free fw fileInfo asked = ((), freed)

def Informing.size {fw : Firmware} {file : Nat} {before : World} (steps : Informing fw file before) : Nat :=
  fileSizeField.get steps.asked.mem steps.fileInfo

theorem Informing.relates {fw : Firmware} {file : Nat} {before : World} {step : World → World → Prop}
    [IsPreorder World step] (allocates : ∀ size, Relates step (malloc fw size))
    (asks : ∀ size buffer, Relates step (fileGetInfo fw file size buffer)) (frees : ∀ ptr, Relates step (free fw ptr))
    (steps : Informing fw file before) : step before steps.freed := by
  have informed := (allocates _).run steps.allocation
  have asked := (asks _ _).run steps.asks
  exact IsTrans.trans _ _ _ (IsTrans.trans _ _ _ informed asked) ((frees _).run steps.frees)

/-- A run that has called Read. -/
structure Filling (file : Nat) (before : World) extends Informing fw file before where
  data : Nat
  result : EfiStatus × Nat
  allocated : World
  read : World
  reserves : malloc fw (u64 (toInforming.size + 1)) freed = (data, allocated)
  there : data ≠ 0
  reads : fileReadInto fw file toInforming.size data allocated = (result, read)

inductive DataCourse (file : Nat) (before : World) : Option Nat → World → Prop
  | uninformed {informed after : World} (allocation : malloc fw configInfoSize before = (0, informed))
      (tells : perror fw (wide "error allocating memory for config file info") informed.errno informed = ((), after)) :
      DataCourse file before none after
  | unasked {fileInfo : Nat} {info : FileInfoReply} {informed asked told after : World}
      (allocation : malloc fw configInfoSize before = (fileInfo, informed)) (present : fileInfo ≠ 0)
      (asks : fileGetInfo fw file configInfoSize fileInfo informed = (info, asked))
      (failed : efiError info.status = true)
      (tells : perror fw (wide "error getting config file info") info.status asked = ((), told))
      (frees : free fw fileInfo told = ((), after)) : DataCourse file before none after
  | unbuffered (steps : Informing fw file before) {allocated after : World}
      (reserves : malloc fw (u64 (steps.size + 1)) steps.freed = (0, allocated))
      (tells : perror fw (wide "error allocating memory for config data") allocated.errno allocated = ((), after)) :
      DataCourse file before none after
  | unread (steps : Filling fw file before) {told after : World} (failed : efiError steps.result.1 = true)
      (tells : perror fw (wide "error reading config file") steps.result.1 steps.read = ((), told))
      (frees : free fw steps.data told = ((), after)) : DataCourse file before none after
  | short (steps : Filling fw file before) {told after : World} (served : efiError steps.result.1 = false)
      (different : steps.result.2 ≠ steps.size)
      (tells : printf fw (wide "error: expected to read %u bytes but read %u bytes\n")
        [.num steps.size, .num steps.result.2] steps.read = ((), told))
      (frees : free fw steps.data told = ((), after)) : DataCourse file before none after
  | whole (steps : Filling fw file before) (served : efiError steps.result.1 = false)
      (same : steps.result.2 = steps.size) :
      DataCourse file before (some steps.data)
        { steps.read with mem := poke steps.read.mem (steps.data + steps.result.2) 0 }

theorem readConfigData_course {file : Nat} {before after : World} {outcome : Option Nat}
    (run : readConfigData fw file before = (outcome, after)) : DataCourse fw file before outcome after := by
  unfold readConfigData at run
  rw [run_bind] at run
  obtain ⟨fileInfo, informed, allocation, run⟩ := run
  rw [run_ite] at run
  -- no block for the file information
  rcases run with ⟨null, run⟩ | ⟨present, run⟩
  · simp only [run_bind] at run
    obtain ⟨errno, _, here, _, told, tells, run⟩ := run
    obtain ⟨rfl, rfl⟩ := Prod.mk.inj here
    cases run
    exact .uninformed (null ▸ allocation) tells
  rw [run_bind] at run
  obtain ⟨info, asked, asks, run⟩ := run
  rw [run_ite] at run
  -- the firmware refuses to describe the file
  rcases run with ⟨failed, run⟩ | ⟨fine, run⟩
  · simp only [run_bind] at run
    obtain ⟨_, told, tells, ⟨⟩, freed, frees, run⟩ := run
    cases run
    exact .unasked allocation present asks failed tells frees
  simp only [run_bind] at run
  obtain ⟨size, _, loads, ⟨⟩, freed, frees, data, allocated, reserves, run⟩ := run
  cases loads
  let informing : Informing fw file before :=
    { fileInfo, info, informed, asked, freed, allocation, present, asks, frees
      told := by simpa using fine }
  rw [run_ite] at run
  -- no block for the text
  rcases run with ⟨null, run⟩ | ⟨there, run⟩
  · simp only [run_bind] at run
    obtain ⟨errno, _, here, _, told, tells, run⟩ := run
    obtain ⟨rfl, rfl⟩ := Prod.mk.inj here
    cases run
    exact .unbuffered informing (null ▸ reserves) tells
  rw [run_bind] at run
  obtain ⟨result, read, reads, run⟩ := run
  let steps : Filling fw file before := { informing with data, result, allocated, read, reserves, there, reads }
  rw [run_ite] at run
  -- the read fails, or delivers another count than the size that was told
  rcases run with ⟨failed, run⟩ | ⟨good, run⟩
  · simp only [run_bind] at run
    obtain ⟨_, told, tells, ⟨⟩, freed, frees, run⟩ := run
    cases run
    exact .unread steps failed tells frees
  have served : efiError result.1 = false := by simpa using good
  rw [run_ite] at run
  rcases run with ⟨different, run⟩ | ⟨same, run⟩
  · simp only [run_bind] at run
    obtain ⟨_, told, tells, ⟨⟩, freed, frees, run⟩ := run
    cases run
    exact .short steps served different tells frees
  · cases run
    exact .whole steps served (Decidable.not_not.mp same)

/-! ### The whole load -/

/-- A run that has the file open. -/
structure Opening (root : Nat) (before : World) where
  block : Nat
  reply : EfiStatus × Nat
  allocated : World
  opened : World
  allocation : malloc fw sizeofWbootConfig before = (block, allocated)
  present : block ≠ 0
  opens : fileOpen fw root (wide "wboot.conf") allocated = (reply, opened)

/-- What is undone when the lines are refused. -/
structure Undoing (data file block : Nat) (fields : WbootConfig) (before after : World) where
  status : EfiStatus
  emptied : World
  closed : World
  cleared : World
  empties : free fw data before = ((), emptied)
  closes : fileClose fw file emptied = (status, closed)
  clears : freeConfigFields fw fields closed = ((), cleared)
  frees : free fw block cleared = ((), after)

theorem Undoing.relates {fw : Firmware} {data file block : Nat} {fields : WbootConfig} {before after : World}
    {step : World → World → Prop} [IsPreorder World step] (frees : ∀ ptr, Relates step (free fw ptr))
    (closes : ∀ file, Relates step (fileClose fw file)) (undoes : Undoing fw data file block fields before after) :
    step before after := by
  have fieldsFreed : Relates step (freeConfigFields fw fields) :=
    (frees _).bind fun _ => (frees _).bind fun _ => frees _
  have closed := IsTrans.trans _ _ _ ((frees _).run undoes.empties) ((closes _).run undoes.closes)
  have cleared := fieldsFreed.run undoes.clears
  exact IsTrans.trans _ _ _ closed (IsTrans.trans _ _ _ cleared ((frees _).run undoes.frees))

inductive LoadCourse (root : Nat) (before : World) : Option WbootConfig → World → Prop
  | scarce {after : World} (allocation : malloc fw sizeofWbootConfig before = (0, after)) :
      LoadCourse root before none after
  | unopened (steps : Opening fw root before) {after : World} (failed : efiError steps.reply.1 = true)
      (frees : free fw steps.block steps.opened = ((), after)) : LoadCourse root before none after
  | unread (steps : Opening fw root before) {read closed after : World} {status : EfiStatus}
      (openable : efiError steps.reply.1 = false)
      (reads : readConfigData fw steps.reply.2 steps.opened = (none, read))
      (closes : fileClose fw steps.reply.2 read = (status, closed))
      (frees : free fw steps.block closed = ((), after)) : LoadCourse root before none after
  | refused (steps : Opening fw root before) {data : Nat} {fields : WbootConfig} {read parsed after : World}
      (openable : efiError steps.reply.1 = false)
      (reads : readConfigData fw steps.reply.2 steps.opened = (some data, read))
      (parses : parseConfigData fw root data read = (.error fields, parsed))
      (undoes : Undoing fw data steps.reply.2 steps.block fields parsed after) : LoadCourse root before none after
  | loaded (steps : Opening fw root before) {data : Nat} {config : WbootConfig} {status : EfiStatus}
      {read parsed freed after : World} (openable : efiError steps.reply.1 = false)
      (reads : readConfigData fw steps.reply.2 steps.opened = (some data, read))
      (parses : parseConfigData fw root data read = (.ok config, parsed))
      (frees : free fw data parsed = ((), freed))
      (closes : fileClose fw steps.reply.2 freed = (status, after)) : LoadCourse root before (some config) after

theorem wbootLoadConfig_course {root : Nat} {before after : World} {outcome : Option WbootConfig}
    (run : wbootLoadConfig fw root before = (outcome, after)) : LoadCourse fw root before outcome after := by
  unfold wbootLoadConfig at run
  rw [run_bind] at run
  obtain ⟨block, allocated, allocation, run⟩ := run
  rw [run_ite] at run
  rcases run with ⟨null, run⟩ | ⟨present, run⟩
  · cases run
    exact .scarce (null ▸ allocation)
  rw [run_bind] at run
  obtain ⟨reply, opened, opens, run⟩ := run
  let steps : Opening fw root before := { block, reply, allocated, opened, allocation, present, opens }
  rw [run_ite] at run
  rcases run with ⟨failed, run⟩ | ⟨fine, run⟩
  · rw [run_bind] at run
    obtain ⟨⟨⟩, freed, frees, run⟩ := run
    cases run
    exact .unopened steps failed frees
  have openable : efiError reply.1 = false := by simpa using fine
  rw [run_bind] at run
  obtain ⟨found, read, reads, run⟩ := run
  cases found with
  | none =>
      simp only [run_bind] at run
      obtain ⟨status, closed, closes, ⟨⟩, freed, frees, run⟩ := run
      cases run
      exact .unread steps openable reads closes frees
  | some data =>
      dsimp only at run
      rw [run_bind] at run
      obtain ⟨result, parsed, parses, run⟩ := run
      -- a parse error empties the fields before the file is closed, a success keeps them
      cases result with
      | error fields =>
          dsimp only at run
          simp only [run_bind] at run
          obtain ⟨⟨⟩, emptied, empties, status, closed, closes, ⟨⟩, cleared, clears, ⟨⟩, freed, frees, run⟩ := run
          cases run
          exact .refused steps openable reads parses
            { status, emptied, closed, cleared, empties, closes, clears, frees }
      | ok config =>
          dsimp only at run
          simp only [run_bind] at run
          obtain ⟨⟨⟩, freed, frees, status, closed, closes, run⟩ := run
          cases run
          exact .loaded steps openable reads parses frees closes

end Courses

end Wboot.ConfigCourses
