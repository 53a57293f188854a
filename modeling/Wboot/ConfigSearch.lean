import Wboot.NullPointers
import Wboot.PrintfOutput
import Wboot.ServiceEnd

/-! `wboot_locate_config` goes through the volumes and takes the first configuration
that loads. Whatever else fails on a volume is printed, and two of the messages read a
string that need not be there: the text of a device path that has none, and the
temporary buffer of `%-s`, which a load prints with. -/

namespace Wboot.ConfigSearch
open StateProgram ByteMemory CString Machine Wstdlib PrintfPieces Effects PrintfOutput NullPointers ConfigParser
  ConfigEffects ServiceEnd

/-- Reads through NULL come with stores through NULL, and none without. -/
structure Paired (before after : World) : Prop where
  grown : Logs (fun _ => True) before after
  paired : Logs (· ≠ .stringRead 0) before after ↔ Logs (· ≠ .heapStore 0) before after

instance : IsPreorder World Paired where
  refl := fun world => ⟨Std.Refl.refl world, iff_of_true (Std.Refl.refl world) (Std.Refl.refl world)⟩
  trans := fun first second third left right => by
    refine ⟨IsTrans.trans _ _ _ left.grown right.grown, ?_⟩
    rw [Logs.split left.grown right.grown, Logs.split left.grown right.grown, left.paired, right.paired]

section Loading
variable {fw : Firmware}

theorem harmless_paired (before after : World) (logs : Logs (harmless False) before after) : Paired before after where
  grown := logs.any
  paired := iff_of_true (logs.mono fun _ safe null => safe.2 null) (logs.mono fun _ safe => safe.1)

/-- What is copied to NULL is printed from there. -/
theorem printfNarrow_paired (arg : Arg) (passed : arg = .widePointer 0 ∨ arg = .narrowPointer 0 → False) :
    Relates Paired (printfNarrow fw arg) := by
  intro world
  obtain ⟨outcome, after, run⟩ : ∃ outcome after, printfNarrow fw arg world = (outcome, after) := ⟨_, _, rfl⟩
  rw [run]
  obtain ⟨recorded, buffer, allocated, stored, written, -, records, allocation, stores, writes, frees⟩ :=
    printfNarrow_parts run
  have first : Logs (harmless False) world allocated :=
    IsTrans.trans _ _ _ ((recordRead_logs arg (harmless_reads passed)).run records) ((malloc_logs _).run allocation)
  have copied : written.accesses = [.stringRead buffer, .heapStore buffer] ++ allocated.accesses := by
    cases stores
    cases writes
    rfl
  have middle : Paired allocated written := by
    refine ⟨(logs_iff copied).mpr (by simp), ?_⟩
    rw [logs_iff copied, logs_iff copied]
    simp
  have last : Logs (harmless False) written after := (free_logs buffer).run frees
  exact IsTrans.trans _ _ _ (harmless_paired _ _ first) (IsTrans.trans _ _ _ middle (harmless_paired _ _ last))

theorem printf_paired (format : List UInt16) (args : List Arg) (wide : .widePointer 0 ∉ args)
    (narrow : .narrowPointer 0 ∉ args) : Relates Paired (printf fw format args) := by
  refine Relates.bind ?_ fun _ => (console_logs _).mono harmless_paired
  rw [printfScan_pieces]
  refine runPieces_relates fun piece member => ?_
  cases piece with
  | verbatim text => exact (console_logs _).mono harmless_paired
  | cut => exact (console_logs _).mono harmless_paired
  | narrow arg => exact printfNarrow_paired arg fun null => (pieces_pointer member rfl null).elim wide narrow
  | conversion c arg =>
      have passed (null : arg = .widePointer 0 ∨ arg = .narrowPointer 0) : False :=
        (pieces_pointer member rfl null).elim wide narrow
      exact (convert_logs c arg (harmless_reads passed)).mono harmless_paired

theorem paired_loads : Loads fw Paired where
  prints := printf_paired
  allocates := fun size => (malloc_logs size).mono harmless_paired
  releases := fun ptr => (free_logs ptr).mono harmless_paired
  stores := fun ptr bytes present world =>
    harmless_paired _ _ ((heapStore_logs_iff ptr bytes world).mpr present)
  edits := fun program same world => harmless_paired _ _ ⟨[], same _, by simp⟩
  files := fun answer event _ => (service_logs answer event).mono harmless_paired

end Loading

/-! ### The messages of a load -/

/-- A step of a load that prints nothing. -/
inductive Quiet (fw : Firmware) : World → World → Prop
  | allocates (size : Nat) (world : World) : Quiet fw world (malloc fw size world).2
  | releases (ptr : Nat) (world : World) : Quiet fw world (free fw ptr world).2
  | stores (ptr : Nat) (bytes : List UInt8) (present : ptr ≠ 0) (world : World) :
      Quiet fw world (heapStore ptr bytes world).2
  | edits (program : Prog Ram Unit) (same : ∀ ram, (program ram).2.accesses = ram.accesses) (world : World) :
      Quiet fw world (inRam program world).2
  | calls {ρ : Type} (answer : History → ρ) (event : ρ → Event) (file : ∀ reply, fileCall (event reply))
      (world : World) : Quiet fw world (service answer event world).2

/-- A call of printf, with the world it is called in. -/
structure Message where
  world : World
  format : List UInt16
  args : List Arg

/-- A load as its steps, and the messages among them. None is passed a NULL. -/
inductive Course (fw : Firmware) : List Message → World → World → Prop
  | ended (world : World) : Course fw [] world world
  | quiet {messages : List Message} {before middle after : World} (step : Quiet fw before middle)
      (rest : Course fw messages middle after) : Course fw messages before after
  | prints {messages : List Message} {before after : World} (format : List UInt16) (args : List Arg)
      (wide : .widePointer 0 ∉ args) (narrow : .narrowPointer 0 ∉ args)
      (rest : Course fw messages (printf fw format args before).2 after) :
      Course fw (⟨before, format, args⟩ :: messages) before after

/-- The pool has a block for each of its `%-s`. -/
def Message.served (fw : Firmware) (message : Message) : Prop :=
  piecesServed fw (pieces message.format message.args) message.world

section Courses
variable {fw : Firmware}

theorem Course.append {early late : List Message} {before middle after : World} (first : Course fw early before middle)
    (second : Course fw late middle after) : Course fw (early ++ late) before after := by
  induction first with
  | ended world => exact second
  | quiet step rest ih => exact .quiet step (ih second)
  | prints format args wide narrow rest ih => exact .prints format args wide narrow (ih second)

/-- There is a course from one world to the other. -/
def Leads (fw : Firmware) (before after : World) : Prop := ∃ messages, Course fw messages before after

instance : IsPreorder World (Leads fw) where
  refl := fun world => ⟨[], .ended world⟩
  trans := fun _ _ _ left right => by
    obtain ⟨early, first⟩ := left
    obtain ⟨late, second⟩ := right
    exact ⟨early ++ late, first.append second⟩

theorem quiet_leads {before after : World} (step : Quiet fw before after) : Leads fw before after :=
  ⟨[], .quiet step (.ended after)⟩

theorem leads_loads : Loads fw (Leads fw) where
  prints := fun format args wide narrow _ => ⟨_, .prints format args wide narrow (.ended _)⟩
  allocates := fun size world => quiet_leads (.allocates size world)
  releases := fun ptr world => quiet_leads (.releases ptr world)
  stores := fun ptr bytes present world => quiet_leads (.stores ptr bytes present world)
  edits := fun program same world => quiet_leads (.edits program same world)
  files := fun answer event file world => quiet_leads (.calls answer event file world)

theorem Quiet.logs {before after : World} (step : Quiet fw before after) : Logs (harmless False) before after := by
  cases step with
  | allocates size => exact malloc_logs size before
  | releases ptr => exact free_logs ptr before
  | stores ptr bytes present => exact (heapStore_logs_iff ptr bytes before).mpr present
  | edits program same => exact ⟨[], same _, by simp⟩
  | calls answer event => exact service_logs answer event before

theorem Course.grown {messages : List Message} {before after : World} (course : Course fw messages before after) :
    Logs (fun _ => True) before after := by
  have any : Absorbs fw (Logs fun _ => True) := logs_absorbs fw (fun _ => trivial) fun _ => trivial
  induction course with
  | ended world => exact Std.Refl.refl world
  | quiet step rest ih => exact IsTrans.trans _ _ _ step.logs.any ih
  | prints format args wide narrow rest ih => exact IsTrans.trans _ _ _ (any.printf format args _) ih

/-- NULL is left alone exactly if every message is served. -/
theorem Course.logs_iff {messages : List Message} {before after : World} (course : Course fw messages before after) :
    Logs (harmless False) before after ↔ ∀ message ∈ messages, message.served fw := by
  have any : Absorbs fw (Logs fun _ => True) := logs_absorbs fw (fun _ => trivial) fun _ => trivial
  induction course with
  | ended world => exact iff_of_true (Std.Refl.refl world) (by simp)
  | quiet step rest ih => exact (Logs.after_iff step.logs rest.grown).trans ih
  | @prints messages before after format args wide narrow rest ih =>
      have passed : (.widePointer 0 ∈ args ∨ .narrowPointer 0 ∈ args) = False := by simp [wide, narrow]
      have printed := @printf_logs_iff fw format args before
      rw [passed] at printed
      rw [List.forall_mem_cons]
      exact (Logs.split (any.printf format args before) rest.grown).trans (and_congr printed ih)

end Courses

/-! ### One volume -/

/-- A handle of the list, and the world in which the search comes to it. -/
structure Visit where
  handle : Nat
  before : World

section Volumes
variable (fw : Firmware)

def Visit.volume (visit : Visit) : Option (Nat × World) :=
  let (fs, found) := handleProtocol fw visit.handle .simpleFileSystem
    (printDevicePath fw visit.handle visit.before).2
  if efiError fs.1 then none
  else
    let (root, opened) := openVolume fw fs.2 found
    if efiError root.1 then none else some (root.2, opened)

def Visit.config (visit : Visit) : Option WbootConfig :=
  (visit.volume fw).bind fun (root, opened) => (wbootLoadConfig fw root opened).1

/-- If the handle has a device path, the path has a text. -/
def Visit.named (visit : Visit) : Prop :=
  let (path, found) := handleProtocol fw visit.handle .devicePath visit.before
  efiError path.1 = false → (convertDevicePathToText fw path.2 found).1 ≠ 0

/-- If the volume opens, the pool has a block for each `%-s` of the load's messages. -/
def Visit.buffered (visit : Visit) : Prop :=
  ∀ root opened, visit.volume fw = some (root, opened) → ∀ messages,
    Course fw messages opened (wbootLoadConfig fw root opened).2 → ∀ message ∈ messages, message.served fw

/-- What a load stores through NULL, it reads from there. -/
theorem load_logs_iff (root : Nat) (opened : World) :
    Logs (· ≠ .stringRead 0) opened (wbootLoadConfig fw root opened).2 ↔
      ∀ messages, Course fw messages opened (wbootLoadConfig fw root opened).2 →
        ∀ message ∈ messages, message.served fw := by
  have paired := ((@paired_loads fw).wbootLoadConfig root opened).paired
  obtain ⟨messages, course⟩ := (@leads_loads fw).wbootLoadConfig root opened
  constructor
  · intro quiet others other
    refine other.logs_iff.mp ?_
    obtain ⟨log, grown, stores⟩ := paired.mp quiet
    refine ⟨log, grown, fun access member => ⟨stores access member, ?_⟩⟩
    exact (Effects.logs_iff grown).mp quiet access member
  · intro served
    have harmless := course.logs_iff.mpr (served messages course)
    exact harmless.mono fun _ safe null => safe.2 null

variable {world : World}

theorem printString_logs_iff {allowed : Access → Prop} {before after : List UInt16}
    (first : ∀ c ∈ before, c ≠ percent) (second : ∀ c ∈ after, c ≠ percent) (pointer : Nat) :
    Logs allowed world (printf fw (before ++ percent :: letterS :: after) [.widePointer pointer] world).2 ↔
      allowed (.stringRead pointer) := by
  have text (characters : List UInt16) (world : World) :
      (runPieces (printfNarrow fw) (characters.map fun c => .verbatim [c]) world).2.accesses = world.accesses := by
    induction characters generalizing world with
    | nil => rfl
    | cons c rest ih => exact ih _
  have read : (printf fw (before ++ percent :: letterS :: after) [.widePointer pointer] world).2.accesses =
      [.stringRead pointer] ++ world.accesses := by
    have scanned : (printfScan (printfNarrow fw) (before ++ percent :: letterS :: after) [.widePointer pointer]
        world).2.accesses = [.stringRead pointer] ++ world.accesses := by
      rw [printfScan_pieces, pieces_string first second, runPieces_append, runPieces, bind_apply, text]
      exact congrArg (List.cons _) (text before world)
    exact scanned
  rw [logs_iff read, List.forall_mem_singleton]

/-- None of the search's own messages has a `%-s` in it. -/
structure SearchMessages : Prop where
  nameless : (pieces (wide "[locate_config] device path: unknown error\r\n") []).any narrows = false
  unable : (pieces (wide "error locating DEVICE_PATH_TO_TEXT_PROTOCOL: %u\r\n") []).any narrows = false
  nowhere : (pieces (wide "[locate_config] could not find config file on any device\r\n") []).any narrows = false

theorem searchMessages : SearchMessages where
  nameless := by decide +kernel
  unable := by decide +kernel
  nowhere := by decide +kernel

/-- The pointer that was returned is printed and freed, NULL or not. -/
theorem printText_logs_iff {allowed : Access → Prop} (pointer : Nat) :
    Logs allowed world ((do
      printf fw (wide "[locate_config] device path: %s\r\n") [.widePointer pointer]
      let _ ← freePool fw pointer
      return () : Boot Unit) world).2 ↔ allowed (.stringRead pointer) := by
  have line : wide "[locate_config] device path: %s\r\n" =
      wide "[locate_config] device path: " ++ percent :: letterS :: wide "\r\n" := by decide +kernel
  have printed (allowed : Access → Prop) := @printString_logs_iff fw world allowed
    (wide "[locate_config] device path: ") (wide "\r\n") (by decide +kernel) (by decide +kernel) pointer
  rw [← line] at printed
  have frees (told : World) : Logs allowed told (freePool fw pointer told).2 := service_logs _ _ told
  exact (Logs.before_iff ((printed fun _ => True).mpr trivial) (frees _)).trans (printed allowed)

theorem printDevicePath_logs_iff (visit : Visit) :
    Logs (· ≠ .stringRead 0) visit.before (printDevicePath fw visit.handle visit.before).2 ↔ visit.named fw := by
  obtain ⟨path, found, finds⟩ : ∃ path found,
      handleProtocol fw visit.handle .devicePath visit.before = (path, found) := ⟨_, _, rfl⟩
  have finding : Logs (· ≠ .stringRead 0) visit.before found :=
    Relates.run (service_logs _ _ : Relates (Logs _) (handleProtocol fw visit.handle .devicePath)) finds
  unfold printDevicePath Visit.named
  rw [bind_apply, finds]
  dsimp only
  cases failed : efiError path.1 with
  | true =>
      simp only [not_true_eq_false, ↓reduceIte, Bool.true_eq_false, false_implies, iff_true]
      exact IsTrans.trans _ _ _ finding (perror_logs _ _ found)
  | false =>
      obtain ⟨pointer, converted, converts⟩ : ∃ pointer converted,
          convertDevicePathToText fw path.2 found = (pointer, converted) := ⟨_, _, rfl⟩
      have converting : Logs (· ≠ .stringRead 0) found converted :=
        Relates.run ((service_logs _ _).bind fun _ => .ite (fun _ => (deliver_logs _ _).bind fun _ => .pure _)
          fun _ => .pure _) converts
      have told (warned : World) (warning : Logs (· ≠ .stringRead 0) converted warned) :=
        (Logs.after_iff (IsTrans.trans _ _ _ finding (IsTrans.trans _ _ _ converting warning))
          ((printText_logs_iff fw pointer).mpr trivial : Logs (fun _ => True) warned _)).trans
          (printText_logs_iff fw pointer)
      -- a path without a text is printed all the same
      simp only [Bool.false_eq_true, not_false_eq_true, ↓reduceIte, bind_apply, converts, forall_const, branch_apply]
      by_cases null : pointer = 0
      · rw [if_pos null]
        refine (told _ (printf_logs _ _ searchMessages.nameless (by simp) converted)).trans ?_
        simp [null]
      · rw [if_neg null]
        refine (told _ (Std.Refl.refl converted)).trans ?_
        simp [null]

/-- A volume that does not open is skipped; one that does has the result of its load. -/
theorem tryHandle_volume (visit : Visit) :
    (tryHandle fw visit.handle visit.before).1 = visit.config fw ∧
      (Logs (· ≠ .stringRead 0) (printDevicePath fw visit.handle visit.before).2
        (tryHandle fw visit.handle visit.before).2 ↔ visit.buffered fw) := by
  unfold tryHandle Visit.config Visit.buffered Visit.volume
  obtain ⟨printed, prints⟩ : ∃ printed, (printDevicePath fw visit.handle visit.before).2 = printed := ⟨_, rfl⟩
  obtain ⟨fs, found, finds⟩ : ∃ fs found, handleProtocol fw visit.handle .simpleFileSystem printed = (fs, found) :=
    ⟨_, _, rfl⟩
  have finding : Logs (· ≠ .stringRead 0) printed found :=
    Relates.run (service_logs _ _ : Relates (Logs _) (handleProtocol fw visit.handle .simpleFileSystem)) finds
  simp only [bind_apply, branch_apply, prints, finds, pure_apply]
  by_cases missing : efiError fs.1 = true
  · simp only [missing, ↓reduceIte, Option.bind_none, reduceCtorEq, false_implies, implies_true, iff_true, true_and]
    exact IsTrans.trans _ _ _ finding (perror_logs _ _ found)
  obtain ⟨root, opened, opens⟩ : ∃ root opened, openVolume fw fs.2 found = (root, opened) := ⟨_, _, rfl⟩
  have opening : Logs (· ≠ .stringRead 0) printed opened :=
    IsTrans.trans _ _ _ finding
      (Relates.run (service_logs _ _ : Relates (Logs _) (openVolume fw fs.2)) opens)
  simp only [missing, Bool.false_eq_true, ↓reduceIte, opens]
  by_cases closed : efiError root.1 = true
  · simp only [closed, ↓reduceIte, Option.bind_none, reduceCtorEq, false_implies, implies_true, iff_true, true_and]
    exact IsTrans.trans _ _ _ opening (perror_logs _ _ opened)
  · have loads := (@paired_loads fw).wbootLoadConfig root.2 opened
    simp only [closed, Bool.false_eq_true, ↓reduceIte, Option.bind_some, Option.some.injEq, Prod.mk.injEq, and_imp,
      true_and]
    refine ((Logs.after_iff opening loads.grown).trans (load_logs_iff fw root.2 opened)).trans ?_
    exact ⟨fun quiet _ _ here there => here ▸ there ▸ quiet, fun quiet => quiet _ _ rfl rfl⟩

theorem printDevicePath_grown (handle : Nat) : Relates (Logs fun _ => True) (printDevicePath fw handle) := by
  have library : Absorbs fw (Logs fun _ => True) := logs_absorbs fw (fun _ => trivial) fun _ => trivial
  have ending (text : Nat) : Relates (Logs fun _ => True) (do
      printf fw (wide "[locate_config] device path: %s\r\n") [.widePointer text]
      let _ ← freePool fw text
      return () : Boot Unit) :=
    (library.printf _ _).bind fun _ => (service_logs _ _).bind fun _ => .pure _
  refine (service_logs _ _).bind fun path => .ite (fun _ => ?_) fun _ => library.perror _ _
  refine Relates.bind ?_ fun text => .ite (fun _ => ?_) fun _ => ending text
  · exact (service_logs _ _).bind fun _ => .ite (fun _ => (deliver_logs _ _).bind fun _ => .pure _) fun _ => .pure _
  · exact (library.printf _ _).bind fun _ => ending text

theorem tryHandle_grown (visit : Visit) :
    Logs (fun _ => True) (printDevicePath fw visit.handle visit.before).2 (tryHandle fw visit.handle visit.before).2 := by
  have reports (message : List UInt16) (status : EfiStatus) : Relates (Logs fun _ => True) (do
      perror fw message status
      return none : Boot (Option WbootConfig)) :=
    (perror_logs _ _).bind fun _ => .pure none
  have loads (root : Nat) : Relates (Logs fun _ => True) (wbootLoadConfig fw root) :=
    (paired_loads.wbootLoadConfig root).mono fun _ _ load => load.grown
  unfold tryHandle
  rw [bind_apply]
  generalize (printDevicePath fw visit.handle visit.before).2 = printed
  revert printed
  change Relates (Logs fun _ => True) _
  refine (service_logs _ _).bind fun fs => .ite (fun _ => reports _ _) fun _ => ?_
  exact (service_logs _ _).bind fun root => .ite (fun _ => reports _ _) fun _ => loads _

theorem tryHandle_logs_iff (visit : Visit) :
    Logs (· ≠ .stringRead 0) visit.before (tryHandle fw visit.handle visit.before).2 ↔
      visit.named fw ∧ visit.buffered fw :=
  (Logs.split (printDevicePath_grown fw _ _) (tryHandle_grown fw visit)).trans
    (and_congr (printDevicePath_logs_iff fw visit) (tryHandle_volume fw visit).2)

end Volumes

/-! ### All volumes -/

section Search
variable (fw : Firmware)

/-- Each handle in the world that the ones before it leave, also behind the one at
which the search stops. -/
def visits : List Nat → World → List Visit
  | [], _ => []
  | handle :: rest, world => ⟨handle, world⟩ :: visits rest (tryHandle fw handle world).2

/-- For each visit up to the first that has a configuration. -/
def AllReached (holds : Visit → Prop) : List Visit → Prop
  | [] => True
  | visit :: rest => holds visit ∧ (visit.config fw = none → AllReached holds rest)

/-- The list that `LocateHandle` returns, and the world after that call. -/
def listed (world : World) : (EfiStatus × List Nat) × World :=
  locateHandle fw .simpleFileSystem (getDevicePathToText fw world).2

def searched (world : World) : List Visit := visits fw (listed fw world).1.2 (listed fw world).2

/-- The status, and what `*config` becomes. -/
def locateOutcome : Option WbootConfig → EfiStatus × Option WbootConfig
  | some config => (efiSuccess, some config)
  | none => (efiNotFound, none)

theorem tryHandles_first (handles : List Nat) (world : World) :
    (tryHandles fw handles world).1 = (visits fw handles world).findSome? (Visit.config fw) := by
  induction handles generalizing world with
  | nil => rfl
  | cons handle rest ih =>
      have first := (tryHandle_volume fw ⟨handle, world⟩).1
      rw [visits, List.findSome?_cons, ← first, tryHandles, bind_apply]
      cases (tryHandle fw handle world).1 with
      | none => exact ih _
      | some config => rfl

theorem tryHandles_grown (handles : List Nat) : Relates (Logs fun _ => True) (tryHandles fw handles) := by
  induction handles with
  | nil => exact .pure none
  | cons handle rest ih =>
      have first : Relates (Logs fun _ => True) (tryHandle fw handle) := fun world =>
        IsTrans.trans _ _ _ (printDevicePath_grown fw handle world) (tryHandle_grown fw ⟨handle, world⟩)
      refine first.bind fun config => ?_
      cases config with
      | none => exact ih
      | some config => exact .pure _

theorem tryHandles_logs_iff (handles : List Nat) (world : World) :
    Logs (· ≠ .stringRead 0) world (tryHandles fw handles world).2 ↔
      AllReached fw (fun visit => visit.named fw ∧ visit.buffered fw) (visits fw handles world) := by
  induction handles generalizing world with
  | nil => exact iff_of_true (Std.Refl.refl world) trivial
  | cons handle rest ih =>
      have here := tryHandle_logs_iff fw ⟨handle, world⟩
      have first := (tryHandle_volume fw ⟨handle, world⟩).1
      rw [visits, AllReached, ← here, ← first, tryHandles, bind_apply]
      cases (tryHandle fw handle world).1 with
      | some config => simp
      | none =>
          have grown := IsTrans.trans _ _ _ (printDevicePath_grown fw handle world) (tryHandle_grown fw ⟨handle, world⟩)
          simp only [forall_const]
          exact (Logs.split grown (tryHandles_grown fw rest _)).trans (and_congr_right fun _ => ih _)

theorem getDevicePathToText_logs : Relates (Logs (· ≠ .stringRead 0)) (getDevicePathToText fw) := by
  have told (status : EfiStatus) : Relates (Logs (· ≠ .stringRead 0))
      (printf fw (wide "error locating DEVICE_PATH_TO_TEXT_PROTOCOL: %u\r\n") [.num status]) :=
    printf_logs _ _ searchMessages.unable (by simp)
  refine (service_logs _ _).bind fun status => .ite (fun _ => ?_) fun _ => .pure _
  exact (told status).bind fun _ => .pure _

theorem wbootLocateConfig_run {world : World} (located : efiError (getDevicePathToText fw world).1 = false)
    (listing : efiError (listed fw world).1.1 = false) :
    (wbootLocateConfig fw world).1 = locateOutcome ((searched fw world).findSome? (Visit.config fw)) ∧
      (Logs (· ≠ .stringRead 0) world (wbootLocateConfig fw world).2 ↔
        AllReached fw (fun visit => visit.named fw ∧ visit.buffered fw) (searched fw world)) := by
  have notFound : Relates (Logs (· ≠ .stringRead 0))
      (printf fw (wide "[locate_config] could not find config file on any device\r\n") []) :=
    printf_logs _ _ searchMessages.nowhere (by simp)
  have found := tryHandles_first fw (listed fw world).1.2 (listed fw world).2
  have quiet := tryHandles_logs_iff fw (listed fw world).1.2 (listed fw world).2
  have grown := tryHandles_grown fw (listed fw world).1.2 (listed fw world).2
  unfold searched
  rw [← quiet, ← found]
  unfold listed at *
  obtain ⟨status, asked, asks⟩ : ∃ status asked, getDevicePathToText fw world = (status, asked) := ⟨_, _, rfl⟩
  obtain ⟨reply, answered, answers⟩ : ∃ reply answered, locateHandle fw .simpleFileSystem asked = (reply, answered) :=
    ⟨_, _, rfl⟩
  have asking : Logs (· ≠ .stringRead 0) world answered :=
    IsTrans.trans _ _ _ ((getDevicePathToText_logs fw).run asks)
    (Relates.run (service_logs _ _ : Relates (Logs _) (locateHandle fw .simpleFileSystem)) answers)
  rw [asks] at located
  rw [asks, answers] at listing grown
  dsimp only at located listing grown
  simp only [wbootLocateConfig, bind_apply, asks, answers, located, listing, Bool.false_eq_true, ↓reduceIte]
  have searching := Logs.after_iff asking grown
  cases (tryHandles fw reply.2 answered).1 with
  | some config => exact ⟨rfl, searching⟩
  | none => exact ⟨rfl, (Logs.before_iff (IsTrans.trans _ _ _ asking.any grown) (notFound _)).trans searching⟩

/-- The first configuration is found, and NULL is not read on the way, exactly if every
path that is printed has a text and every `%-s` its buffer. -/
theorem volumes_searched_iff (fw : Firmware) (world : World)
    (located : efiError (getDevicePathToText fw world).1 = false)
    (listing : efiError (listed fw world).1.1 = false) :
    ((wbootLocateConfig fw world).1 = locateOutcome ((searched fw world).findSome? (Visit.config fw)) ∧
      Logs (· ≠ .stringRead 0) world (wbootLocateConfig fw world).2) ↔
    AllReached fw (fun visit => visit.named fw ∧ visit.buffered fw) (searched fw world) := by
  obtain ⟨outcome, quiet⟩ := wbootLocateConfig_run fw located listing
  exact (and_iff_right outcome).trans quiet

/-! Two volumes, of which the second opens; and one whose path has no text. -/

def twoVolumes : Firmware := { diskFirmware with
  locateHandle := fun _ _ => (efiSuccess, [1, 2])
  handleProtocol := fun _ handle _ => (efiSuccess, handle)
  convertDevicePathToText := fun _ _ => (0x800000, wide "disk")
  openVolume := fun _ fs => if fs = 1 then (efiNotFound, 0) else (efiSuccess, 1) }

theorem clean_buffered {root : Nat} {opened : World}
    (clean : ∀ access ∈ (wbootLoadConfig fw root opened).2.accesses, access ≠ .stringRead 0) :
    ∀ messages, Course fw messages opened (wbootLoadConfig fw root opened).2 →
      ∀ message ∈ messages, message.served fw := by
  obtain ⟨log, grown, -⟩ := ((@paired_loads fw).wbootLoadConfig root opened).grown
  refine (load_logs_iff fw root opened).mp ⟨log, grown, fun access member => ?_⟩
  exact clean access (grown ▸ List.mem_append_left _ member)

/-- Where the search is when the second volume has been opened. -/
def secondRoot (before : World) : World := (openVolume twoVolumes 2 (handleProtocol twoVolumes 2 .simpleFileSystem
  (printDevicePath twoVolumes 2 before).2).2).2

theorem first_volume (before : World) : Visit.volume twoVolumes ⟨1, before⟩ = none := by
  have refused : efiError efiNotFound = true := by decide
  simp only [Visit.volume, handleProtocol, openVolume, service_apply, twoVolumes, refused, ↓reduceIte, ite_self]

theorem second_volume (before : World) : Visit.volume twoVolumes ⟨2, before⟩ = some (1, secondRoot before) := by
  have success : efiError efiSuccess = false := by decide
  have other : ¬ 2 = 1 := by decide
  simp only [Visit.volume, secondRoot, handleProtocol, openVolume, service_apply, twoVolumes, success, other,
    Bool.false_eq_true, ↓reduceIte]

theorem second_volume_found :
    (wbootLocateConfig twoVolumes bootWorld).1.2.isSome = true ∧
      (wbootLocateConfig twoVolumes bootWorld).1 =
        locateOutcome ((searched twoVolumes bootWorld).findSome? (Visit.config twoVolumes)) ∧
      Logs (· ≠ .stringRead 0) bootWorld (wbootLocateConfig twoVolumes bootWorld).2 := by
  have located : efiError (getDevicePathToText twoVolumes bootWorld).1 = false := by decide +kernel
  have listing : efiError (listed twoVolumes bootWorld).1.1 = false := by decide +kernel
  have named (visit : Visit) : visit.named twoVolumes := fun _ => (by decide : (0x800000 : Nat) ≠ 0)
  have first (before : World) : Visit.buffered twoVolumes ⟨1, before⟩ := by
    intro root opened volume
    rw [first_volume] at volume
    cases volume
  have second : Visit.buffered twoVolumes ⟨2, (tryHandle twoVolumes 1 (listed twoVolumes bootWorld).2).2⟩ := by
    intro root opened volume
    rw [second_volume, Option.some.injEq, Prod.mk.injEq] at volume
    obtain ⟨rfl, rfl⟩ := volume
    exact clean_buffered twoVolumes (by decide +kernel)
  refine ⟨by decide +kernel, (volumes_searched_iff twoVolumes bootWorld located listing).mpr ?_⟩
  exact ⟨⟨named _, first _⟩, fun _ => ⟨⟨named _, second⟩, fun _ => trivial⟩⟩

def EverySearchQuiet : Prop :=
  ∀ (fw : Firmware) (world : World), efiError (getDevicePathToText fw world).1 = false →
    efiError (listed fw world).1.1 = false →
    (wbootLocateConfig fw world).1 = locateOutcome ((searched fw world).findSome? (Visit.config fw)) ∧
      Logs (· ≠ .stringRead 0) world (wbootLocateConfig fw world).2

def mutePath : Firmware := { idleFirmware with
  locateHandle := fun _ _ => (efiSuccess, [1])
  openVolume := fun _ _ => (efiNotFound, 0) }

theorem mute_path_read : ¬ EverySearchQuiet := by
  intro every
  have located : efiError (getDevicePathToText mutePath bootWorld).1 = false := by decide +kernel
  have listing : efiError (listed mutePath bootWorld).1.1 = false := by decide +kernel
  have reached := (wbootLocateConfig_run mutePath located listing).2.mp (every mutePath bootWorld located listing).2
  exact reached.1.1 (by decide +kernel) rfl

end Search

end Wboot.ConfigSearch
