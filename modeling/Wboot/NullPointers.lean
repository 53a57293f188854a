import Wboot.PrintfBounds
import Wboot.PrintfRendering

/-! What wstdlib does when its own allocations fail. malloc reports a refusal to its
caller, and calloc and strdup8 pass it on; printf has no one to report to, and writes
the string of `%-s` through the NULL it was given. Where it does get its buffer, it says
what it was asked to say as far as `PrintfRendering` and `PrintfBounds` allow. -/

namespace Wboot.NullPointers
open StateProgram ByteMemory CString Machine Wstdlib PrintfPieces Effects ExitBootServices PrintfOutput PrintfBounds
open PrintfElements PrintfRendering

/-- What a caller can pass: 64 bits, or a text up to its NUL. -/
def passable : Arg → Prop
  | .num value => value < 2 ^ 64
  | .widePointer pointer | .narrowPointer pointer => pointer < addressSpace
  | .wideText text => ∀ c ∈ text, c ≠ 0
  | .narrowText text => ∀ c ∈ text, c ≠ 0

/-- A call of wstdlib, or whatever else the loader does to memory and to the firmware
between two calls. -/
inductive Call where
  | malloc (size : Nat)
  | free (ptr : Nat)
  | calloc (nmemb size : Nat)
  | strdup8 (src : Nat)
  | printf (format : List UInt16) (args : List Arg) (passed : ∀ arg ∈ args, passable arg)
  | perror (message : List UInt16) (status : EfiStatus)
  | bsExited
  | elsewhere (memory : Memory) (events : List Event)

section Sequences
variable (fw : Firmware)

/-- The pointer that is returned, or 0 if there is none. -/
def Call.run : Call → Boot Nat
  | .malloc size => Wstdlib.malloc fw size
  | .free ptr => do
      Wstdlib.free fw ptr
      return 0
  | .calloc nmemb size => Wstdlib.calloc fw nmemb size
  | .strdup8 src => Wstdlib.strdup8 fw src
  | .printf format args _ => do
      Wstdlib.printf fw format args
      return 0
  | .perror message status => do
      Wstdlib.perror fw message status
      return 0
  | .bsExited => do
      wstdlibBsExited
      return 0
  | .elsewhere memory events => fun world =>
      (0, { world with mem := memory, history := events ++ world.history })

/-- The caller itself passes a NULL string. -/
def Call.passesNull : Call → Prop
  | .printf _ args _ => .widePointer 0 ∈ args ∨ .narrowPointer 0 ∈ args
  | _ => False

/-- No store through NULL, and no string read through it but one that the caller passed. -/
def harmless (given : Prop) (access : Access) : Prop :=
  access ≠ .heapStore 0 ∧ (access = .stringRead 0 → given)

/-- The text has been sent, to its last character. -/
structure Completes (text : List UInt16) (before after : World) : Prop where
  sent : widened after.console.serial.reverse = widened (output before.console) ++ text
  emptied : after.console.pos = 0

/-- What the documentation makes of a format, each string as it stands when printf comes to it. -/
def documented (format : List UInt16) (args : List Arg) (world : World) : List UInt16 :=
  (turns fw (elements format args) world).flatMap Turn.text

/-- A call says all that it has to say; a NULL that it returns comes with an error in
errno, and anything else that it returns is filled. -/
def Call.finished (before after : World) (result : Nat) : Call → Prop
  | .malloc _ => result = 0 → efiError after.errno = true
  | .calloc nmemb size => (result = 0 → efiError after.errno = true) ∧
      (result ≠ 0 → ∀ i < u64 (nmemb * size), after.mem (result + i) = 0)
  | .strdup8 src => (result = 0 → efiError after.errno = true) ∧
      (result ≠ 0 → after.mem = storeBytes before.mem result (cstring before.mem src ++ [0]))
  | .printf format args _ => Completes (documented fw format args before) before after
  | .perror message status => Completes (message ++ wide ": " ++ strerror status ++ wide "\r\n") before after
  | .free _ =>
      if before.bsExited = true then
        Completes (wide "    [wstdlib] BUG: free called after exiting boot services\r\n") before after
      else after.console = before.console
  | .bsExited | .elsewhere _ _ => True

/-- The buffer has been kept to, and no format has been read behind its end. -/
structure Intact (console : Console) : Prop where
  bounded : Bounded console
  within : console.overran = false

structure Call.Safe (call : Call) (before : World) : Prop where
  accesses : Logs (harmless call.passesNull) before (call.run fw before).2
  finished : call.finished fw before (call.run fw before).2 (call.run fw before).1
  intact : Intact (call.run fw before).2.console

def AllSafe : List Call → World → Prop
  | [], _ => True
  | call :: rest, world => call.Safe fw world ∧ AllSafe rest (call.run fw world).2

/-- Boot services are there, and the pool answers with a block. -/
structure HasBlock (world : World) (size : Nat) : Prop where
  early : world.bsExited = false
  granted : efiError (fw.allocatePool world.history size).1 = false
  present : (fw.allocatePool world.history size).2 ≠ 0

/-- The temporary buffer of `%-s` can be had when the scan comes to it. -/
def narrowServed : Piece → World → Prop
  | .narrow arg, world => HasBlock fw world (u64 (((readNarrow world.mem arg).length + 1) * 2))
  | _, _ => True

def piecesServed : List Piece → World → Prop
  | [], _ => True
  | piece :: rest, world =>
      narrowServed fw piece world ∧ piecesServed rest (runPiece (printfNarrow fw) piece world).2

/-- printf gets its buffers, and has nothing to print that it drops, that the line does not
carry, or that is longer than the buffer. -/
structure PrintfServed (format : List UInt16) (args : List Arg) (world : World) : Prop where
  buffers : piecesServed fw (pieces format args) world
  sound : ∀ turn ∈ turns fw (elements format args) world, turn.Sound
  fits : ∀ text ∈ stringsPrinted fw (pieces format args) world, Fits text

def Call.served : Call → World → Prop
  | .printf format args _, world => PrintfServed fw format args world
  | .perror message _, _ => Carried message ∧ Fits message
  | _, _ => True

def AllServed : List Call → World → Prop
  | [], _ => True
  | call :: rest, world => call.served fw world ∧ AllServed rest (call.run fw world).2

end Sequences

/-! ### The buffer and the format -/

def Holds (before after : World) : Prop := Intact before.console → Intact after.console

instance : IsPreorder World Holds where
  refl := fun _ intact => intact
  trans := fun _ _ _ left right intact => right (left intact)

theorem unbroken_holds {before after : World} (part : Unbroken before after)
    (same : after.console.overran = before.console.overran) : Holds before after :=
  fun intact => ⟨part.kept intact.bounded trivial, same.trans intact.within⟩

theorem bug_holds {format : List UInt16} (text : onlyText format = true) : Relates Holds (bug format) :=
  bug_relates
    (fun text world => unbroken_holds (writeChars_bounded world.console text) (overran_writeChars world.console text))
    (fun world => unbroken_holds (flush_bounded world.console) rfl) text

section Held
variable (fw : Firmware)

theorem malloc_holds (size : Nat) : Relates Holds (malloc fw size) :=
  malloc_relates fw (fun _ text => bug_holds text) (fun _ _ intact => intact) (fun _ _ intact => intact) size

theorem free_holds (ptr : Nat) : Relates Holds (free fw ptr) :=
  free_relates fw (fun _ text => bug_holds text) (fun _ _ intact => intact) (fun _ _ intact => intact) ptr

end Held

/-! ### malloc and free -/

section Pool
variable {fw : Firmware} {allowed : Access → Prop}

/-- The message of a late call reads no string. -/
theorem bug_logs {format : List UInt16} (text : onlyText format = true) : Relates (Logs allowed) (bug format) :=
  bug_relates (fun _ _ => ⟨[], rfl, by simp⟩) (fun _ => ⟨[], rfl, by simp⟩) text

theorem malloc_logs (size : Nat) : Relates (Logs allowed) (malloc fw size) :=
  malloc_relates fw (fun _ text => bug_logs text) (fun _ _ => ⟨[], rfl, by simp⟩) (fun _ => service_logs _ _) size

theorem free_logs (ptr : Nat) : Relates (Logs allowed) (free fw ptr) :=
  free_relates fw (fun _ text => bug_logs text) (fun _ _ => ⟨[], rfl, by simp⟩) (fun _ => service_logs _ _) ptr

theorem malloc_late (size : Nat) (world : World) (late : world.bsExited = true) :
    (malloc fw size world).1 = 0 ∧ (malloc fw size world).2.errno = efiOutOfResources := by
  unfold malloc
  simp only [bind_apply, readState_apply, late, ↓reduceIte]
  exact ⟨rfl, rfl⟩

/-- NULL is what malloc returns when there is no block. -/
theorem malloc_block_iff (size : Nat) (world : World) : (malloc fw size world).1 ≠ 0 ↔ HasBlock fw world size := by
  cases early : world.bsExited with
  | true =>
      rw [(@malloc_late fw size world early).1]
      exact ⟨fun absent => absurd rfl absent, fun block => Bool.noConfusion (early.symm.trans block.early)⟩
  | false =>
      rw [malloc_apply fw size world early]
      split
      · rename_i refused
        exact ⟨fun absent => absurd rfl absent, fun block => Bool.noConfusion (refused.symm.trans block.granted)⟩
      · rename_i granted
        exact ⟨fun present => ⟨early, by simpa using granted, present⟩, fun block => block.present⟩

/-- And it leaves an error behind. -/
theorem malloc_null (sound : AllocatorSound fw) {size : Nat} {world : World} (null : (malloc fw size world).1 = 0) :
    efiError (malloc fw size world).2.errno = true := by
  have outOfResources : efiError efiOutOfResources = true := by decide
  cases early : world.bsExited with
  | true => rwa [(@malloc_late fw size world early).2]
  | false =>
      rw [malloc_apply fw size world early] at null ⊢
      split at null
      · rename_i refused
        rwa [if_pos refused]
      · rename_i granted
        exact absurd null ((sound.pool world.history size (by simpa using granted)).nonnull rfl)

def SameMemory (before after : World) : Prop := after.mem = before.mem

theorem malloc_mem (size : Nat) : Relates SameMemory (malloc fw size) :=
  malloc_relates fw (fun _ text => (bug_prints text).mono fun _ _ prints => prints.mem) (fun _ _ => rfl)
    (fun _ _ => rfl) size

/-- A world in which a block has been filled. -/
def filled (world : World) (ptr : Nat) (memory : Memory) : World :=
  { world with mem := memory, accesses := .heapStore ptr :: world.accesses }

theorem filled_logs {given : Prop} {before middle : World} {ptr : Nat} {memory : Memory} (present : ptr ≠ 0)
    (logs : Logs (harmless given) before middle) : Logs (harmless given) before (filled middle ptr memory) := by
  obtain ⟨log, grown, kind⟩ := logs
  refine ⟨.heapStore ptr :: log, congrArg (List.cons (Access.heapStore ptr)) grown,
    List.forall_mem_cons.mpr ⟨⟨?_, nofun⟩, kind⟩⟩
  rintro ⟨⟩
  exact present rfl

section Filling
variable {world middle : World} {ptr : Nat}

theorem calloc_run {nmemb size : Nat} (allocation : malloc fw (u64 (nmemb * size)) world = (ptr, middle)) :
    calloc fw nmemb size world = (ptr, if ptr = 0 then middle else
      filled middle ptr (setLoop middle.mem ptr 0 (u64 (nmemb * size)))) := by
  unfold calloc
  simp only [bind_apply, allocation, branch_apply, pure_apply, inRam_apply]
  by_cases null : ptr = 0 <;> simp [null, filled, recordAccess]

theorem strdup8_run {src : Nat}
    (allocation : malloc fw (u64 ((cstring world.mem src).length + 1)) world = (ptr, middle)) :
    strdup8 fw src world = (ptr, if ptr = 0 then middle else
      filled middle ptr (storeBytes middle.mem ptr (cstring world.mem src ++ [0]))) := by
  unfold strdup8
  simp only [bind_apply, readState_apply, allocation, branch_apply, pure_apply, heapStore, inRam_apply]
  by_cases null : ptr = 0 <;> simp [null, filled, recordAccess, deliver]

end Filling

theorem malloc_safe (sound : AllocatorSound fw) (size : Nat) {world : World} (intact : Intact world.console) :
    (Call.malloc size).Safe fw world :=
  ⟨malloc_logs size world, malloc_null sound, malloc_holds fw size world intact⟩

theorem calloc_safe (sound : AllocatorSound fw) (nmemb size : Nat) {world : World} (intact : Intact world.console) :
    (Call.calloc nmemb size).Safe fw world := by
  obtain ⟨ptr, middle, allocation⟩ : ∃ ptr middle, malloc fw (u64 (nmemb * size)) world = (ptr, middle) := ⟨_, _, rfl⟩
  have reports := @malloc_null fw sound (u64 (nmemb * size)) world
  have logs : Logs (harmless (Call.calloc nmemb size).passesNull) world middle := (malloc_logs _).run allocation
  have kept : Intact middle.console := (malloc_holds fw _).run allocation intact
  rw [allocation] at reports
  have run : (Call.calloc nmemb size).run fw world = _ := calloc_run allocation
  by_cases null : ptr = 0
  · rw [if_pos null] at run
    constructor <;> rw [run]
    · exact logs
    · exact ⟨reports, fun present => absurd null present⟩
    · exact kept
  · rw [if_neg null] at run
    constructor <;> rw [run]
    · exact filled_logs null logs
    · refine ⟨fun absent => absurd absent null, fun _ i bound => ?_⟩
      exact (setLoop_apply _ _ _ _ _).trans (if_pos ⟨by omega, by omega⟩)
    · exact kept

theorem strdup8_safe (sound : AllocatorSound fw) (src : Nat) {world : World} (intact : Intact world.console) :
    (Call.strdup8 src).Safe fw world := by
  obtain ⟨ptr, middle, allocation⟩ : ∃ ptr middle,
      malloc fw (u64 ((cstring world.mem src).length + 1)) world = (ptr, middle) := ⟨_, _, rfl⟩
  have reports := @malloc_null fw sound (u64 ((cstring world.mem src).length + 1)) world
  have logs : Logs (harmless (Call.strdup8 src).passesNull) world middle := (malloc_logs _).run allocation
  have kept : Intact middle.console := (malloc_holds fw _).run allocation intact
  have same : middle.mem = world.mem := (malloc_mem _).run allocation
  rw [allocation] at reports
  have run : (Call.strdup8 src).run fw world = _ := strdup8_run allocation
  by_cases null : ptr = 0
  · rw [if_pos null] at run
    constructor <;> rw [run]
    · exact logs
    · exact ⟨reports, fun present => absurd null present⟩
    · exact kept
  · rw [if_neg null] at run
    constructor <;> rw [run]
    · exact filled_logs null logs
    · exact ⟨fun absent => absurd absent null, fun _ => same ▸ rfl⟩
    · exact kept

end Pool

/-! ### Printing -/

section Printing
variable {fw : Firmware}

/-- The string of an argument is the only one read. -/
theorem recordRead_logs {allowed : Access → Prop} (arg : Arg)
    (reads : ∀ pointer, arg = .widePointer pointer ∨ arg = .narrowPointer pointer → allowed (.stringRead pointer)) :
    Relates (Logs allowed) (recordRead arg) := by
  intro world
  cases arg with
  | widePointer pointer =>
      exact ⟨[.stringRead pointer], rfl, List.forall_mem_singleton.mpr (reads pointer (Or.inl rfl))⟩
  | narrowPointer pointer =>
      exact ⟨[.stringRead pointer], rfl, List.forall_mem_singleton.mpr (reads pointer (Or.inr rfl))⟩
  | wideText | narrowText | num => exact Std.Refl.refl world

theorem console_logs {allowed : Access → Prop} (update : Console → Console) :
    Relates (Logs allowed) (console update) :=
  fun _ => ⟨[], rfl, by simp⟩

theorem printfWriteArg_logs {allowed : Access → Prop} (arg : Arg)
    (reads : ∀ pointer, arg = .widePointer pointer ∨ arg = .narrowPointer pointer → allowed (.stringRead pointer)) :
    Relates (Logs allowed) (printfWriteArg arg) :=
  (recordRead_logs arg reads).bind fun _ => (Relates.read _).bind fun _ => console_logs _

theorem convert_logs {allowed : Access → Prop} (c : UInt16) (arg : Arg)
    (reads : ∀ pointer, arg = .widePointer pointer ∨ arg = .narrowPointer pointer → allowed (.stringRead pointer)) :
    Relates (Logs allowed) (convert c arg) := by
  unfold convert
  refine .ite (fun _ => printfWriteArg_logs arg reads) fun _ => ?_
  refine .ite (fun _ => console_logs _) fun _ => ?_
  refine .ite (fun _ => console_logs _) fun _ => ?_
  refine .ite (fun _ => console_logs _) fun _ => ?_
  exact .ite (fun _ => console_logs _) fun _ => console_logs _

/-- Only a NULL that was passed is read through. -/
theorem harmless_reads {given : Prop} {arg : Arg} (passed : arg = .widePointer 0 ∨ arg = .narrowPointer 0 → given)
    (pointer : Nat) (points : arg = .widePointer pointer ∨ arg = .narrowPointer pointer) :
    harmless given (.stringRead pointer) := by
  refine ⟨nofun, fun null => ?_⟩
  cases null
  exact passed points

/-- A store through the pointer, whatever it is. -/
theorem heapStore_logs_iff {given : Prop} (ptr : Nat) (bytes : List UInt8) (world : World) :
    Logs (harmless given) world (heapStore ptr bytes world).2 ↔ ptr ≠ 0 := by
  have grown : (heapStore ptr bytes world).2.accesses = [.heapStore ptr] ++ world.accesses := rfl
  rw [logs_iff grown, List.forall_mem_singleton]
  constructor
  · rintro ⟨store, -⟩ rfl
    exact store rfl
  · refine fun present => ⟨?_, nofun⟩
    rintro ⟨⟩
    exact present rfl

/-- The buffer is stored to and read, whether it is there or not. -/
theorem printfNarrow_logs_iff {given : Prop} (arg : Arg)
    (passed : arg = .widePointer 0 ∨ arg = .narrowPointer 0 → given) (world : World) :
    Logs (harmless given) world (printfNarrow fw arg world).2 ↔ narrowServed fw (.narrow arg) world := by
  obtain ⟨outcome, after, run⟩ : ∃ outcome after, printfNarrow fw arg world = (outcome, after) := ⟨_, _, rfl⟩
  rw [run]
  obtain ⟨recorded, buffer, allocated, stored, written, quiet, records, allocation, stores, writes, frees⟩ :=
    printfNarrow_parts run
  have block := @malloc_block_iff fw (u64 (((readNarrow world.mem arg).length + 1) * 2)) recorded
  have served : HasBlock fw recorded (u64 (((readNarrow world.mem arg).length + 1) * 2)) ↔
      narrowServed fw (.narrow arg) world := by
    constructor
    · rintro ⟨early, granted, present⟩
      exact ⟨quiet.bsExited ▸ early, quiet.history ▸ granted, quiet.history ▸ present⟩
    · rintro ⟨early, granted, present⟩
      exact ⟨quiet.bsExited.symm ▸ early, quiet.history.symm ▸ granted, quiet.history.symm ▸ present⟩
  rw [allocation] at block
  rw [← served, ← block]
  have first : Logs (harmless given) world allocated :=
    IsTrans.trans _ _ _ ((recordRead_logs arg (harmless_reads passed)).run records) ((malloc_logs _).run allocation)
  have store := @heapStore_logs_iff given buffer
    (wideBytes (((readNarrow world.mem arg).take 255).map UInt8.toUInt16 ++ [0])) allocated
  rw [stores] at store
  constructor
  · intro all
    have storing : Logs (fun _ => True) allocated stored := by
      cases stores
      exact ⟨[.heapStore buffer], rfl, by simp⟩
    have rest : Logs (fun _ => True) stored after :=
      IsTrans.trans _ _ _ ((printfWriteArg_logs _ fun _ _ => trivial).run writes) ((free_logs buffer).run frees)
    have early := ((Logs.split first.any (IsTrans.trans _ _ _ storing rest)).mp all).2
    exact store.mp ((Logs.split storing rest).mp early).1
  · intro present
    have read : Logs (harmless given) stored written := by
      refine (printfWriteArg_logs (.widePointer buffer) (harmless_reads ?_)).run writes
      rintro (same | same) <;> cases same
      exact absurd rfl present
    exact IsTrans.trans _ _ _ first (IsTrans.trans _ _ _ (store.mpr present)
      (IsTrans.trans _ _ _ read ((free_logs buffer).run frees)))

/-- A conversion that reads through NULL. -/
def passesNull : Piece → Prop
  | .conversion _ arg | .narrow arg => arg = .widePointer 0 ∨ arg = .narrowPointer 0
  | .verbatim _ | .cut => False

theorem passesNull_argument {format : List UInt16} {args : List Arg} {piece : Piece}
    (member : piece ∈ pieces format args) (null : passesNull piece) :
    .widePointer 0 ∈ args ∨ .narrowPointer 0 ∈ args := by
  cases piece with
  | conversion c arg | narrow arg => exact pieces_pointer member rfl null
  | verbatim text => exact absurd null id
  | cut => exact absurd null id

theorem piece_logs_iff {given : Prop} (piece : Piece)
    (passed : passesNull piece → given) (world : World) :
    Logs (harmless given) world (runPiece (printfNarrow fw) piece world).2 ↔ narrowServed fw piece world := by
  cases piece with
  | verbatim text => exact iff_of_true (console_logs _ world) trivial
  | conversion c arg => exact iff_of_true (convert_logs c arg (harmless_reads passed) world) trivial
  | narrow arg => exact printfNarrow_logs_iff arg passed world
  | cut => exact iff_of_true (console_logs _ world) trivial

theorem pieces_logs_iff {given : Prop} (found : List Piece)
    (passed : ∀ piece ∈ found, passesNull piece → given) (world : World) :
    Logs (harmless given) world (runPieces (printfNarrow fw) found world).2 ↔ piecesServed fw found world := by
  have any : Absorbs fw (Logs fun _ => True) := logs_absorbs fw (fun _ => trivial) fun _ => trivial
  induction found generalizing world with
  | nil => exact iff_of_true (Std.Refl.refl world) trivial
  | cons piece rest ih =>
      obtain ⟨here, others⟩ := List.forall_mem_cons.mp passed
      have each := runPiece_relates any.prints any.narrow
      have tail := (@runPieces_relates _ _ _ rest fun piece _ => each piece) (runPiece (printfNarrow fw) piece world).2
      exact (Logs.split (each piece world) tail).trans (and_congr (piece_logs_iff piece here world) (ih others _))

theorem printf_logs_iff (format : List UInt16) (args : List Arg) (world : World) :
    Logs (harmless (.widePointer 0 ∈ args ∨ .narrowPointer 0 ∈ args)) world (printf fw format args world).2 ↔
      piecesServed fw (pieces format args) world := by
  have scanned := @pieces_logs_iff fw _ (pieces format args) (fun _ => passesNull_argument) world
  rw [← printfScan_pieces] at scanned
  exact scanned

def narrows : Piece → Bool
  | .narrow _ => true
  | _ => false

/-- A message without `%-s` reads the strings it is given, and stores nothing. -/
theorem printf_logs {allowed : Access → Prop} (format : List UInt16) (args : List Arg)
    (plain : (pieces format []).any narrows = false)
    (reads : ∀ pointer, .widePointer pointer ∈ args ∨ .narrowPointer pointer ∈ args → allowed (.stringRead pointer)) :
    Relates (Logs allowed) (printf fw format args) := by
  refine Relates.bind ?_ fun _ => console_logs _
  rw [printfScan_pieces]
  refine runPieces_relates fun piece member => ?_
  cases piece with
  | verbatim text => exact console_logs _
  | cut => exact console_logs _
  | narrow arg =>
      have bare : Piece.bare (.narrow arg) ∈ pieces format [] :=
        pieces_bare format args ▸ List.mem_map_of_mem member
      have narrow : (pieces format []).any narrows = true := List.any_eq_true.mpr ⟨_, bare, rfl⟩
      exact Bool.noConfusion (plain.symm.trans narrow)
  | conversion c arg =>
      exact convert_logs c arg fun pointer points => reads pointer (pieces_pointer member rfl points)

theorem perror_logs {allowed : Access → Prop} (message : List UInt16) (status : EfiStatus) :
    Relates (Logs allowed) (perror fw message status) :=
  printf_logs _ _ (by decide +kernel) (by simp)

end Printing

/-! ### Whole messages -/

section Messages
variable {fw : Firmware} {world : World}

/-- What malloc and free print too late is printed whole. -/
theorem bug_completes {text : List UInt16} (ordinary : ∀ c ∈ text, c ≠ percent) (carried : Carried text)
    (world : World) : Completes text world (bug text world).2 := by
  have split := pieces_text ordinary [] []
  rw [List.append_nil] at split
  have scanned : printfScan (fun _ => pure ()) text [] =
      runPieces (fun _ => pure ()) (text.map fun c => .verbatim [c]) := by
    rw [printfScan_pieces, split, show pieces [] [] = [] from rfl, List.append_nil]
  refine ⟨?_, rfl⟩
  have sent : (bug text world).2.console.serial.reverse = output world.console ++ narrowed text := by
    refine (sent_flush _).trans ?_
    rw [scanned]
    exact output_pieces_text _ text world
  rw [sent, widened_append, (widened_narrowed text).mpr carried]

theorem free_safe (ptr : Nat) (intact : Intact world.console) : (Call.free ptr).Safe fw world := by
  refine ⟨free_logs ptr world, ?_, free_holds fw ptr world intact⟩
  change (if world.bsExited = true then _ else _)
  by_cases late : world.bsExited = true
  · rw [if_pos late]
    have run : ((Call.free ptr).run fw world).2 =
        (bug (wide "    [wstdlib] BUG: free called after exiting boot services\r\n") world).2 := by
      change (Wstdlib.free fw ptr world).2 = _
      unfold Wstdlib.free
      simp only [bind_apply, readState_apply, late, ↓reduceIte]
      rfl
    rw [run]
    exact bug_completes (by decide +kernel) (by decide +kernel) world
  · rw [if_neg late]
    exact free_console (Bool.eq_false_iff.mpr late) Prod.mk.eta.symm

theorem passable_given {arg : Arg} (passed : passable arg) :
    arg.value < 2 ^ 64 ∧ ∀ memory, ∀ c ∈ readNarrow memory arg, c ≠ 0 := by
  cases arg with
  | num value => exact ⟨passed, fun _ c member => absurd member List.not_mem_nil⟩
  | narrowText text => exact ⟨Nat.two_pow_pos 64, fun _ => passed⟩
  | narrowPointer pointer => exact ⟨Nat.two_pow_pos 64, fun memory => stringFrom_nonzero memory _ pointer⟩
  | wideText | widePointer => exact ⟨Nat.two_pow_pos 64, fun _ c member => absurd member List.not_mem_nil⟩

theorem element_given {format : List UInt16} {args : List Arg} (passed : ∀ arg ∈ args, passable arg)
    {element : Element} (member : element ∈ elements format args) (memory : Memory) : element.given memory := by
  have inside : element.piece ∈ pieces format args := pieces_elements format args ▸ List.mem_map_of_mem member
  have fine (arg : Arg) (printed : element.piece.argument = some arg) : passable arg := by
    rcases pieces_argument inside printed with given | rfl
    · exact passed arg given
    · exact Nat.two_pow_pos 64
  cases element with
  | conversion c arg => exact (passable_given (fine arg rfl)).1
  | narrow arg => exact (passable_given (fine arg rfl)).2 memory
  | verbatim | modifier | opened => trivial

theorem turns_given {format : List UInt16} {args : List Arg} (passed : ∀ arg ∈ args, passable arg) (world : World) :
    ∀ turn ∈ turns fw (elements format args) world, turn.element.given turn.memory := by
  intro turn member
  have inside : turn.element ∈ elements format args := by
    rw [← @turns_element fw (elements format args) world]
    exact List.mem_map_of_mem member
  exact element_given passed inside turn.memory

/-- A buffer is had before the exit only, and printing does not exit. -/
theorem piecesServed_early (found : List Element) {world : World}
    (served : piecesServed fw (found.map Element.piece) world) :
    ∀ element ∈ found, element.allocates = true → world.bsExited = false := by
  have calls : Absorbs fw (Calls fun _ => True) := calls_absorbs fw fun _ => trivial
  induction found generalizing world with
  | nil => simp
  | cons first rest ih =>
      obtain ⟨here, later⟩ := served
      have flag := (runPiece_relates calls.prints calls.narrow first.piece world).bsExited
      refine List.forall_mem_cons.mpr ⟨fun allocates => ?_, fun element member allocates => ?_⟩
      · cases first with
        | narrow arg => exact here.early
        | verbatim | conversion | modifier | opened => cases allocates
      · exact flag.symm.trans (ih later element member allocates)

/-- Without `%-s` no buffer is needed. -/
theorem piecesServed_plain {found : List Piece} (plain : found.any narrows = false) (world : World) :
    piecesServed fw found world := by
  induction found generalizing world with
  | nil => trivial
  | cons piece rest ih =>
      rw [List.any_cons, Bool.or_eq_false_iff] at plain
      refine ⟨?_, ih plain.2 _⟩
      cases piece with
      | narrow arg => cases plain.1
      | verbatim | conversion | cut => trivial

/-- With its buffers granted, printf prints everything if it has nothing to drop and nothing too long. -/
theorem printf_finishes_iff {format : List UInt16} {args : List Arg}
    (buffers : piecesServed fw (pieces format args) world)
    (given : ∀ turn ∈ turns fw (elements format args) world, turn.element.given turn.memory)
    (intact : Intact world.console) :
    Completes (documented fw format args world) world (printf fw format args world).2 ∧
        Intact (printf fw format args world).2.console ↔
      (∀ turn ∈ turns fw (elements format args) world, turn.Sound) ∧
        ∀ text ∈ stringsPrinted fw (pieces format args) world, Fits text := by
  have early := piecesServed_early (elements format args) (pieces_elements format args ▸ buffers)
  obtain ⟨sent, emptied, overran⟩ := printf_speaks early given (Prod.mk.eta (p := printf fw format args world)).symm
  rw [intact.within, Bool.false_or] at overran
  have bounded := (printf_bounded fw format args world).iff intact.bounded
  have line : widened (printf fw format args world).2.console.serial.reverse = widened (output world.console) ++
      widened (narrowed ((turns fw (elements format args) world).flatMap Turn.spoken)) := by
    rw [sent, widened_append]
  constructor
  · rintro ⟨completes, kept⟩
    have closed := (@turns_closed fw _ world).mp (overran.symm.trans kept.within)
    refine ⟨(turns_sound_iff closed).mp ?_, bounded.mp kept.bounded⟩
    exact List.append_cancel_left (line.symm.trans completes.sent)
  · rintro ⟨sound, fits⟩
    have closed (turn : Turn) (member : turn ∈ turns fw (elements format args) world) := (sound turn member).closed
    refine ⟨⟨?_, emptied⟩, bounded.mpr fits, overran.trans ((@turns_closed fw _ world).mpr closed)⟩
    rw [line, (turns_sound_iff closed).mpr sound, documented]

theorem printf_safe_iff {format : List UInt16} {args : List Arg}
    (passed : ∀ arg ∈ args, passable arg) (intact : Intact world.console) :
    (Call.printf format args passed).Safe fw world ↔ PrintfServed fw format args world := by
  have logs := @printf_logs_iff fw format args world
  constructor
  · intro safe
    have buffers := logs.mp safe.accesses
    have finishes := printf_finishes_iff buffers (turns_given passed world) intact
    obtain ⟨whole, fits⟩ := finishes.mp ⟨safe.finished, safe.intact⟩
    exact ⟨buffers, whole, fits⟩
  · intro served
    have finishes := printf_finishes_iff served.buffers (turns_given passed world) intact
    obtain ⟨finished, kept⟩ := finishes.mpr ⟨served.sound, served.fits⟩
    exact ⟨logs.mpr served.buffers, finished, kept⟩

theorem strerror_printable (status : EfiStatus) : Carried (strerror status) ∧ Fits (strerror status) := by
  have texts : ∀ entry ∈ statusTexts, Carried (wide entry.2) ∧ Fits (wide entry.2) := by decide +kernel
  unfold strerror
  split
  · decide +kernel
  · split
    · rename_i entry found
      exact texts entry (List.mem_of_find?_eq_some found)
    · decide +kernel

/-! The message of perror. -/
section Perror
variable (message : List UInt16) (status : EfiStatus)

/-- `%s: %s\r\n`. -/
def perrorFormat : List UInt16 := [percent, letterS, 58, 32, percent, letterS, 13, 10]

def perrorArgs : List Arg := [.wideText message, .wideText (strerror status)]

theorem perror_printf : perror fw message status = printf fw perrorFormat (perrorArgs message status) := by
  have format : wide "%s: %s\r\n" = perrorFormat := by decide +kernel
  rw [perror, format]
  rfl

theorem perror_elements : elements perrorFormat (perrorArgs message status) =
    [.conversion letterS (.wideText message), .verbatim [58], .verbatim [32],
      .conversion letterS (.wideText (strerror status)), .verbatim [13], .verbatim [10]] := rfl

theorem perror_documented : documented fw perrorFormat (perrorArgs message status) world =
    message ++ wide ": " ++ strerror status ++ wide "\r\n" := by
  have between : wide ": " = [58, 32] ∧ wide "\r\n" = [13, 10] := by decide +kernel
  rw [documented, perror_elements, between.1, between.2]
  simp [turns, Turn.text, Element.text, conversionText, readText]

theorem perror_sound_iff :
    (∀ turn ∈ turns fw (elements perrorFormat (perrorArgs message status)) world, turn.Sound) ↔
      Carried message := by
  have string (text : List UInt16) (memory : Memory) :
      Element.Sound memory (.conversion letterS (.wideText text)) ↔ Carried text :=
    ⟨fun sound => sound.carried (by decide), fun carried => ⟨trivial, fun _ => carried⟩⟩
  have literal (c : UInt16) (small : c.toNat < 256) (memory : Memory) : Element.Sound memory (.verbatim [c]) :=
    ⟨trivial, List.forall_mem_singleton.mpr small⟩
  rw [perror_elements]
  simp only [turns, List.forall_mem_cons, List.not_mem_nil, false_implies, implies_true, and_true, Turn.Sound, string,
    literal 58 (by decide), literal 32 (by decide), literal 13 (by decide), literal 10 (by decide),
    (strerror_printable status).1]

theorem perror_fits_iff :
    (∀ text ∈ stringsPrinted fw (pieces perrorFormat (perrorArgs message status)) world, Fits text) ↔
      Fits message := by
  have strings : stringsPrinted fw (pieces perrorFormat (perrorArgs message status)) world =
      [message, strerror status] := by
    rw [pieces_elements, perror_elements]
    rfl
  rw [strings, List.forall_mem_cons, List.forall_mem_singleton]
  exact and_iff_left (strerror_printable status).2

theorem perror_safe_iff (intact : Intact world.console) :
    (Call.perror message status).Safe fw world ↔ Carried message ∧ Fits message := by
  have buffers : piecesServed fw (pieces perrorFormat (perrorArgs message status)) world :=
    piecesServed_plain rfl world
  have given : ∀ turn ∈ turns fw (elements perrorFormat (perrorArgs message status)) world,
      turn.element.given turn.memory := by
    rw [perror_elements]
    simp [turns, Element.given, Arg.value]
  have finishes := (printf_finishes_iff buffers given intact).trans
    (and_congr (perror_sound_iff message status) (perror_fits_iff message status))
  rw [perror_documented, ← perror_printf] at finishes
  have quiet : Logs (harmless False) world (perror fw message status world).2 := perror_logs message status world
  refine ⟨fun safe => finishes.mp ⟨safe.finished, safe.intact⟩, fun served => ?_⟩
  obtain ⟨finished, kept⟩ := finishes.mpr served
  exact ⟨quiet, finished, kept⟩

end Perror

end Messages

/-! ### Sequences of calls -/

section Calls
variable {fw : Firmware}

theorem call_safe_iff (sound : AllocatorSound fw) (call : Call) {world : World} (intact : Intact world.console) :
    call.Safe fw world ↔ call.served fw world := by
  cases call with
  | malloc size => exact iff_of_true (malloc_safe sound size intact) trivial
  | free ptr => exact iff_of_true (free_safe ptr intact) trivial
  | calloc nmemb size => exact iff_of_true (calloc_safe sound nmemb size intact) trivial
  | strdup8 src => exact iff_of_true (strdup8_safe sound src intact) trivial
  | printf format args passed => exact printf_safe_iff passed intact
  | perror message status => exact perror_safe_iff message status intact
  | bsExited => exact iff_of_true ⟨⟨[], rfl, by simp⟩, trivial, intact⟩ trivial
  | elsewhere memory events => exact iff_of_true ⟨⟨[], rfl, by simp⟩, trivial, intact⟩ trivial

/-- In every run of calls: NULL is left alone and every message comes out whole as long as
printf gets its buffers and is asked for nothing that it cannot print, and no longer. -/
theorem null_untouched_iff (sound : AllocatorSound fw) (calls : List Call) {world : World}
    (intact : Intact world.console) : AllSafe fw calls world ↔ AllServed fw calls world := by
  induction calls generalizing world with
  | nil => exact Iff.rfl
  | cons call rest ih =>
      have first := call_safe_iff sound call intact
      constructor
      · rintro ⟨safe, later⟩
        exact ⟨first.mp safe, (ih safe.intact).mp later⟩
      · rintro ⟨served, later⟩
        have safe := first.mpr served
        exact ⟨safe, (ih safe.intact).mpr later⟩

/-! A message printed before the exit, and the same message after it. -/

def kernelMessage : Call :=
  .printf (wide "%-s") [.narrowText (ascii "bzImage")]
    (List.forall_mem_singleton.mpr (by unfold passable; decide +kernel))

theorem bootWorld_intact : Intact bootWorld.console :=
  ⟨⟨Nat.zero_le _, fun _ member => absurd member List.not_mem_nil⟩, rfl⟩

theorem early_message_served :
    AllSafe idleFirmware [.strdup8 0x100, kernelMessage, .free 0, .bsExited, .malloc 16] bootWorld := by
  have found : elements (wide "%-s") [.narrowText (ascii "bzImage")] = [.narrow (.narrowText (ascii "bzImage"))] := by
    decide +kernel
  refine (null_untouched_iff idleFirmware_sound _ bootWorld_intact).mpr
    ⟨trivial, ⟨?_, ?_, ?_⟩, trivial, trivial, trivial, trivial⟩
  · rw [pieces_elements, found]
    exact ⟨⟨by decide +kernel, by decide +kernel, by decide +kernel⟩, trivial⟩
  · have short : (ascii "bzImage").length ≤ 255 := by decide +kernel
    rw [found]
    exact List.forall_mem_singleton.mpr ⟨short, trivial⟩
  · rw [pieces_elements, found]
    simp [stringsPrinted, stringOf, Element.piece]

def EveryCallSafe : Prop :=
  ∀ (fw : Firmware), AllocatorSound fw → ∀ (calls : List Call) (world : World), Intact world.console →
    AllSafe fw calls world

theorem late_message_stores : ¬ EveryCallSafe := by
  intro every
  obtain ⟨-, message, -⟩ :=
    every idleFirmware idleFirmware_sound [.bsExited, kernelMessage] bootWorld bootWorld_intact
  have buffers := (printf_logs_iff _ _ _).mp message.accesses
  exact Bool.noConfusion buffers.1.early

end Calls

end Wboot.NullPointers
