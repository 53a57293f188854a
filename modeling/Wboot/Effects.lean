import Wboot.PrintfPieces

/-! What the helpers of wstdlib leave alone. `Prints` is a run that only prints:
memory, the calls made, errno and the exit flag stay. `Calls` is a run whose
firmware calls are all of an allowed kind. Both are preorders, so a stage has
the effect of its parts. -/

namespace Wboot.Effects
open StateProgram ByteMemory Machine Wstdlib PrintfPieces

structure Prints (before after : World) : Prop where
  mem : after.mem = before.mem
  history : after.history = before.history
  bsExited : after.bsExited = before.bsExited
  errno : after.errno = before.errno
  dctx : after.dctx = before.dctx
  accesses : ∃ reads, after.accesses = reads ++ before.accesses ∧
    ∀ access ∈ reads, ∃ pointer, access = .stringRead pointer

instance : IsPreorder World Prints where
  refl := fun world => ⟨rfl, rfl, rfl, rfl, rfl, [], rfl, by simp⟩
  trans := fun first second third left right => by
    obtain ⟨early, here, readEarly⟩ := left.accesses
    obtain ⟨late, there, readLate⟩ := right.accesses
    refine ⟨right.mem.trans left.mem, right.history.trans left.history,
      right.bsExited.trans left.bsExited, right.errno.trans left.errno,
      right.dctx.trans left.dctx, late ++ early, by rw [there, here, List.append_assoc], ?_⟩
    intro access member
    rcases List.mem_append.mp member with after | before
    · exact readLate access after
    · exact readEarly access before

/-- The exit flag stays and every new call is of an allowed kind. -/
structure Calls (allowed : Event → Prop) (before after : World) : Prop where
  bsExited : after.bsExited = before.bsExited
  history : ∃ events, after.history = events ++ before.history ∧ ∀ event ∈ events, allowed event

instance (allowed : Event → Prop) : IsPreorder World (Calls allowed) where
  refl := fun world => ⟨rfl, [], rfl, by simp⟩
  trans := fun first second third left right => by
    obtain ⟨early, here, allowedEarly⟩ := left.history
    obtain ⟨late, there, allowedLate⟩ := right.history
    refine ⟨right.bsExited.trans left.bsExited, late ++ early,
      by rw [there, here, List.append_assoc], ?_⟩
    intro event member
    rcases List.mem_append.mp member with after | before
    · exact allowedLate event after
    · exact allowedEarly event before

theorem Prints.calls {before after : World} (prints : Prints before after)
    (allowed : Event → Prop) : Calls allowed before after :=
  ⟨prints.bsExited, [], prints.history, by simp⟩

theorem Calls.mono {narrow wide : Event → Prop} {before after : World}
    (calls : Calls narrow before after) (implies : ∀ event, narrow event → wide event) :
    Calls wide before after := by
  obtain ⟨events, grown, kind⟩ := calls.history
  exact ⟨calls.bsExited, events, grown, fun event member => implies event (kind event member)⟩

theorem calls_iff {allowed some : Event → Prop} {before after : World} {events : List Event}
    (calls : Calls some before after) (grown : after.history = events ++ before.history) :
    Calls allowed before after ↔ ∀ event ∈ events, allowed event := by
  constructor
  · rintro ⟨-, other, same, kind⟩
    rw [grown] at same
    exact List.append_cancel_right same ▸ kind
  · exact fun kind => ⟨calls.bsExited, events, grown, kind⟩

/-- The calls of a run are judged part by part. -/
theorem Calls.split {allowed some : Event → Prop} {first second third : World}
    (early : Calls some first second) (late : Calls some second third) :
    Calls allowed first third ↔ Calls allowed first second ∧ Calls allowed second third := by
  obtain ⟨older, here, -⟩ := early.history
  obtain ⟨newer, there, -⟩ := late.history
  have whole : third.history = (newer ++ older) ++ first.history := by
    rw [there, here, List.append_assoc]
  rw [calls_iff (IsTrans.trans _ _ _ early late) whole, calls_iff early here, calls_iff late there,
    List.forall_mem_append]
  exact and_comm

/-- Every new access is of an allowed kind. -/
def Logs (allowed : Access → Prop) (before after : World) : Prop :=
  ∃ log, after.accesses = log ++ before.accesses ∧ ∀ access ∈ log, allowed access

instance (allowed : Access → Prop) : IsPreorder World (Logs allowed) where
  refl := fun world => ⟨[], rfl, by simp⟩
  trans := fun first second third left right => by
    obtain ⟨early, here, allowedEarly⟩ := left
    obtain ⟨late, there, allowedLate⟩ := right
    exact ⟨late ++ early, by rw [there, here, List.append_assoc],
      List.forall_mem_append.mpr ⟨allowedLate, allowedEarly⟩⟩

theorem Logs.mono {narrow wide : Access → Prop} {before after : World}
    (logs : Logs narrow before after) (implies : ∀ access, narrow access → wide access) :
    Logs wide before after := by
  obtain ⟨log, grown, kind⟩ := logs
  exact ⟨log, grown, fun access member => implies access (kind access member)⟩

theorem Logs.any {allowed : Access → Prop} {before after : World} (logs : Logs allowed before after) :
    Logs (fun _ => True) before after :=
  logs.mono fun _ _ => trivial

theorem logs_iff {allowed : Access → Prop} {before after : World} {log : List Access}
    (grown : after.accesses = log ++ before.accesses) :
    Logs allowed before after ↔ ∀ access ∈ log, allowed access := by
  constructor
  · rintro ⟨other, same, kind⟩
    rw [grown] at same
    exact List.append_cancel_right same ▸ kind
  · exact fun kind => ⟨log, grown, kind⟩

/-- A log is judged part by part. -/
theorem Logs.split {allowed some : Access → Prop} {first second third : World}
    (early : Logs some first second) (late : Logs some second third) :
    Logs allowed first third ↔ Logs allowed first second ∧ Logs allowed second third := by
  obtain ⟨older, here, -⟩ := early
  obtain ⟨newer, there, -⟩ := late
  have whole : third.accesses = (newer ++ older) ++ first.accesses := by
    rw [there, here, List.append_assoc]
  rw [logs_iff whole, logs_iff here, logs_iff there, List.forall_mem_append]
  exact and_comm

/-- After a run that is allowed, the rest decides. -/
theorem Logs.after_iff {allowed some : Access → Prop} {first second third : World}
    (early : Logs allowed first second) (late : Logs some second third) :
    Logs allowed first third ↔ Logs allowed second third :=
  (Logs.split early.any late.any).trans (and_iff_right early)

theorem Logs.before_iff {allowed some : Access → Prop} {first second third : World}
    (early : Logs some first second) (late : Logs allowed second third) :
    Logs allowed first third ↔ Logs allowed first second :=
  (Logs.split early.any late.any).trans (and_iff_left late)

theorem Prints.logs {allowed : Access → Prop} {before after : World} (prints : Prints before after)
    (strings : ∀ pointer, allowed (.stringRead pointer)) : Logs allowed before after := by
  obtain ⟨reads, grown, kind⟩ := prints.accesses
  refine ⟨reads, grown, fun access member => ?_⟩
  obtain ⟨pointer, rfl⟩ := kind access member
  exact strings pointer

/-! ### Printing -/

theorem console_prints (update : Console → Console) : Relates Prints (console update) :=
  fun _ => ⟨rfl, rfl, rfl, rfl, rfl, [], rfl, by simp⟩

theorem recordRead_prints (arg : Arg) : Relates Prints (recordRead arg) := by
  intro world
  cases arg with
  | widePointer pointer | narrowPointer pointer =>
      exact ⟨rfl, rfl, rfl, rfl, rfl, [.stringRead pointer], rfl, by simp⟩
  | wideText | narrowText | num => exact Std.Refl.refl world

theorem printfWriteArg_prints (arg : Arg) : Relates Prints (printfWriteArg arg) :=
  (recordRead_prints arg).bind fun _ => (Relates.read _).bind fun _ => console_prints _

theorem convert_prints (c : UInt16) (arg : Arg) : Relates Prints (convert c arg) := by
  unfold convert
  refine .ite (fun _ => printfWriteArg_prints arg) fun _ => ?_
  refine .ite (fun _ => console_prints _) fun _ => ?_
  refine .ite (fun _ => console_prints _) fun _ => ?_
  refine .ite (fun _ => console_prints _) fun _ => ?_
  exact .ite (fun _ => console_prints _) fun _ => console_prints _

/-- No `%-s` where the scan of printf would see one. -/
def plain : List UInt16 → Bool
  | [] => true
  | c :: rest =>
      if c ≠ percent then plain rest
      else match rest with
        | [] => true
        | d :: rest =>
            if d = minus then
              match rest with
              | [] => true
              | e :: rest => decide (e ≠ letterS) && plain rest
            else plain rest

theorem printfScan_prints (narrow : Arg → Boot Unit) (format : List UInt16) (args : List Arg)
    (safe : plain format = true) : Relates Prints (printfScan narrow format args) := by
  -- on the scan; case7 is %-s, which a plain format does not hold
  induction format, args using printfScan.induct with
  | case1 args => exact .pure ()
  | case2 c rest args ordinary ih =>
      rw [plain.eq_def] at safe
      simp only [ordinary, ne_eq, not_false_eq_true, ↓reduceIte] at safe
      rw [printfScan.eq_def]
      simp only [ordinary, ne_eq, not_false_eq_true, ↓reduceIte]
      exact (console_prints _).bind fun _ => ih safe
  | case3 c args sign =>
      rw [printfScan.eq_def]
      simp only [sign, ↓reduceIte]
      exact console_prints _
  | case4 c args sign d rest takes ih =>
      have other : d ≠ minus := by rintro rfl; revert takes; decide
      rw [plain.eq_def] at safe
      simp only [sign, other, ↓reduceIte] at safe
      rw [printfScan.eq_def]
      simp only [sign, takes, ↓reduceIte]
      exact (convert_prints d _).bind fun _ => ih safe
  | case5 c args sign rest none ih =>
      have other : percent ≠ minus := by decide
      rw [plain.eq_def] at safe
      simp only [sign, other, ↓reduceIte] at safe
      rw [printfScan.eq_def]
      simp only [sign, none, ↓reduceIte, Bool.false_eq_true]
      exact (console_prints _).bind fun _ => ih safe
  | case6 c args sign none other =>
      rw [printfScan.eq_def]
      simp only [sign, none, other, ↓reduceIte, Bool.false_eq_true]
      exact console_prints _
  | case7 c args sign rest none other ih =>
      rw [plain.eq_def] at safe
      simp [sign] at safe
  | case8 c args sign e rest different none other ih =>
      rw [plain.eq_def] at safe
      simp only [sign, different, ne_eq, not_false_eq_true, decide_true, Bool.true_and,
        ↓reduceIte] at safe
      rw [printfScan.eq_def]
      simp only [sign, none, other, different, ↓reduceIte, Bool.false_eq_true]
      exact (console_prints _).bind fun _ => ih safe
  | case9 c args sign d rest none other unsigned ih =>
      rw [plain.eq_def] at safe
      simp only [sign, unsigned, ↓reduceIte] at safe
      rw [printfScan.eq_def]
      simp only [sign, none, other, unsigned, ↓reduceIte, Bool.false_eq_true]
      exact (console_prints _).bind fun _ => ih safe

/-! With `%-s` a scan does what the allocating case does, and prints. -/
section Scanning
variable {step : World → World → Prop} {narrow : Arg → Boot Unit}

theorem runPiece_relates (prints : ∀ before after, Prints before after → step before after)
    (inner : ∀ arg, Relates step (narrow arg)) (piece : Piece) : Relates step (runPiece narrow piece) := by
  cases piece with
  | verbatim text => exact (console_prints _).mono prints
  | conversion c arg => exact (convert_prints c arg).mono prints
  | narrow arg => exact inner arg
  | cut => exact (console_prints _).mono prints

variable [IsPreorder World step]

theorem runPieces_relates {found : List Piece} (each : ∀ piece ∈ found, Relates step (runPiece narrow piece)) :
    Relates step (runPieces narrow found) := by
  induction found with
  | nil => exact .pure ()
  | cons piece rest ih =>
      obtain ⟨first, others⟩ := List.forall_mem_cons.mp each
      exact first.bind fun _ => ih others

theorem printfScan_relates (prints : ∀ before after, Prints before after → step before after)
    (inner : ∀ arg, Relates step (narrow arg)) (format : List UInt16) (args : List Arg) :
    Relates step (printfScan narrow format args) := by
  rw [printfScan_pieces]
  exact runPieces_relates fun piece _ => runPiece_relates prints inner piece

end Scanning

/-- `%-s` reads the string, copies it to a temporary buffer, prints the buffer and frees it. -/
theorem printfNarrow_parts {fw : Firmware} {arg : Arg} {before after : World} {outcome : Unit}
    (run : printfNarrow fw arg before = (outcome, after)) :
    ∃ recorded buffer allocated stored written, Prints before recorded ∧ recordRead arg before = ((), recorded) ∧
      malloc fw (u64 (((readNarrow before.mem arg).length + 1) * 2)) recorded = (buffer, allocated) ∧
      heapStore buffer (wideBytes (((readNarrow before.mem arg).take 255).map UInt8.toUInt16 ++ [0])) allocated =
        ((), stored) ∧
      printfWriteArg (.widePointer buffer) stored = ((), written) ∧ free fw buffer written = ((), after) := by
  rw [printfNarrow, run_bind] at run
  obtain ⟨⟨⟩, recorded, records, run⟩ := run
  have quiet : Prints before recorded := (recordRead_prints arg).run records
  rw [run_bind] at run
  obtain ⟨str, _, here, run⟩ := run
  obtain ⟨rfl, rfl⟩ : readNarrow recorded.mem arg = str ∧ recorded = _ := Prod.mk.inj here
  rw [run_bind, quiet.mem] at run
  obtain ⟨buffer, allocated, allocation, run⟩ := run
  rw [run_bind] at run
  obtain ⟨⟨⟩, stored, stores, run⟩ := run
  rw [run_bind] at run
  obtain ⟨⟨⟩, written, writes, frees⟩ := run
  exact ⟨recorded, buffer, allocated, stored, written, quiet, records, allocation, stores, writes, frees⟩

section Library
variable (fw : Firmware)

theorem printf_prints (format : List UInt16) (args : List Arg) (safe : plain format = true) :
    Relates Prints (printf fw format args) :=
  (printfScan_prints _ format args safe).bind fun _ => console_prints _

theorem perror_prints (message : List UInt16) (status : EfiStatus) :
    Relates Prints (perror fw message status) :=
  printf_prints fw _ _ (by decide +kernel)

theorem bug_prints {format : List UInt16} (text : onlyText format = true) : Relates Prints (bug format) :=
  bug_relates (fun _ => console_prints _) (console_prints _) text

theorem getMemoryMap_apply (size buffer : Nat) (world : World) :
    getMemoryMap fw size buffer world =
      (fw.getMemoryMap world.history size buffer, { world with
        history := .getMemoryMap size buffer (fw.getMemoryMap world.history size buffer) ::
          world.history
        mem := if buffer = 0 then world.mem else
          storeBytes world.mem buffer ((fw.getMemoryMap world.history size buffer).map.take size) }) := by
  unfold getMemoryMap
  simp only [bind_apply, branch_apply, pure_apply, service_apply, inRam_apply]
  by_cases absent : buffer = 0 <;> simp [absent, deliver]

/-! ### The pool -/

section Absorbed
variable {step : World → World → Prop} [IsPreorder World step]

theorem malloc_relates (bugs : ∀ format, onlyText format = true → Relates step (bug format))
    (errno : ∀ status, Relates step (setErrno status))
    (allocates : ∀ size, Relates step (allocatePool fw size)) (size : Nat) :
    Relates step (malloc fw size) := by
  refine (Relates.read _).bind fun exited => .ite (fun _ => ?_) fun _ => ?_
  · refine Relates.bind (bugs _ (by decide +kernel)) fun _ => ?_
    exact (errno _).bind fun _ => .pure 0
  · refine (allocates size).bind fun reply => .ite (fun _ => ?_) fun _ => .pure reply.2
    exact (errno _).bind fun _ => .pure 0

theorem free_relates (bugs : ∀ format, onlyText format = true → Relates step (bug format))
    (errno : ∀ status, Relates step (setErrno status))
    (releases : ∀ ptr, Relates step (freePool fw ptr)) (ptr : Nat) : Relates step (free fw ptr) := by
  refine (Relates.read _).bind fun exited => .ite (fun _ => ?_) fun _ => ?_
  · exact (bugs _ (by decide +kernel)).bind fun _ => .pure ()
  · refine .ite (fun _ => ?_) fun _ => .pure ()
    exact (releases ptr).bind fun status => errno status

/-- A relation that absorbs whatever wstdlib does holds over every use of it. -/
structure Absorbs (step : World → World → Prop) : Prop where
  prints : ∀ before after, Prints before after → step before after
  errno : ∀ status, Relates step (setErrno status)
  allocates : ∀ size, Relates step (allocatePool fw size)
  releases : ∀ ptr, Relates step (freePool fw ptr)
  stores : ∀ ptr bytes, Relates step (heapStore ptr bytes)

variable {fw}

theorem Absorbs.malloc (absorbs : Absorbs fw step) (size : Nat) : Relates step (malloc fw size) :=
  malloc_relates fw (fun _ text => (bug_prints text).mono absorbs.prints) absorbs.errno absorbs.allocates size

theorem Absorbs.free (absorbs : Absorbs fw step) (ptr : Nat) : Relates step (free fw ptr) :=
  free_relates fw (fun _ text => (bug_prints text).mono absorbs.prints) absorbs.errno absorbs.releases ptr

/-- The temporary buffer of `%-s`. -/
theorem Absorbs.narrow (absorbs : Absorbs fw step) (arg : Arg) : Relates step (printfNarrow fw arg) := by
  refine Relates.bind ((recordRead_prints arg).mono absorbs.prints) fun _ => ?_
  refine (Relates.read _).bind fun str => (absorbs.malloc _).bind fun buffer => ?_
  refine (absorbs.stores buffer _).bind fun _ => ?_
  exact Relates.bind ((printfWriteArg_prints _).mono absorbs.prints) fun _ => absorbs.free buffer

theorem Absorbs.printf (absorbs : Absorbs fw step) (format : List UInt16) (args : List Arg) :
    Relates step (printf fw format args) :=
  (printfScan_relates absorbs.prints absorbs.narrow format args).bind fun _ =>
    (console_prints _).mono absorbs.prints

theorem Absorbs.perror (absorbs : Absorbs fw step) (message : List UInt16) (status : EfiStatus) :
    Relates step (perror fw message status) :=
  absorbs.printf _ _

end Absorbed

theorem service_logs {allowed : Access → Prop} {ρ : Type} (answer : History → ρ)
    (event : ρ → Event) : Relates (Logs allowed) (service answer event) :=
  fun _ => ⟨[], rfl, by simp⟩

theorem deliver_logs {allowed : Access → Prop} (address : Nat) (bytes : List UInt8) :
    Relates (Logs allowed) (inRam (deliver address bytes)) :=
  fun _ => ⟨[], rfl, by simp⟩

/-- wstdlib reads strings and stores into its heap blocks. -/
theorem logs_absorbs {allowed : Access → Prop} (strings : ∀ pointer, allowed (.stringRead pointer))
    (heap : ∀ pointer, allowed (.heapStore pointer)) : Absorbs fw (Logs allowed) where
  prints := fun _ _ prints => prints.logs strings
  errno := fun _ _ => ⟨[], rfl, by simp⟩
  allocates := fun _ => service_logs _ _
  releases := fun _ => service_logs _ _
  stores := fun ptr bytes _ => ⟨[.heapStore ptr], rfl, by simpa using heap ptr⟩

section Pool
variable {allowed : Event → Prop}

theorem setErrno_calls (status : EfiStatus) : Relates (Calls allowed) (setErrno status) :=
  fun _ => ⟨rfl, [], rfl, by simp⟩

theorem service_calls {ρ : Type} (answer : History → ρ) (event : ρ → Event)
    (permitted : ∀ reply, allowed (event reply)) : Relates (Calls allowed) (service answer event) :=
  fun world => ⟨rfl, [event (answer world.history)], rfl, by simpa using permitted _⟩

theorem service_bsExited {ρ : Type} {answer : History → ρ} {event : ρ → Event} {reply : ρ}
    {before after : World} (run : service answer event before = (reply, after)) :
    after.bsExited = before.bsExited := by
  cases run
  rfl

theorem inRam_calls {α : Type} (program : Prog Ram α) : Relates (Calls allowed) (inRam program) :=
  fun _ => ⟨rfl, [], rfl, by simp⟩

theorem malloc_calls (permitted : ∀ size status pointer, allowed (.allocatePool size status pointer))
    (size : Nat) : Relates (Calls allowed) (malloc fw size) :=
  malloc_relates fw (fun _ text => (bug_prints text).mono fun _ _ prints => prints.calls _) setErrno_calls
    (fun _ => service_calls _ _ fun _ => permitted _ _ _) size

theorem free_calls (permitted : ∀ pointer status, allowed (.freePool pointer status))
    (ptr : Nat) : Relates (Calls allowed) (free fw ptr) :=
  free_relates fw (fun _ text => (bug_prints text).mono fun _ _ prints => prints.calls _) setErrno_calls
    (fun _ => service_calls _ _ fun _ => permitted _ _) ptr

theorem inRam_run {α : Type} {program : Prog Ram α} {value : α} {before after : World}
    (run : inRam program before = (value, after)) :
    program before.toRam = (value, after.toRam) ∧ after.history = before.history := by
  cases run
  exact ⟨rfl, rfl⟩

/-- Whatever wstdlib does, it calls the firmware and nothing more. -/
theorem calls_absorbs (permitted : ∀ event, allowed event) : Absorbs fw (Calls allowed) where
  prints := fun _ _ prints => prints.calls _
  errno := setErrno_calls
  allocates := fun _ => service_calls _ _ fun _ => permitted _
  releases := fun _ => service_calls _ _ fun _ => permitted _
  stores := fun _ _ => (inRam_calls _).bind fun _ => inRam_calls _

/-- Before the exit malloc is one AllocatePool call. -/
theorem malloc_apply (size : Nat) (world : World) (early : world.bsExited = false) :
    malloc fw size world =
      if efiError (fw.allocatePool world.history size).1 then
        (0, { world with
          history := .allocatePool size (fw.allocatePool world.history size).1
            (fw.allocatePool world.history size).2 :: world.history
          errno := (fw.allocatePool world.history size).1 })
      else
        ((fw.allocatePool world.history size).2, { world with
          history := .allocatePool size (fw.allocatePool world.history size).1
            (fw.allocatePool world.history size).2 :: world.history }) := by
  simp only [malloc, allocatePool, service, setErrno, bind_apply, readState_apply, branch_apply, early,
    Bool.false_eq_true, ↓reduceIte, modifyState_apply, pure_apply]

theorem malloc_answer {size ptr : Nat} {before after : World} (early : before.bsExited = false) (present : ptr ≠ 0)
    (run : malloc fw size before = (ptr, after)) : ptr = (fw.allocatePool before.history size).2 := by
  rw [malloc_apply fw size before early] at run
  split at run
  · exact absurd (congrArg Prod.fst run).symm present
  · exact (congrArg Prod.fst run).symm

theorem free_apply (ptr : Nat) (world : World) (early : world.bsExited = false) :
    free fw ptr world =
      if ptr = 0 then ((), world)
      else ((), { world with
        history := .freePool ptr (fw.freePool world.history ptr) :: world.history
        errno := fw.freePool world.history ptr }) := by
  simp only [free, freePool, service, setErrno, bind_apply, readState_apply, branch_apply, early,
    Bool.false_eq_true, ↓reduceIte, modifyState_apply, pure_apply, ne_eq, ite_not]

/-- One pool allocation: NULL, or a block apart from all that live. -/
structure Allocates (size ptr : Nat) (before after : World) : Prop where
  ram : after.toRam = before.toRam
  bsExited : after.bsExited = before.bsExited
  history : ∃ status pointer, after.history = .allocatePool size status pointer :: before.history
  failed : ptr = 0 → live after.history = live before.history
  refused : ptr = 0 → ∃ status pointer,
    after.history = .allocatePool size status pointer :: before.history ∧ efiError status = true
  fresh : ptr ≠ 0 → Fresh (live before.history) ⟨.pool, ptr, size⟩
  lives : ptr ≠ 0 → live after.history = ⟨.pool, ptr, size⟩ :: live before.history

theorem malloc_allocates {size ptr : Nat} {before after : World} (sound : AllocatorSound fw)
    (early : before.bsExited = false) (run : malloc fw size before = (ptr, after)) :
    Allocates size ptr before after := by
  rw [malloc_apply fw size before early] at run
  split at run
  · rename_i failed
    cases run
    exact ⟨rfl, rfl, ⟨_, _, rfl⟩, fun _ => by simp only [live, failed, ↓reduceIte],
      fun _ => ⟨_, _, rfl, failed⟩, fun nonnull => absurd rfl nonnull, fun nonnull => absurd rfl nonnull⟩
  · rename_i granted
    have fresh := sound.pool before.history size (by simpa using granted)
    cases run
    exact ⟨rfl, rfl, ⟨_, _, rfl⟩, fun null => absurd null (fresh.nonnull rfl),
      fun null => absurd null (fresh.nonnull rfl), fun _ => fresh,
      fun _ => by simp only [live, granted, ↓reduceIte, Bool.false_eq_true]⟩

/-- A release takes no block but the one at its pointer. -/
structure Releases (ptr : Nat) (before after : World) : Prop where
  ram : after.toRam = before.toRam
  bsExited : after.bsExited = before.bsExited
  keeps : ∀ block ∈ live before.history, block.start ≠ ptr → block ∈ live after.history

theorem free_releases {ptr : Nat} {before after : World} (early : before.bsExited = false)
    (run : free fw ptr before = ((), after)) : Releases ptr before after := by
  rw [free_apply fw ptr before early] at run
  split at run
  · cases run
    exact ⟨rfl, rfl, fun _ member _ => member⟩
  · cases run
    refine ⟨rfl, rfl, fun block member other => ?_⟩
    exact (List.mem_eraseP_of_neg (by simp [Block.named, other])).mpr member

theorem Allocates.keeps {size ptr : Nat} {before after : World} (allocates : Allocates size ptr before after)
    {block : Block} (member : block ∈ live before.history) : block ∈ live after.history := by
  by_cases null : ptr = 0
  · rw [allocates.failed null]
    exact member
  · rw [allocates.lives null]
    exact List.mem_cons_of_mem _ member

end Pool

end Library

end Wboot.Effects
