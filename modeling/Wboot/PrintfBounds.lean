import Wboot.Phase3

/-! Where printing stores. `_printf_write_char` flushes before a full buffer, and
`_printf_write` flushes once for its whole string, so a string that is longer than
the buffer runs past it. A format is the characters that the loop reads; behind a
conversion that the terminator cuts off it reads on, and so does the format. -/

namespace Wboot.PrintfBounds
open StateProgram ByteMemory CString Machine Wstdlib PrintfPieces Effects ConfigParser Phase3

/-- No index past the buffer has been stored to. A store leaves the position one
above its index, so the position never exceeded the size either. -/
def InBounds (console : Console) : Prop := ∀ index ∈ console.stores, index < printfBufferSize

def Bounded (console : Console) : Prop := console.pos ≤ printfBufferSize ∧ InBounds console

def Fits (text : List UInt16) : Prop := text.length ≤ printfBufferSize

instance : DecidablePred Fits := fun text => inferInstanceAs (Decidable (text.length ≤ _))

/-- One part of the printing: bounded exactly if something fits, and never repaired later. -/
structure BoundedIf (fits : Prop) (before after : Console) : Prop where
  grows : before.stores <:+ after.stores
  kept : Bounded before → fits → Bounded after
  broken : Bounded before → ¬ fits → ¬ InBounds after

section Parts
variable {fits other : Prop} {first second third : Console}

theorem BoundedIf.refl (console : Console) : BoundedIf True console console :=
  ⟨List.suffix_refl _, fun bounded _ => bounded, fun _ absurd => (absurd trivial).elim⟩

theorem BoundedIf.congr (part : BoundedIf fits first second) (same : Bounded first → (other ↔ fits)) :
    BoundedIf other first second :=
  ⟨part.grows, fun bounded holds => part.kept bounded ((same bounded).mp holds),
    fun bounded fails => part.broken bounded (mt (same bounded).mpr fails)⟩

theorem BoundedIf.trans (head : BoundedIf fits first second) (tail : BoundedIf other second third) :
    BoundedIf (fits ∧ other) first third where
  grows := head.grows.trans tail.grows
  kept := fun bounded both => tail.kept (head.kept bounded both.1) both.2
  broken := fun bounded fails inside => by
    by_cases holds : fits
    · exact tail.broken (head.kept bounded holds) (fun rest => fails ⟨holds, rest⟩) inside
    · exact head.broken bounded holds fun index member => inside index (tail.grows.subset member)

theorem BoundedIf.iff (part : BoundedIf fits first second) (bounded : Bounded first) :
    Bounded second ↔ fits :=
  ⟨fun after => by_contra fun fails => part.broken bounded fails after.2, part.kept bounded⟩

end Parts

/-! ### The writers -/
section Writers
variable (console : Console)

theorem put_bounded (c : UInt16) :
    BoundedIf (console.pos < printfBufferSize) console (printfPut console c) where
  grows := List.suffix_cons _ _
  kept := fun bounded room => ⟨room, List.forall_mem_cons.mpr ⟨room, bounded.2⟩⟩
  broken := fun _ full inside => full (inside console.pos List.mem_cons_self)

theorem flush_bounded : BoundedIf True console (printfFlush console) where
  grows := List.suffix_refl _
  kept := fun bounded _ => ⟨Nat.zero_le _, bounded.2⟩
  broken := fun _ absurd => (absurd trivial).elim

theorem putAll_bounded (text : List UInt16) :
    BoundedIf (console.pos + text.length ≤ printfBufferSize) console (printfPutAll console text) := by
  induction text generalizing console with
  | nil => exact (BoundedIf.refl console).congr fun bounded => by simpa using bounded.1
  | cons c rest ih =>
      refine ((put_bounded console c).trans (ih (printfPut console c))).congr fun _ => ?_
      have next : (printfPut console c).pos = console.pos + 1 := rfl
      simp only [List.length_cons, next]
      omega

theorem write_bounded (text : List UInt16) : BoundedIf (Fits text) console (printfWrite console text) := by
  unfold printfWrite Fits
  by_cases full : console.pos + text.length ≥ printfBufferSize
  · rw [if_pos full]
    have start : (printfFlush console).pos = 0 := rfl
    refine ((flush_bounded console).trans (putAll_bounded (printfFlush console) text)).congr fun _ => ?_
    rw [start, Nat.zero_add, true_and]
  · rw [if_neg full]
    exact (putAll_bounded console text).congr fun _ => by omega

theorem writeChar_bounded (c : UInt16) : BoundedIf True console (printfWriteChar console c) := by
  unfold printfWriteChar
  by_cases full : console.pos + 1 ≥ printfBufferSize
  · rw [if_pos full]
    have room : (printfFlush console).pos < printfBufferSize := Nat.zero_lt_succ 1023
    exact ((flush_bounded console).trans (put_bounded (printfFlush console) c)).congr fun _ => by simp [room]
  · rw [if_neg full]
    have room : console.pos < printfBufferSize := by omega
    exact (put_bounded console c).congr fun _ => by simp [room]

theorem writeChars_bounded (text : List UInt16) :
    BoundedIf True console (text.foldl printfWriteChar console) := by
  induction text generalizing console with
  | nil => exact .refl console
  | cons c rest ih => exact ((writeChar_bounded console c).trans (ih _)).congr fun _ => by simp

theorem writeDigits_bounded (base num fuel divisor : Nat) :
    BoundedIf True console (writeDigits base num fuel divisor console) := by
  induction fuel generalizing divisor console with
  | zero => exact .refl console
  | succ fuel ih =>
      unfold writeDigits
      split
      · exact ((writeChar_bounded console _).trans (ih _ _)).congr fun _ => by simp
      · exact .refl console

theorem writeNumber_bounded (base num : Nat) : BoundedIf True console (printfWriteNumber base num console) := by
  unfold printfWriteNumber
  split
  · exact writeChar_bounded console _
  · exact writeDigits_bounded console _ _ _ _

theorem writePointer_bounded (num : Nat) : BoundedIf True console (printfWritePointer num console) := by
  have short : Fits (wide "0x") := by decide
  exact ((write_bounded console (wide "0x")).trans (writeDigits_bounded _ 16 num 17 (2 ^ 60))).congr
    fun _ => by simp [short]

theorem writeSigned_bounded (num : Nat) : BoundedIf True console (writeSigned num console) := by
  unfold writeSigned
  split
  · exact ((writeChar_bounded console _).trans (writeNumber_bounded _ 10 _)).congr fun _ => by simp
  · exact writeNumber_bounded console 10 num

end Writers

/-! ### The pieces of a format -/

/-- The text that `%s` writes, and no other conversion. -/
def stringOf (memory : Memory) : Piece → Option (List UInt16)
  | .conversion c arg => if c = letterS then some (readText memory arg) else none
  | _ => none

/-- A part that keeps to the buffer whatever it is given. -/
def Unbroken (before after : World) : Prop := BoundedIf True before.console after.console

instance : IsPreorder World Unbroken where
  refl := fun world => .refl world.console
  trans := fun _ _ _ head tail => (BoundedIf.trans head tail).congr fun _ => by simp

theorem silent {before after : World} (same : after.console = before.console) : Unbroken before after := by
  unfold Unbroken
  rw [same]
  exact .refl _

theorem writeArg_bounded (arg : Arg) (world : World) :
    BoundedIf (Fits (readText world.mem arg)) world.console (printfWriteArg arg world).2.console := by
  have recorded : (recordRead arg world).2.console = world.console ∧
      (recordRead arg world).2.mem = world.mem := by
    cases arg <;> exact ⟨rfl, rfl⟩
  have written := write_bounded world.console (readText world.mem arg)
  unfold printfWriteArg
  simp only [bind_apply, readState_apply, console, modifyState_apply, recorded]
  exact written

theorem convert_bounded (c : UInt16) (arg : Arg) (world : World) :
    BoundedIf (∀ text ∈ stringOf world.mem (.conversion c arg), Fits text) world.console
      (convert c arg world).2.console := by
  by_cases string : c = letterS
  · simp only [convert, stringOf, string, ↓reduceIte, Option.mem_some_iff, forall_eq']
    exact writeArg_bounded arg world
  · have plain : BoundedIf True world.console (convert c arg world).2.console := by
      unfold convert
      rw [if_neg string]
      split_ifs
      · exact writeNumber_bounded world.console 10 arg.value
      · exact writeSigned_bounded world.console arg.value
      · exact writeNumber_bounded world.console 16 arg.value
      · exact writePointer_bounded world.console arg.value
      · exact writeChar_bounded world.console _
    exact plain.congr fun _ => by simp [stringOf, string]

section Library
variable (fw : Firmware)

theorem bug_unbroken (format : List UInt16) (text : onlyText format = true) : Relates Unbroken (bug format) :=
  bug_relates (fun text world => writeChars_bounded world.console text)
    (fun world => flush_bounded world.console) text

theorem malloc_unbroken (size : Nat) : Relates Unbroken (malloc fw size) :=
  malloc_relates fw bug_unbroken (fun _ _ => silent rfl) (fun _ _ => silent rfl) size

theorem free_unbroken (ptr : Nat) : Relates Unbroken (free fw ptr) :=
  free_relates fw bug_unbroken (fun _ _ => silent rfl) (fun _ _ => silent rfl) ptr

theorem wideString_stored (memory : Memory) (buffer : Nat) (text : List UInt16) :
    (wideString (storeBytes memory buffer (wideBytes (text ++ [0]))) buffer).length ≤ text.length := by
  have length : (wideBytes text).length = 2 * text.length := wideBytes_length text
  have bytes : wideBytes (text ++ [0]) = wideBytes text ++ [0, 0] := by simp [wideBytes]
  apply wideFrom_length_le
  rw [bytes]
  simp [load, storeBytes, ← length, Nat.add_assoc]

/-- The widened copy is short enough, whatever the string and wherever it is put. -/
theorem printfNarrow_unbroken (arg : Arg) : Relates Unbroken (printfNarrow fw arg) := by
  intro world
  obtain ⟨outcome, after, run⟩ : ∃ outcome after, printfNarrow fw arg world = (outcome, after) := ⟨_, _, rfl⟩
  rw [run]
  obtain ⟨recorded, buffer, allocated, stored, written, -, records, allocates, stores, writes, frees⟩ :=
    printfNarrow_parts run
  have head : Unbroken world recorded := by
    cases arg <;> cases records <;> exact silent rfl
  have middle : Unbroken recorded allocated := (malloc_unbroken fw _).run allocates
  have short : Fits (readText stored.mem (.widePointer buffer)) := by
    have copied := wideString_stored allocated.mem buffer (((readNarrow world.mem arg).take 255).map UInt8.toUInt16)
    cases stores
    refine Nat.le_trans copied ?_
    simp only [List.length_map, List.length_take, printfBufferSize]
    omega
  have kept : Unbroken allocated stored := by
    cases stores
    exact silent rfl
  have text : Unbroken stored written := by
    have part := writeArg_bounded (.widePointer buffer) stored
    rw [writes] at part
    exact part.congr fun _ => by simp [short]
  have tail : Unbroken written after := (free_unbroken fw buffer).run frees
  exact IsTrans.trans _ _ _ head (IsTrans.trans _ _ _ middle (IsTrans.trans _ _ _ kept
    (IsTrans.trans _ _ _ text tail)))

theorem piece_bounded (piece : Piece) (world : World) :
    BoundedIf (∀ text ∈ stringOf world.mem piece, Fits text) world.console
      (runPiece (printfNarrow fw) piece world).2.console := by
  have other (part : BoundedIf True world.console (runPiece (printfNarrow fw) piece world).2.console)
      (none : stringOf world.mem piece = none) :
      BoundedIf (∀ text ∈ stringOf world.mem piece, Fits text) world.console
        (runPiece (printfNarrow fw) piece world).2.console :=
    part.congr fun _ => by simp [none]
  cases piece with
  | verbatim text => exact other (writeChars_bounded world.console text) rfl
  | conversion c arg => exact convert_bounded c arg world
  | narrow arg => exact other (printfNarrow_unbroken fw arg world) rfl
  | cut =>
      have part := writeChars_bounded world.console [percent, 0]
      exact other ⟨part.grows, part.kept, part.broken⟩ rfl

/-- The texts that the `%s` among the pieces write, each as it is in memory at its turn. -/
def stringsPrinted : List Piece → World → List (List UInt16)
  | [], _ => []
  | piece :: rest, world =>
      (stringOf world.mem piece).toList ++
        stringsPrinted rest (runPiece (printfNarrow fw) piece world).2

theorem pieces_bounded (found : List Piece) (world : World) :
    BoundedIf (∀ text ∈ stringsPrinted fw found world, Fits text) world.console
      (runPieces (printfNarrow fw) found world).2.console := by
  induction found generalizing world with
  | nil => exact (BoundedIf.refl world.console).congr fun _ => by simp [stringsPrinted]
  | cons piece rest ih =>
      refine ((piece_bounded fw piece world).trans (ih _)).congr fun _ => ?_
      simp only [stringsPrinted, List.forall_mem_append, Option.mem_toList, Option.mem_def]

/-- One call of printf, with the world it is called in. -/
theorem printf_bounded (format : List UInt16) (args : List Arg) (world : World) :
    BoundedIf (∀ text ∈ stringsPrinted fw (pieces format args) world, Fits text) world.console
      (printf fw format args world).2.console := by
  have scanned := pieces_bounded fw (pieces format args) world
  rw [← printfScan_pieces] at scanned
  exact (scanned.trans (flush_bounded _)).congr fun _ => by simp

/-! ### A sequence of calls -/

/-- A call, and all that the code before it may have changed besides the buffer. -/
structure PrintCall where
  surroundings : World
  format : List UInt16
  args : List Arg

def PrintCall.start (call : PrintCall) (console : Console) : World :=
  { call.surroundings with console := console }

def printCalls : List PrintCall → Console → Console
  | [], console => console
  | call :: rest, console =>
      printCalls rest (printf fw call.format call.args (call.start console)).2.console

def stringsOfCalls : List PrintCall → Console → List (List UInt16)
  | [], _ => []
  | call :: rest, console =>
      stringsPrinted fw (pieces call.format call.args) (call.start console) ++
        stringsOfCalls rest (printf fw call.format call.args (call.start console)).2.console

theorem printCalls_bounded (calls : List PrintCall) (console : Console) :
    BoundedIf (∀ text ∈ stringsOfCalls fw calls console, Fits text) console
      (printCalls fw calls console) := by
  induction calls generalizing console with
  | nil => exact (BoundedIf.refl console).congr fun _ => by simp [stringsOfCalls]
  | cons call rest ih =>
      refine ((printf_bounded fw call.format call.args (call.start console)).trans (ih _)).congr fun _ => ?_
      simp only [stringsOfCalls, List.forall_mem_append]

/-! ### Printing the configuration -/

def writesString : Piece → Bool
  | .conversion c _ => c = letterS
  | _ => false

theorem printf_unbroken (format : List UInt16) (args : List Arg)
    (none : (pieces format []).any writesString = false) : Relates Unbroken (printf fw format args) := by
  intro world
  rw [← pieces_bare format args] at none
  have strings : stringsPrinted fw (pieces format args) world = [] := by
    generalize pieces format args = found at none
    induction found generalizing world with
    | nil => rfl
    | cons piece rest ih =>
        simp only [List.map_cons, List.any_cons, Bool.or_eq_false_iff] at none
        have silent : stringOf world.mem piece = Option.none := by
          cases piece with
          | conversion c arg => simpa [writesString, Piece.bare, stringOf] using none.1
          | verbatim | narrow | cut => rfl
        rw [stringsPrinted, silent, ih _ none.2]
        rfl
  exact (printf_bounded fw format args world).congr fun _ => by simp [strings]

/-- A message with one string in it. -/
theorem printf_string (before after : List UInt16) (first : ∀ c ∈ before, c ≠ percent)
    (second : ∀ c ∈ after, c ≠ percent) (arg : Arg) (world : World) :
    BoundedIf (Fits (readText world.mem arg)) world.console
      (printf fw (before ++ percent :: letterS :: after) [arg] world).2.console := by
  have text (characters : List UInt16) (rest : List Piece) (world : World) :
      ∃ middle : World, middle.mem = world.mem ∧
        stringsPrinted fw (characters.map (fun c => .verbatim [c]) ++ rest) world =
          stringsPrinted fw rest middle := by
    induction characters generalizing world with
    | nil => exact ⟨world, rfl, rfl⟩
    | cons c later ih =>
        obtain ⟨middle, same, strings⟩ := ih (runPiece (printfNarrow fw) (.verbatim [c]) world).2
        exact ⟨middle, same, strings⟩
  refine (printf_bounded fw _ [arg] world).congr fun _ => ?_
  obtain ⟨middle, same, strings⟩ := text before (.conversion letterS arg :: after.map (fun c => .verbatim [c])) world
  obtain ⟨last, -, none⟩ := text after [] (runPiece (printfNarrow fw) (.conversion letterS arg) middle).2
  rw [List.append_nil] at none
  rw [pieces_string first second, strings, stringsPrinted, none, same]
  simp [stringOf, stringsPrinted]

/-- The paths of the configuration, where efi_main prints it. -/
theorem printConfig_bounded (config : WbootConfig) (world : World) :
    BoundedIf (Fits (wideString world.mem config.kernelPath) ∧ Fits (wideString world.mem config.initrdPath))
      world.console (printConfig fw config world).2.console := by
  have kernelLine : wide "[wboot] config kernel = %s\r\n" =
      wide "[wboot] config kernel = " ++ percent :: letterS :: wide "\r\n" := by decide +kernel
  have initrdLine : wide "[wboot] config initrd = %s\r\n" =
      wide "[wboot] config initrd = " ++ percent :: letterS :: wide "\r\n" := by decide +kernel
  unfold printConfig
  simp only [bind_apply]
  have head := printf_string fw (wide "[wboot] config kernel = ") (wide "\r\n") (by decide +kernel)
    (by decide +kernel) (.widePointer config.kernelPath) world
  rw [← kernelLine] at head
  have same := (printf_prints fw (wide "[wboot] config kernel = %s\r\n") [.widePointer config.kernelPath]
    (by decide +kernel) world).mem
  generalize (printf fw (wide "[wboot] config kernel = %s\r\n") [.widePointer config.kernelPath] world).2 = first
    at head same ⊢
  have tail := printf_string fw (wide "[wboot] config initrd = ") (wide "\r\n") (by decide +kernel)
    (by decide +kernel) (.widePointer config.initrdPath) first
  rw [← initrdLine, readText, same] at tail
  have rest := Relates.bind (printf_unbroken fw (wide "[wboot] config cmdline = %-s\r\n")
      [.narrowPointer config.cmdline] (by decide +kernel)) fun _ =>
    printf_unbroken fw (wide "[wboot] config mode = %ux%u, format=%d, depth=%u\r\n")
      [.num config.modeWidth, .num config.modeHeight, .num (signExtend config.modeFormat),
        .num config.modeDepth] (by decide +kernel)
  exact ((head.trans tail).trans (rest _)).congr fun _ => by simp [readText]

end Library

/-- A sequence of calls keeps to the buffer exactly if every string it prints with `%s`
fits into it; for the configuration these are its two paths. -/
theorem printing_bounded_iff (fw : Firmware) :
    (∀ (calls : List PrintCall) (console : Console), Bounded console →
      (Bounded (printCalls fw calls console) ↔ ∀ text ∈ stringsOfCalls fw calls console, Fits text)) ∧
    ∀ (config : WbootConfig) (world : World), Bounded world.console →
      (Bounded (printConfig fw config world).2.console ↔
        Fits (wideString world.mem config.kernelPath) ∧ Fits (wideString world.mem config.initrdPath)) :=
  ⟨fun calls console => (printCalls_bounded fw calls console).iff,
    fun config world => (printConfig_bounded fw config world).iff⟩

def greetings : List PrintCall :=
  [⟨bootWorld, wide "%s: %u%%\r\n", [.wideText (wide "read"), .num 100]⟩,
    ⟨bootWorld, wide "%-s at %p\r\n", [.narrowText (ascii "kernel"), .num 0x100000]⟩]

theorem greetings_bounded :
    Bounded (printCalls idleFirmware greetings bootWorld.console) ∧
      Bounded (printConfig idleFirmware (emptyConfig 1) bootWorld).2.console := by
  have start : Bounded bootWorld.console := ⟨Nat.zero_le _, by simp [InBounds, bootWorld]⟩
  constructor
  · exact ((printing_bounded_iff idleFirmware).1 greetings _ start).mpr (by decide +kernel)
  · exact ((printing_bounded_iff idleFirmware).2 (emptyConfig 1) _ start).mpr (by decide +kernel)

/-- Memory with a path of 1025 characters at 16. -/
def longPath : World := { bootWorld with mem := fun x => if x < 16 + 2 * 1025 ∧ x % 2 = 0 then 97 else 0 }

theorem long_path_overruns :
    Bounded longPath.console ∧
      ¬ InBounds (printConfig idleFirmware { emptyConfig 1 with kernelPath := 16 } longPath).2.console := by
  have start : Bounded longPath.console := ⟨Nat.zero_le _, by simp [InBounds, longPath, bootWorld]⟩
  have length : (wideString longPath.mem 16).length = 1025 := by
    refine wideFrom_length _ _ _ _ (by rw [addressSpace_eq]; omega) (fun i bound => ?_) (by decide)
    have low : 16 + 2 * i < 16 + 2 * 1025 := by omega
    simp [load, longPath, low]
  refine ⟨start, (printConfig_bounded idleFirmware _ longPath).broken start fun fits => ?_⟩
  have short : (wideString longPath.mem 16).length ≤ 1024 := fits.1
  omega

end Wboot.PrintfBounds
