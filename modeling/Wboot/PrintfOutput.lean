import Wboot.Effects
import Wboot.Numerals

/-! What is printed, whether it has been sent or still waits in the buffer: every
writer adds to it, and a flush changes nothing about it. -/

namespace Wboot.PrintfOutput
open StateProgram ByteMemory CString Numerals Machine Wstdlib PrintfPieces Effects

def output (console : Console) : List UInt8 :=
  console.serial.reverse ++ (List.range console.pos).map fun i => (console.buffer i).toUInt8

def narrowed (text : List UInt16) : List UInt8 := text.map UInt16.toUInt8

/-! ### The writers -/
section Writers
variable (console : Console)

theorem output_flush : output (printfFlush console) = output console := by
  simp [output, printfFlush]

/-- Nothing waits behind a flush. -/
theorem sent_flush : (printfFlush console).serial.reverse = output console := by
  simp [output, printfFlush]

theorem output_put (c : UInt16) : output (printfPut console c) = output console ++ [c.toUInt8] := by
  have older : (List.range console.pos).map (fun i => ((printfPut console c).buffer i).toUInt8) =
      (List.range console.pos).map fun i => (console.buffer i).toUInt8 := by
    refine List.map_congr_left fun i member => ?_
    have other : i ≠ console.pos := Nat.ne_of_lt (List.mem_range.mp member)
    simp [printfPut, other]
  have newest : (printfPut console c).buffer console.pos = c := if_pos rfl
  have next : (printfPut console c).pos = console.pos + 1 := rfl
  unfold output
  rw [next, List.range_succ, List.map_append, List.map_singleton, older, newest, List.append_assoc]
  rfl

theorem output_writeChar (c : UInt16) : output (printfWriteChar console c) = output console ++ [c.toUInt8] := by
  unfold printfWriteChar
  split <;> simp only [output_put, output_flush]

theorem output_writeChars (text : List UInt16) :
    output (text.foldl printfWriteChar console) = output console ++ narrowed text := by
  induction text generalizing console with
  | nil => simp [narrowed]
  | cons c rest ih => simp [ih, output_writeChar, narrowed]

theorem output_putAll (text : List UInt16) :
    output (printfPutAll console text) = output console ++ narrowed text := by
  induction text generalizing console with
  | nil => simp [printfPutAll, narrowed]
  | cons c rest ih => simp [printfPutAll, ih, output_put, narrowed]

theorem output_write (text : List UInt16) :
    output (printfWrite console text) = output console ++ narrowed text := by
  unfold printfWrite
  split <;> simp only [output_putAll, output_flush]

/-! Numbers. The divisor starts at the largest power of the base that is not above
the number, so no digit is lost and none stands for nothing. -/

theorem leadingDivisor_eq {base fuel temp divisor : Nat} (large : 1 < base) (positive : temp ≠ 0)
    (fits : divisor * temp < 2 ^ 64) (enough : Nat.log base temp ≤ fuel) :
    leadingDivisor base fuel temp divisor = divisor * base ^ Nat.log base temp := by
  induction fuel generalizing temp divisor with
  | zero => rw [Nat.le_zero.mp enough, pow_zero, Nat.mul_one, leadingDivisor]
  | succ fuel ih =>
      unfold leadingDivisor
      by_cases more : temp ≥ base
      · have shorter : Nat.log base temp = Nat.log base (temp / base) + 1 :=
          Nat.log_of_one_lt_of_le large more
        have step : divisor * base ≤ divisor * temp := Nat.mul_le_mul_left divisor more
        have kept : u64 (divisor * base) = divisor * base := Nat.mod_eq_of_lt (by omega)
        have next : divisor * base * (temp / base) ≤ divisor * temp := by
          rw [Nat.mul_assoc]
          exact Nat.mul_le_mul_left divisor (Nat.mul_div_le temp base)
        have left : temp / base ≠ 0 := (Nat.div_pos more (by omega)).ne'
        rw [if_pos more, kept, ih left (by omega) (by omega), shorter, Nat.pow_succ]
        ring
      · rw [if_neg more, Nat.log_of_lt (by omega), pow_zero, Nat.mul_one]

def numberText (base num : Nat) : List UInt8 :=
  (numeral base num).map fun digit => (digitChar digit).toUInt8

theorem output_writeDigits {base : Nat} (large : 1 < base) (num fuel count : Nat) (enough : count < fuel) :
    output (writeDigits base num fuel (base ^ count) console) = output console ++
      (places base num (count + 1)).map fun digit => (digitChar digit).toUInt8 := by
  induction count generalizing fuel console with
  | zero =>
      obtain ⟨fuel, rfl⟩ : ∃ less, fuel = less + 1 := ⟨fuel - 1, by omega⟩
      have last : base ^ 0 / base = 0 := Nat.div_eq_of_lt (by simpa using large)
      have ended (later : Console) : writeDigits base num fuel 0 later = later := by
        cases fuel <;> simp [writeDigits]
      rw [writeDigits, if_pos (Nat.one_pos.trans_eq (pow_zero base).symm), last, ended, output_writeChar]
      rfl
  | succ count ih =>
      obtain ⟨fuel, rfl⟩ : ∃ less, fuel = less + 1 := ⟨fuel - 1, by omega⟩
      have positive : base ^ (count + 1) > 0 := Nat.pow_pos (by omega)
      have next : base ^ (count + 1) / base = base ^ count := by
        rw [Nat.pow_succ, Nat.mul_div_cancel _ (by omega)]
      have split : places base num (count + 1 + 1) =
          num / base ^ (count + 1) % base :: places base num (count + 1) := rfl
      rw [writeDigits, if_pos positive, next, ih _ fuel (by omega), output_writeChar, split, List.map_cons,
        List.append_assoc, List.singleton_append]

/-- No base has more digits than there are bits. -/
theorem log_lt_64 {base num : Nat} (large : 1 < base) (bounded : num < 2 ^ 64) : Nat.log base num < 64 := by
  by_cases zero : num = 0
  · simp [zero]
  · exact Nat.log_lt_of_lt_pow zero (Nat.lt_of_lt_of_le bounded (Nat.pow_le_pow_left large 64))

theorem output_writeNumber {base num : Nat} (large : 1 < base) (bounded : num < 2 ^ 64) :
    output (printfWriteNumber base num console) = output console ++ numberText base num := by
  have enough : Nat.log base num < 64 := log_lt_64 large bounded
  unfold printfWriteNumber numberText numeral
  by_cases zero : num = 0
  · rw [if_pos zero, output_writeChar, zero]
    simp [places, digitChar]
  · rw [if_neg zero, leadingDivisor_eq large zero (by omega) (by omega), Nat.one_mul,
      output_writeDigits console large num 65 _ (by omega)]

end Writers

theorem numberText_decimal (num : Nat) : IsDecimal (numberText 10 num) ∧ decimalValue (numberText 10 num) = num := by
  have small : ∀ digit ∈ numeral 10 num, digit < 10 := places_lt (by omega) num _
  have char : ∀ digit < 10, 48 ≤ (digitChar digit).toUInt8.toNat ∧ (digitChar digit).toUInt8.toNat ≤ 57 ∧
      (digitChar digit).toUInt8.toNat - 48 = digit := by decide
  refine ⟨⟨by simp [numberText, numeral, places], ?_⟩, ?_⟩
  · intro c member
    obtain ⟨digit, inside, rfl⟩ := List.mem_map.mp member
    exact ⟨(char digit (small digit inside)).1, (char digit (small digit inside)).2.1⟩
  · have same : (numberText 10 num).map (fun c => c.toNat - 48) = numeral 10 num := by
      unfold numberText
      rw [List.map_map]
      exact List.map_congr_left (fun digit inside => (char digit (small digit inside)).2.2) |>.trans (List.map_id _)
    rw [decimalValue, same, valueOf_numeral (by omega)]

/-! ### What a run prints -/

def Adds (before after : World) : Prop := ∃ more, output after.console = output before.console ++ more

instance : IsPreorder World Adds where
  refl := fun world => ⟨[], (List.append_nil _).symm⟩
  trans := fun _ _ _ head tail => by
    obtain ⟨first, here⟩ := head
    obtain ⟨second, there⟩ := tail
    exact ⟨first ++ second, by rw [there, here, List.append_assoc]⟩

/-- The text, and whatever comes behind it. -/
def Says (text : List UInt8) (before after : World) : Prop :=
  ∃ rest, output after.console = output before.console ++ (text ++ rest)

/-- Nothing is printed as long as boot services are there. -/
def Silent (before after : World) : Prop :=
  before.bsExited = false → after.bsExited = false ∧ output after.console = output before.console

instance : IsPreorder World Silent where
  refl := fun _ early => ⟨early, rfl⟩
  trans := fun _ _ _ head tail early => by
    obtain ⟨middle, here⟩ := head early
    obtain ⟨last, there⟩ := tail middle
    exact ⟨last, there.trans here⟩

/-- What is printed as long as boot services are there opens with the text. -/
def Opens (text : List UInt8) (before after : World) : Prop :=
  before.bsExited = false → after.bsExited = false ∧
    (output after.console = output before.console ∨ Says text before after)

section Joined
variable {text : List UInt8} {first second third : World}

theorem Says.adds (told : Says text first second) : Adds first second := by
  obtain ⟨rest, here⟩ := told
  exact ⟨text ++ rest, here⟩

theorem Says.followed (told : Says text first second) (adds : Adds second third) : Says text first third := by
  obtain ⟨rest, here⟩ := told
  obtain ⟨more, there⟩ := adds
  exact ⟨rest ++ more, by simp only [there, here, List.append_assoc]⟩

theorem Says.preceded (same : output second.console = output first.console) (told : Says text second third) :
    Says text first third := by
  obtain ⟨rest, here⟩ := told
  exact ⟨rest, by rw [here, same]⟩

theorem Silent.opens (silent : Silent first second) : Opens text first second :=
  fun early => ⟨(silent early).1, Or.inl (silent early).2⟩

instance (text : List UInt8) : IsPreorder World (Opens text) where
  refl := fun _ early => ⟨early, Or.inl rfl⟩
  trans := fun _ _ _ head tail early => by
    obtain ⟨middle, here⟩ := head early
    obtain ⟨last, there⟩ := tail middle
    refine ⟨last, ?_⟩
    rcases here with same | told
    · rcases there with also | later
      · exact Or.inl (also.trans same)
      · exact Or.inr (later.preceded same)
    · rcases there with also | later
      · exact Or.inr (told.followed ⟨[], by rw [also, List.append_nil]⟩)
      · exact Or.inr (told.followed later.adds)

/-- Different messages have different beginnings. -/
def Clash (left right : List UInt8) : Prop := ¬ left <+: right ∧ ¬ right <+: left

instance (left right : List UInt8) : Decidable (Clash left right) := inferInstanceAs (Decidable (_ ∧ _))

theorem Clash.append {left right : List UInt8} (clash : Clash left right) (more rest : List UInt8) :
    left ++ more ≠ right ++ rest := by
  intro same
  rcases List.append_eq_append_iff.mp same with ⟨between, begins, -⟩ | ⟨between, begins, -⟩
  · exact clash.1 ⟨between, begins.symm⟩
  · exact clash.2 ⟨between, begins.symm⟩

theorem Says.clash {other : List UInt8} (clash : Clash text other) (told : Says text first second) :
    ¬ Says other first second := by
  rintro ⟨more, also⟩
  obtain ⟨rest, here⟩ := told
  exact clash.append rest more (List.append_cancel_left (here.symm.trans also))

end Joined

section Library
variable (fw : Firmware)

theorem adds_nothing {before after : World} (same : after.console = before.console) : Adds before after := by
  rw [Adds, same]
  exact ⟨[], (List.append_nil _).symm⟩

theorem writes_adds (text : List UInt16) : Relates Adds (console fun old => text.foldl printfWriteChar old) :=
  fun world => ⟨_, output_writeChars world.console text⟩

theorem flush_adds : Relates Adds (console printfFlush) :=
  fun world => ⟨[], by rw [List.append_nil]; exact output_flush world.console⟩

theorem bug_adds (format : List UInt16) (text : onlyText format = true) : Relates Adds (bug format) :=
  bug_relates writes_adds flush_adds text

theorem malloc_adds (size : Nat) : Relates Adds (malloc fw size) :=
  malloc_relates fw bug_adds (fun _ _ => adds_nothing rfl) (fun _ _ => adds_nothing rfl) size

theorem free_adds (ptr : Nat) : Relates Adds (free fw ptr) :=
  free_relates fw bug_adds (fun _ _ => adds_nothing rfl) (fun _ _ => adds_nothing rfl) ptr

theorem output_writeArg (arg : Arg) (world : World) :
    output (printfWriteArg arg world).2.console =
      output world.console ++ narrowed (readText world.mem arg) := by
  have recorded : (recordRead arg world).2.console = world.console ∧
      (recordRead arg world).2.mem = world.mem := by
    cases arg <;> exact ⟨rfl, rfl⟩
  unfold printfWriteArg
  simp only [bind_apply, readState_apply, console, modifyState_apply, recorded]
  exact output_write world.console _

theorem writeDigits_adds (base num fuel divisor : Nat) (old : Console) :
    ∃ more, output (writeDigits base num fuel divisor old) = output old ++ more := by
  induction fuel generalizing divisor old with
  | zero => exact ⟨[], (List.append_nil _).symm⟩
  | succ fuel ih =>
      unfold writeDigits
      split
      · obtain ⟨more, later⟩ := ih (divisor / base) (printfWriteChar old (digitChar (num / divisor % base)))
        exact ⟨_, by rw [later, output_writeChar, List.append_assoc]⟩
      · exact ⟨[], (List.append_nil _).symm⟩

theorem writeNumber_adds (base num : Nat) (old : Console) :
    ∃ more, output (printfWriteNumber base num old) = output old ++ more := by
  unfold printfWriteNumber
  split
  · exact ⟨_, output_writeChar old _⟩
  · exact writeDigits_adds base num 65 _ old

theorem convert_adds (c : UInt16) (arg : Arg) : Relates Adds (convert c arg) := by
  unfold convert
  refine .ite (fun _ world => ⟨_, output_writeArg arg world⟩) fun _ => ?_
  refine .ite (fun _ world => writeNumber_adds 10 _ world.console) fun _ => ?_
  refine .ite (fun _ world => ?_) fun _ => ?_
  · obtain ⟨more, here⟩ : ∃ more, output (writeSigned arg.value world.console) = output world.console ++ more := by
      unfold writeSigned
      split
      · obtain ⟨more, later⟩ := writeNumber_adds 10 (u64 (2 ^ 64 - arg.value)) (printfWriteChar world.console minus)
        exact ⟨_, by rw [printfWriteUintn, later, output_writeChar, List.append_assoc]⟩
      · exact writeNumber_adds 10 arg.value world.console
    exact ⟨more, here⟩
  refine .ite (fun _ world => writeNumber_adds 16 _ world.console) fun _ => ?_
  refine .ite (fun _ world => ?_) fun _ world => ⟨_, output_writeChar world.console _⟩
  obtain ⟨more, later⟩ := writeDigits_adds 16 arg.value 17 (2 ^ 60) (printfWrite world.console (wide "0x"))
  exact ⟨narrowed (wide "0x") ++ more, by rw [← List.append_assoc, ← output_write]; exact later⟩

theorem printfNarrow_adds (arg : Arg) : Relates Adds (printfNarrow fw arg) := by
  have recorded : Relates Adds (recordRead arg) := fun world => by
    cases arg <;> exact adds_nothing rfl
  refine recorded.bind fun _ => (Relates.read _).bind fun str => (malloc_adds fw _).bind fun buffer => ?_
  refine Relates.bind (fun world => adds_nothing rfl) fun _ => ?_
  exact Relates.bind (fun world => ⟨_, output_writeArg _ world⟩) fun _ => free_adds fw buffer

theorem pieces_adds (found : List Piece) : Relates Adds (runPieces (printfNarrow fw) found) := by
  induction found with
  | nil => exact .pure ()
  | cons piece rest ih =>
      refine Relates.bind ?_ fun _ => ih
      cases piece with
      | verbatim text => exact writes_adds text
      | conversion c arg => exact convert_adds c arg
      | narrow arg => exact printfNarrow_adds fw arg
      | cut => exact fun world => ⟨_, output_writeChars world.console [percent, 0]⟩

/-! The beginning of a message. -/

theorem runPieces_append (narrow : Arg → Boot Unit) (left right : List Piece) (world : World) :
    runPieces narrow (left ++ right) world = runPieces narrow right (runPieces narrow left world).2 := by
  induction left generalizing world with
  | nil => rfl
  | cons piece rest ih => exact ih _

theorem output_pieces_text (narrow : Arg → Boot Unit) (text : List UInt16) (world : World) :
    output (runPieces narrow (text.map fun c => .verbatim [c]) world).2.console =
      output world.console ++ narrowed text := by
  induction text generalizing world with
  | nil => exact (List.append_nil _).symm
  | cons c rest ih =>
      have first : output (runPiece narrow (.verbatim [c]) world).2.console = output world.console ++ [c.toUInt8] :=
        output_writeChar world.console c
      rw [List.map_cons, runPieces, bind_apply, ih, first, List.append_assoc]
      rfl

theorem printf_begins {format : List UInt16} {args : List Arg} {first later : List Piece} {text : List UInt8}
    {world : World} (split : pieces format args = first ++ later)
    (begins : output (runPieces (printfNarrow fw) first world).2.console = output world.console ++ text) :
    Says text world (printf fw format args world).2 := by
  obtain ⟨more, here⟩ := pieces_adds fw later (runPieces (printfNarrow fw) first world).2
  refine ⟨more, ?_⟩
  have scanned : printfScan (printfNarrow fw) format args world =
      runPieces (printfNarrow fw) later (runPieces (printfNarrow fw) first world).2 := by
    rw [printfScan_pieces, split, runPieces_append]
  have flushed : output (printf fw format args world).2.console =
      output (printfScan (printfNarrow fw) format args world).2.console :=
    output_flush _
  rw [flushed, scanned, here, begins, List.append_assoc]

theorem printf_text {text : List UInt16} (ordinary : ∀ c ∈ text, c ≠ percent) (rest : List UInt16)
    (args : List Arg) : Relates (Says (narrowed text)) (printf fw (text ++ rest) args) :=
  fun world => printf_begins fw (pieces_text ordinary rest args) (output_pieces_text _ text world)

theorem perror_message (message : List UInt16) (status : EfiStatus) :
    Relates (Says (narrowed message)) (perror fw message status) := by
  intro world
  have format : wide "%s: %s\r\n" = percent :: letterS :: wide ": %s\r\n" := by decide +kernel
  have split : pieces (wide "%s: %s\r\n") [.wideText message, .wideText (strerror status)] =
      [.conversion letterS (.wideText message)] ++ pieces (wide ": %s\r\n") [.wideText (strerror status)] := by
    rw [format, pieces_conversion rfl]
    exact List.singleton_append.symm
  refine printf_begins fw split ?_
  exact output_writeArg (.wideText message) world

/-- A message with a number behind its first text. -/
theorem printf_number {text tail : List UInt16} (ordinary : ∀ c ∈ text, c ≠ percent)
    (plain : ∀ c ∈ tail, c ≠ percent) (rest : List UInt16) {num : Nat} (bounded : num < 2 ^ 64)
    (args : List Arg) :
    Relates (Says (narrowed text ++ (numberText 10 num ++ narrowed tail)))
      (printf fw (text ++ percent :: UInt16.ofNat 117 :: (tail ++ rest)) (.num num :: args)) := by
  intro world
  have split : pieces (text ++ percent :: UInt16.ofNat 117 :: (tail ++ rest)) (.num num :: args) =
      (text.map (fun c => .verbatim [c]) ++ (.conversion (UInt16.ofNat 117) (.num num) ::
        tail.map fun c => .verbatim [c])) ++ pieces rest args := by
    rw [pieces_text ordinary, pieces_conversion rfl, pieces_text plain, List.append_assoc, List.cons_append]
  have written (middle : World) :
      output (runPiece (printfNarrow fw) (.conversion (UInt16.ofNat 117) (.num num)) middle).2.console =
        output middle.console ++ numberText 10 num :=
    output_writeNumber middle.console (by omega) bounded
  refine printf_begins fw split ?_
  rw [runPieces_append, runPieces, bind_apply, output_pieces_text, written, output_pieces_text]
  simp only [List.append_assoc]

/-! Before the exit, the pool is silent. -/

theorem malloc_silent (size : Nat) : Relates Silent (malloc fw size) := by
  intro world early
  rw [malloc_apply fw size world early]
  split <;> exact ⟨early, rfl⟩

theorem free_silent (ptr : Nat) : Relates Silent (free fw ptr) := by
  intro world early
  rw [free_apply fw ptr world early]
  split <;> exact ⟨early, rfl⟩

theorem silent_opens {Result : Type} {program : Boot Result} (silent : Relates Silent program)
    (text : List UInt8) : Relates (Opens text) program :=
  silent.mono fun _ _ => Silent.opens

theorem service_silent {ρ : Type} (answer : History → ρ) (event : ρ → Event) :
    Relates Silent (service answer event) :=
  fun _ early => ⟨early, rfl⟩

theorem inRam_silent {α : Type} (program : Prog Ram α) : Relates Silent (inRam program) :=
  fun _ early => ⟨early, rfl⟩

/-- Printing leaves the exit flag alone. -/
theorem printf_early (format : List UInt16) (args : List Arg) (world : World) :
    (printf fw format args world).2.bsExited = world.bsExited :=
  ((calls_absorbs fw fun _ => trivial : Absorbs fw (Calls fun _ => True)).printf format args world).bsExited

theorem perror_opens (message : List UInt16) (status : EfiStatus) :
    Relates (Opens (narrowed message)) (perror fw message status) := by
  intro world early
  exact ⟨(printf_early fw _ _ world).trans early, Or.inr (perror_message fw message status world)⟩

theorem printf_opens {text format : List UInt16} (ordinary : ∀ c ∈ text, c ≠ percent)
    (starts : text <+: format) (args : List Arg) : Relates (Opens (narrowed text)) (printf fw format args) := by
  obtain ⟨rest, rfl⟩ := starts
  intro world early
  exact ⟨(printf_early fw _ _ world).trans early, Or.inr (printf_text fw ordinary rest args world)⟩

end Library

end Wboot.PrintfOutput
