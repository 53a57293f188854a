import Wboot.PrintfOutput

/-! The messages of the configuration parser that name a line, and how they differ
from everything else it prints. -/

namespace Wboot.ConfigMessages
open StateProgram Numerals Machine Wstdlib PrintfPieces PrintfOutput

def lineStart : List UInt8 := ascii "error parsing wboot.conf line "

/-- What is printed is `error parsing wboot.conf line N: …`. -/
def PrintsLine (number : Nat) (before after : World) : Prop :=
  ∃ digits, IsDecimal digits ∧ decimalValue digits = number ∧
    Says (lineStart ++ (digits ++ ascii ": ")) before after

/-- Every such message is printed by a format that starts like this. -/
def numberedStart : List UInt16 :=
  wide "error parsing wboot.conf line " ++ percent :: UInt16.ofNat 117 :: wide ": "

section Numbers
variable {before middle after : World} {number : Nat}

theorem printf_line (fw : Firmware) {format : List UInt16} (starts : numberedStart <+: format)
    (bounded : number < 2 ^ 64) (args : List Arg) :
    Relates (PrintsLine number) (printf fw format (.num number :: args)) := by
  obtain ⟨rest, rfl⟩ := starts
  intro world
  obtain ⟨decimal, value⟩ := numberText_decimal number
  have ordinary : ∀ c ∈ wide "error parsing wboot.conf line ", c ≠ percent := by decide +kernel
  have plain : ∀ c ∈ wide ": ", c ≠ percent := by decide +kernel
  have told := printf_number fw ordinary plain rest bounded args world
  have first : narrowed (wide "error parsing wboot.conf line ") = lineStart := by decide +kernel
  have last : narrowed (wide ": ") = ascii ": " := by decide +kernel
  rw [first, last] at told
  exact ⟨_, decimal, value, by simpa [numberedStart] using told⟩

/-- The line is named, if its number is a UINTN. -/
def NamesLine (number : Nat) (before after : World) : Prop := number < 2 ^ 64 → PrintsLine number before after

theorem printf_names (fw : Firmware) {format : List UInt16} (starts : numberedStart <+: format)
    (number : Nat) (args : List Arg) : Relates (NamesLine number) (printf fw format (.num number :: args)) :=
  fun world bounded => printf_line fw starts bounded args world

theorem PrintsLine.followed (line : PrintsLine number before middle) (adds : Adds middle after) :
    PrintsLine number before after := by
  obtain ⟨digits, decimal, value, told⟩ := line
  exact ⟨digits, decimal, value, told.followed adds⟩

theorem PrintsLine.preceded (same : output middle.console = output before.console)
    (line : PrintsLine number middle after) : PrintsLine number before after := by
  obtain ⟨digits, decimal, value, told⟩ := line
  exact ⟨digits, decimal, value, told.preceded same⟩

theorem NamesLine.preceded (same : middle.console = before.console) (line : NamesLine number middle after) :
    NamesLine number before after :=
  fun bounded => (line bounded).preceded (by rw [same])

/-- The digits end at the colon, so the number can be read off. -/
theorem PrintsLine.unique {other : Nat} (line : PrintsLine number before after)
    (also : PrintsLine other before after) : number = other := by
  obtain ⟨digits, ⟨-, decimal⟩, value, rest, here⟩ := line
  obtain ⟨others, ⟨-, otherDecimal⟩, otherValue, more, there⟩ := also
  have same : digits ++ (ascii ": " ++ rest) = others ++ (ascii ": " ++ more) := by
    have whole := List.append_cancel_left (here.symm.trans there)
    simpa only [List.append_assoc, List.append_cancel_left_eq] using whole
  have isDigit (text : List UInt8) (digits : ∀ c ∈ text, 48 ≤ c.toNat ∧ c.toNat ≤ 57) (rest : List UInt8) :
      (text ++ (ascii ": " ++ rest)).takeWhile (fun c => 48 ≤ c.toNat ∧ c.toNat ≤ 57) = text := by
    have stops : (ascii ": " ++ rest).takeWhile (fun c => 48 ≤ c.toNat ∧ c.toNat ≤ 57) = [] := by
      simp [ascii]
    rw [List.takeWhile_append_of_pos (by simpa using digits), stops, List.append_nil]
  have equal : digits = others := by
    rw [← isDigit digits decimal rest, same, isDigit others otherDecimal more]
  rw [← value, ← otherValue, equal]

/-- No line is named, at least while boot services are there. -/
def NamesNoLine (before after : World) : Prop :=
  before.bsExited = false → ∀ number, ¬ PrintsLine number before after

theorem NamesNoLine.preceded (silent : Silent before middle) (nameless : NamesNoLine middle after) :
    NamesNoLine before after := by
  intro early number line
  obtain ⟨still, same⟩ := silent early
  refine nameless still number ?_
  obtain ⟨digits, decimal, value, rest, here⟩ := line
  exact ⟨digits, decimal, value, rest, by rw [here, same]⟩

theorem NamesNoLine.followed (nameless : NamesNoLine before middle)
    (same : output after.console = output middle.console) : NamesNoLine before after := by
  rintro early number ⟨digits, decimal, value, rest, here⟩
  exact nameless early number ⟨digits, decimal, value, rest, by rw [← same, here]⟩

theorem Opens.namesNoLine {text : List UInt8} (opens : Opens text before after)
    (clash : Clash text lineStart) : NamesNoLine before after := by
  rintro early number ⟨digits, decimal, -, told⟩
  obtain ⟨rest, here⟩ := told
  rcases (opens early).2 with same | other
  · have longer := congrArg List.length (same.symm.trans here)
    simp [lineStart, ascii] at longer
  · exact other.clash clash ⟨digits ++ ascii ": " ++ rest, by simpa only [List.append_assoc] using here⟩

end Numbers

end Wboot.ConfigMessages
