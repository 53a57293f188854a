import Wboot.PrintfElements
import Wboot.Strtoul

/-! Numbers printed and read again. `%u` and `%x` print a number as it is usually
written, `%p` fills it up to sixteen digits, and strtoul finds the number in those
digits and stops behind them. -/

namespace Wboot.NumberRoundTrip
open ByteMemory CString Numerals StateProgram Machine Wstdlib PrintfPieces PrintfOutput PrintfElements Strtoul

def letterU : UInt16 := UInt16.ofNat 117
def letterX : UInt16 := UInt16.ofNat 120
def letterP : UInt16 := UInt16.ofNat 112

/-- The digits of a number as it is usually written, with `a` to `f` behind `9`. -/
def numeralBytes (base num : Nat) : List UInt8 := narrowed (digits base num)

/-- The sixteen digits of a pointer. -/
def pointerBytes (num : Nat) : List UInt8 :=
  narrowed (((Nat.toDigits 16 num).leftpad 16 '0').map fun c => UInt16.ofNat c.toNat)

/-! ### The leading divisor -/

/-- The rounds of the loop that looks for the leading divisor: `temp` and `divisor`. -/
inductive Round (base num : Nat) : Nat → Nat → Prop
  | start : Round base num num 1
  | next {temp divisor : Nat} (earlier : Round base num temp divisor) (more : temp ≥ base) :
      Round base num (temp / base) (u64 (divisor * base))

/-- The loop ends with what `leadingDivisor` says, and no round of it overflows. -/
def DivisorFits (base num : Nat) : Prop :=
  (∃ temp, temp < base ∧ Round base num temp (leadingDivisor base 65 num 1)) ∧
    ∀ temp divisor, Round base num temp divisor → temp ≥ base → divisor * base < 2 ^ 64

section Divisor
variable {base num : Nat}

/-- What the divisor counts in `temp` is part of the number. -/
theorem Round.fits (bounded : num < 2 ^ 64) {temp divisor : Nat}
    (round : Round base num temp divisor) : divisor * temp ≤ num := by
  induction round with
  | start => rw [Nat.one_mul]
  | @next temp divisor _ more ih =>
      have product : divisor * base ≤ divisor * temp := Nat.mul_le_mul_left divisor more
      have kept : u64 (divisor * base) = divisor * base := Nat.mod_eq_of_lt (by omega)
      have part : divisor * (base * (temp / base)) ≤ divisor * temp :=
        Nat.mul_le_mul_left divisor (Nat.mul_div_le temp base)
      rw [kept, Nat.mul_assoc]
      exact part.trans ih

theorem leadingDivisor_round (large : 1 < base) {fuel temp divisor : Nat} (enough : Nat.log base temp < fuel)
    (round : Round base num temp divisor) :
    ∃ last, last < base ∧ Round base num last (leadingDivisor base fuel temp divisor) := by
  induction fuel generalizing temp divisor with
  | zero => exact absurd enough (Nat.not_lt_zero _)
  | succ fuel ih =>
      unfold leadingDivisor
      by_cases more : temp ≥ base
      · have shorter : Nat.log base temp = Nat.log base (temp / base) + 1 := Nat.log_of_one_lt_of_le large more
        rw [if_pos more]
        exact ih (by omega) (round.next more)
      · rw [if_neg more]
        exact ⟨temp, Nat.lt_of_not_le more, round⟩

theorem divisor_fits (large : 1 < base) (bounded : num < 2 ^ 64) : DivisorFits base num := by
  have short : Nat.log base num < 65 := Nat.lt_succ_of_lt (log_lt_64 large bounded)
  refine ⟨leadingDivisor_round large short .start, fun temp divisor round more => ?_⟩
  have fits : divisor * temp ≤ num := round.fits bounded
  have product : divisor * base ≤ divisor * temp := Nat.mul_le_mul_left divisor more
  omega

end Divisor

/-! ### Printing -/

/-- The conversion prints the text, wherever it stands in a format and whatever waits
in the buffer, and the printing changes nothing else. -/
def Prints (c : UInt16) (num : Nat) (text : List UInt8) : Prop :=
  ∀ (narrow : Arg → Boot Unit) (format : List UInt16) (args : List Arg) (world : World), ∃ console,
    output console = output world.console ++ text ∧
      printfScan narrow (percent :: c :: format) (.num num :: args) world =
        printfScan narrow format args { world with console := console }

theorem scan_conversion (narrow : Arg → Boot Unit) {c : UInt16} (takes : takesArgument c = true)
    (format : List UInt16) (arg : Arg) (args : List Arg) :
    printfScan narrow (percent :: c :: format) (arg :: args) =
      convert c arg >>= fun _ => printfScan narrow format args := by
  rw [printfScan_pieces, pieces_conversion takes, printfScan_pieces]
  rfl

theorem prints_writer {c : UInt16} {num : Nat} {text : List UInt8} {writer : Console → Console}
    (takes : takesArgument c = true) (converts : convert c (.num num) = console writer)
    (writes : ∀ old, output (writer old) = output old ++ text) : Prints c num text := by
  intro narrow format args world
  refine ⟨writer world.console, writes world.console, ?_⟩
  rw [scan_conversion narrow takes, converts]
  rfl

theorem uintn_prints {num : Nat} (bounded : num < 2 ^ 64) : Prints letterU num (numeralBytes 10 num) :=
  prints_writer rfl rfl fun old => output_number old (by omega) (by omega) bounded

theorem hex_prints {num : Nat} (bounded : num < 2 ^ 64) : Prints letterX num (numeralBytes 16 num) :=
  prints_writer rfl rfl fun old => output_number old (by omega) (by omega) bounded

theorem pointer_prints {num : Nat} (bounded : num < 2 ^ 64) :
    Prints letterP num (ascii "0x" ++ pointerBytes num) := by
  have text : narrowed (pointerText num) = ascii "0x" ++ pointerBytes num := by
    rw [pointerText, narrowed, List.map_append]
    rfl
  exact prints_writer rfl rfl fun old => text ▸ output_pointer old bounded

/-! The digits are characters of the values they stand for. -/
section Digits
variable {base num : Nat}

theorem digitOf_digitChar {digit : Nat} (small : digit < 16) :
    digitOf (digitChar digit).toUInt8 = some digit := by
  revert digit
  decide

theorem spells_chars {places : List Nat} (small : base ≤ 16) (below : ∀ digit ∈ places, digit < base) :
    Spells base (places.map fun digit => (digitChar digit).toUInt8) places := by
  refine List.forall₂_map_left_iff.mpr (List.forall₂_same.mpr fun digit member => ?_)
  have fits : digit < base := below digit member
  exact ⟨digitOf_digitChar (by omega), fits⟩

theorem numeralBytes_spells (large : 1 < base) (small : base ≤ 16) :
    Spells base (numeralBytes base num) (numeral base num) := by
  rw [numeralBytes, ← digits_written large small]
  exact spells_chars small (places_lt (by omega) num _)

theorem pointerBytes_spells (bounded : num < 2 ^ 64) : Spells 16 (pointerBytes num) (places 16 num 16) := by
  rw [pointerBytes, ← pointer_written bounded]
  exact spells_chars (by omega) (places_lt (by omega) num _)

/-- No digit is printed in front of the number's own: only zero begins with 0. -/
theorem numeralBytes_head (large : 1 < base) (small : base ≤ 16)
    (zero : (numeralBytes base num).head? = some 48) : num = 0 := by
  rw [numeralBytes, ← digits_written large small, numberText, List.head?_map] at zero
  obtain ⟨digit, first, char⟩ := Option.map_eq_some_iff.mp zero
  have below : digit < base := places_lt (by omega) num _ digit (List.mem_of_mem_head? first)
  have value := digitOf_digitChar (show digit < 16 by omega)
  rw [char] at value
  cases value
  exact numeral_head large first

end Digits

/-! ### Reading -/

/-- strtoul finds the number where the text stands in memory, and stops behind it. -/
def ReadsBack (base num : Nat) (text : List UInt8) : Prop :=
  ∀ (memory : Memory) (str : Nat), TextAt memory str text → Stops base (memory (str + text.length)) →
    strtoulAt memory str base = (num, str + text.length)

theorem spelled_readsBack {base num : Nat} {text : List UInt8} {digits : List Nat}
    (spells : Spells base text digits) (short : digits.length ≤ 64) (bounded : num < 2 ^ 64)
    (value : valueOf base digits = num) : ReadsBack base num text := by
  intro memory str here stops
  have length : text.length = digits.length := spells.length_eq
  have fits : text.length ≤ addressSpace := by
    rw [addressSpace_eq]
    omega
  have kept : u64 num = num := Nat.mod_eq_of_lt bounded
  rw [strtoulAt_digits spells fits here stops, value, kept]

theorem numeral_readsBack {base num : Nat} (large : 1 < base) (small : base ≤ 16) (bounded : num < 2 ^ 64) :
    ReadsBack base num (numeralBytes base num) := by
  refine spelled_readsBack (numeralBytes_spells large small) ?_ bounded (valueOf_numeral large num)
  rw [numeral_length]
  exact log_lt_64 large bounded

theorem pointer_readsBack {num : Nat} (bounded : num < 2 ^ 64) : ReadsBack 16 num (pointerBytes num) := by
  have width : num < 16 ^ 16 := Nat.lt_of_lt_of_le bounded (by norm_num)
  refine spelled_readsBack (pointerBytes_spells bounded) ?_ bounded ?_
  · rw [places_length]
    omega
  · rw [valueOf, valueFrom_places, Nat.zero_mul, Nat.zero_add, Nat.mod_eq_of_lt width]

/-- What `%u`, `%x` and `%p` print for a number, and what strtoul makes of it. -/
theorem printed_numbers_read_back (num : Nat) (bounded : num < 2 ^ 64) :
    (∀ c base, (c, base) ∈ [(letterU, 10), (letterX, 16)] →
      Prints c num (numeralBytes base num) ∧ ((numeralBytes base num).head? = some 48 → num = 0) ∧
        DivisorFits base num ∧ ReadsBack base num (numeralBytes base num)) ∧
    Prints letterP num (ascii "0x" ++ pointerBytes num) ∧ (pointerBytes num).length = 16 ∧
      ReadsBack 16 num (pointerBytes num) := by
  have sixteen : (pointerBytes num).length = 16 := by
    rw [(pointerBytes_spells bounded).length_eq, places_length]
  refine ⟨?_, pointer_prints bounded, sixteen, pointer_readsBack bounded⟩
  intro c base member
  simp only [List.mem_cons, Prod.mk.injEq, List.not_mem_nil, or_false] at member
  rcases member with ⟨rfl, rfl⟩ | ⟨rfl, rfl⟩
  · exact ⟨uintn_prints bounded, numeralBytes_head (by omega) (by omega), divisor_fits (by omega) bounded,
      numeral_readsBack (by omega) (by omega) bounded⟩
  · exact ⟨hex_prints bounded, numeralBytes_head (by omega) (by omega), divisor_fits (by omega) bounded,
      numeral_readsBack (by omega) (by omega) bounded⟩

/-- The largest number: 2^64 - 1. -/
theorem largest_number_read_back :
    numeralBytes 10 (2 ^ 64 - 1) = ascii "18446744073709551615" ∧
      Prints letterU (2 ^ 64 - 1) (ascii "18446744073709551615") ∧
      strtoulAt (storeBytes (fun _ => 0) 16 (ascii "18446744073709551615")) 16 10 = (2 ^ 64 - 1, 36) := by
  have text : numeralBytes 10 (2 ^ 64 - 1) = ascii "18446744073709551615" := by decide +kernel
  obtain ⟨numerals, -⟩ := printed_numbers_read_back (2 ^ 64 - 1) (by decide)
  obtain ⟨prints, -, -, reads⟩ := numerals letterU 10 (by simp)
  rw [text] at prints reads
  refine ⟨text, prints, ?_⟩
  exact reads _ 16 (textAt_storeBytes _ _ _) (stops_terminator 10)

end Wboot.NumberRoundTrip
