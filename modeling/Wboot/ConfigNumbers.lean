import Wboot.ConfigLines
import Wboot.Strtoul

/-! The numbers of a configuration. `parse_u32` adds the digits up in 64 bits and
checks the range of what is left, so the number it stores is the one in the file
unless the digits wrap around to something small. -/

namespace Wboot.ConfigNumbers
open StateProgram ByteMemory CString Tokens Numerals Machine Wstdlib Strtoul ConfigParser ConfigGrammar ConfigLines

/-- The result of `parse_u32` and what is in `*out` behind it. -/
def parseU32Into (value : List UInt8) (out : Nat) : Bool × Nat :=
  match parseU32 value with
  | some parsed => (true, parsed)
  | none => (false, out)

/-- The same where the string stands in memory, and `end` is where strtoul has stopped. -/
def parseU32At (memory : Memory) (value out : Nat) : Bool × Nat :=
  if value = 0 ∨ memory value = 0 then (false, out)
  else
    let (parsed, rest) := strtoulAt memory value 10
    if memory rest ≠ 0 ∨ parsed > 0xFFFFFFFF then (false, out) else (true, u32 parsed)

theorem stringAt_nil_iff {memory : Memory} {p : Nat} {text : List UInt8} (here : StringAt memory p text) :
    memory p = 0 ↔ text = [] := by
  cases text with
  | nil => exact iff_of_true here rfl
  | cons c rest => exact iff_of_false (fun ended => here.2.1 (here.1.symm.trans ended)) (List.cons_ne_nil c rest)

/-- What `parse_u32` makes of a string depends on its characters alone. -/
theorem parseU32At_string {memory : Memory} {value : Nat} {text : List UInt8} (out : Nat) (present : value ≠ 0)
    (bounded : text.length ≤ addressSpace) (here : StringAt memory value text) :
    parseU32At memory value out = parseU32Into text out := by
  obtain ⟨same, rest⟩ := @strtoulAt_string 10 memory text value bounded here
  have ended := stringAt_nil_iff rest
  have first := stringAt_nil_iff here
  unfold parseU32At parseU32Into parseU32
  dsimp only
  by_cases empty : text = []
  · rw [if_pos (Or.inr (first.mpr empty)), if_pos empty]
  rw [if_neg (not_or.mpr ⟨present, fun none => empty (first.mp none)⟩), if_neg empty, same]
  by_cases refused : (strtoul text 10).2 ≠ [] ∨ (strtoul text 10).1 > 0xFFFFFFFF
  · rw [if_pos (refused.imp_left fun left => fun none => left (ended.mp none)), if_pos refused]
  · rw [if_neg fun other => refused (other.imp_left fun left => fun none => left (ended.mpr none)), if_neg refused]

/-- TRUE and its number for a numeral of at most 32 bits; otherwise FALSE and `*out` as it was. -/
def ParsedExactly (text : List UInt8) : Prop :=
  ∀ out, parseU32Into text out =
    if IsDecimal text ∧ decimalValue text ≤ 0xFFFFFFFF then (true, decimalValue text) else (false, out)

/-- Digits for a number past 64 bits whose remainder fits into 32. -/
def WrapsAround (text : List UInt8) : Prop :=
  IsDecimal text ∧ 2 ^ 64 ≤ decimalValue text ∧ decimalValue text % 2 ^ 64 ≤ 0xFFFFFFFF

instance (text : List UInt8) : Decidable (WrapsAround text) := inferInstanceAs (Decidable (_ ∧ _))

theorem digitOf_decimal (c : UInt8) (digit : Nat) :
    (digitOf c = some digit ∧ digit < 10) ↔ (48 ≤ c.toNat ∧ c.toNat ≤ 57) ∧ digit = c.toNat - 48 := by
  unfold digitOf
  split_ifs with decimal lower upper
  · simp only [Option.some.injEq]
    omega
  · simp only [Option.some.injEq]
    omega
  · simp only [Option.some.injEq]
    omega
  · simp [decimal]

theorem spells_decimal {text : List UInt8} (digits : ∀ c ∈ text, 48 ≤ c.toNat ∧ c.toNat ≤ 57) :
    Spells 10 text (text.map fun c => c.toNat - 48) :=
  spells_map fun c member => (digitOf_decimal c _).mpr ⟨digits c member, rfl⟩

theorem stops_decimal {c : UInt8} (other : ¬ (48 ≤ c.toNat ∧ c.toNat ≤ 57)) : Stops 10 c := by
  refine (stops_iff c).mpr ?_
  rintro ⟨digit, value⟩
  exact other ((digitOf_decimal c digit).mp value).1

/-- The loop runs to the end exactly on digits. -/
theorem strtoulLoop_end (result : Nat) (text : List UInt8) :
    (strtoulLoop 10 result text).2 = [] ↔ ∀ c ∈ text, 48 ≤ c.toNat ∧ c.toNat ≤ 57 := by
  induction text generalizing result with
  | nil => simp [strtoulLoop]
  | cons c rest ih =>
      by_cases decimal : 48 ≤ c.toNat ∧ c.toNat ≤ 57
      · obtain ⟨value, small⟩ := (digitOf_decimal c (c.toNat - 48)).mpr ⟨decimal, rfl⟩
        rw [strtoulLoop_digit value small, ih, List.forall_mem_cons]
        exact ⟨fun later => ⟨decimal, later⟩, fun all => all.2⟩
      · rw [strtoulLoop_stop (stops_decimal decimal)]
        simp [decimal]

theorem strtoulLoop_value (result : Nat) {text : List UInt8}
    (digits : ∀ c ∈ text, 48 ≤ c.toNat ∧ c.toNat ≤ 57) :
    (strtoulLoop 10 (u64 result) text).1 =
      valueFrom 10 result (text.map fun c => c.toNat - 48) % 2 ^ 64 := by
  have read := strtoulLoop_digits (spells_decimal digits) result []
  rw [List.append_nil] at read
  rw [read]
  rfl

/-- What is accepted, and as what. -/
theorem parseU32_eq (text : List UInt8) :
    parseU32 text =
      if IsDecimal text ∧ decimalValue text % 2 ^ 64 ≤ 0xFFFFFFFF then
        some (decimalValue text % 2 ^ 64)
      else none := by
  unfold parseU32 strtoul
  dsimp only
  by_cases empty : text = []
  · rw [if_pos empty, if_neg fun accepted => accepted.1.1 empty]
  by_cases digits : ∀ c ∈ text, 48 ≤ c.toNat ∧ c.toNat ≤ 57
  · have rest := (strtoulLoop_end 0 text).mpr digits
    have value : (strtoulLoop 10 0 text).1 = decimalValue text % 2 ^ 64 := strtoulLoop_value 0 digits
    have decimal : IsDecimal text := ⟨empty, digits⟩
    rw [if_neg empty, rest, value]
    generalize decimalValue text % 2 ^ 64 = parsed
    by_cases fits : parsed ≤ 0xFFFFFFFF
    · have kept : u32 parsed = parsed := Nat.mod_eq_of_lt (by omega)
      rw [if_neg (by simpa using fits), if_pos ⟨decimal, fits⟩, kept]
    · rw [if_pos (Or.inr (by omega)), if_neg fun accepted => fits accepted.2]
  · have rest : (strtoulLoop 10 0 text).2 ≠ [] := fun ended => digits ((strtoulLoop_end 0 text).mp ended)
    rw [if_neg empty, if_pos (Or.inl rest), if_neg fun accepted => digits accepted.1.2]

/-- A stored number is the remainder of the one that was written. -/
theorem parseU32_some {text : List UInt8} {parsed : Nat} (accepted : parseU32 text = some parsed) :
    parsed = decimalValue text ↔ ¬ WrapsAround text := by
  rw [parseU32_eq] at accepted
  split_ifs at accepted with fits
  cases accepted
  obtain ⟨decimal, small⟩ := fits
  unfold WrapsAround
  constructor
  · rintro same ⟨-, large, -⟩
    omega
  · intro apart
    by_contra other
    exact apart ⟨decimal, by omega, small⟩

theorem parsedExactly_iff (text : List UInt8) : ParsedExactly text ↔ ¬ WrapsAround text := by
  unfold ParsedExactly parseU32Into
  cases accepted : parseU32 text with
  | some parsed =>
      rw [← parseU32_some accepted]
      rw [parseU32_eq] at accepted
      split_ifs at accepted with fits
      cases accepted
      obtain ⟨decimal, small⟩ := fits
      constructor
      · intro exact
        have stored := exact 0
        dsimp only at stored
        split_ifs at stored
        · exact congrArg Prod.snd stored
        · cases stored
      · intro same out
        rw [if_pos ⟨decimal, same ▸ small⟩]
        exact congrArg (Prod.mk true) same
  | none =>
      rw [parseU32_eq] at accepted
      split_ifs at accepted with fits
      refine ⟨fun _ wraps => fits ⟨wraps.1, wraps.2.2⟩, fun _ out => (if_neg ?_).symm⟩
      rintro ⟨decimal, small⟩
      exact fits ⟨decimal, by omega⟩

/-! The mode line. -/

/-- The words for the width, the height and the depth; the format lies between. -/
def numberWords (text : List UInt8) : List (List UInt8) :=
  (tokens isBlank text).take 2 ++ (tokens isBlank text).drop 3

structure StoresNumbers (text : List UInt8) (config : WbootConfig) : Prop where
  width : ∀ word ∈ (tokens isBlank text)[0]?, config.modeWidth = decimalValue word
  height : ∀ word ∈ (tokens isBlank text)[1]?, config.modeHeight = decimalValue word
  depth : config.modeDepth = (tokens isBlank text)[3]?.elim 0 decimalValue

theorem modeFrom_some {w h : List UInt8} {f d : Option (List UInt8)} {mode : Mode}
    (found : modeFrom w h f d = some mode) :
    parseU32 w = some mode.width ∧ parseU32 h = some mode.height ∧
      d.elim (some 0) parseU32 = some mode.depth := by
  unfold modeFrom at found
  split at found
  · next width height format depth =>
      cases found
      exact ⟨width, height, depth⟩
  · cases found

/-- The numbers are stored as written unless one of them wraps around. -/
theorem storesNumbers_iff {text : List UInt8} {mode : Mode} (config : WbootConfig)
    (found : modeOf text = some mode) :
    StoresNumbers text (withMode config mode) ↔ ∀ word ∈ numberWords text, ¬ WrapsAround word := by
  have iff : StoresNumbers text (withMode config mode) ↔
      (∀ word ∈ (tokens isBlank text)[0]?, mode.width = decimalValue word) ∧
      (∀ word ∈ (tokens isBlank text)[1]?, mode.height = decimalValue word) ∧
      mode.depth = (tokens isBlank text)[3]?.elim 0 decimalValue :=
    ⟨fun stores => ⟨stores.width, stores.height, stores.depth⟩, fun ⟨width, height, depth⟩ =>
      ⟨width, height, depth⟩⟩
  rw [iff]
  unfold numberWords
  unfold modeOf at found
  split at found
  · next w h pieces =>
      obtain ⟨width, height, depth⟩ := modeFrom_some found
      have none : mode.depth = 0 := (Option.some.inj depth).symm
      simp [pieces, parseU32_some width, parseU32_some height, none]
  · next w h f pieces =>
      obtain ⟨width, height, depth⟩ := modeFrom_some found
      have none : mode.depth = 0 := (Option.some.inj depth).symm
      simp [pieces, parseU32_some width, parseU32_some height, none]
  · next w h f d pieces =>
      obtain ⟨width, height, depth⟩ := modeFrom_some found
      simp [pieces, parseU32_some width, parseU32_some height, parseU32_some depth]
  · cases found

/-- `parse_u32` keeps to its law exactly on the texts that do not wrap around, and a
mode line that is accepted leaves the numbers it was written with exactly when none of
its numbers does. -/
theorem numbers_exact_iff (word : List UInt8) (fw : Firmware) (config stored : WbootConfig)
    (value lineNo : Nat) (text : List UInt8) (before after : World) :
    (ParsedExactly word ↔ ¬ WrapsAround word) ∧
      (value ≠ 0 → text.length < addressSpace → StringAt before.mem value text →
        parseConfigMode fw config value lineNo before = (some stored, after) →
        (StoresNumbers text stored ↔ ∀ number ∈ numberWords text, ¬ WrapsAround number)) := by
  refine ⟨parsedExactly_iff word, ?_⟩
  intro present bounded here run
  rcases parseConfigMode_run present bounded here run with ⟨-, refused, -⟩ | ⟨mode, found, same, -, -⟩
  · cases refused
  · cases same
    exact storesNumbers_iff config found

def worldWith (line : List UInt8) : World :=
  { bootWorld with mem := storeBytes bootWorld.mem 16 (line ++ [0]) }

def modeLine : List UInt8 := ascii "1024 768 -1 32"

theorem mode_line_numbers : ¬ WrapsAround modeLine ∧ ∃ stored,
    (parseConfigMode idleFirmware (emptyConfig 1) 16 1 (worldWith modeLine)).1 = some stored ∧
      StoresNumbers modeLine stored := by
  have accepted : (parseConfigMode idleFirmware (emptyConfig 1) 16 1 (worldWith modeLine)).1.isSome = true := by
    decide +kernel
  obtain ⟨stored, found⟩ := Option.isSome_iff_exists.mp accepted
  have here : StringAt (worldWith modeLine).mem 16 modeLine :=
    (stringAt_iff _ _ _).mpr ⟨((textAt_append _ _ _ _).mp (textAt_storeBytes _ _ _)).1, by decide, by decide⟩
  have run : parseConfigMode idleFirmware (emptyConfig 1) 16 1 (worldWith modeLine) =
      (some stored, (parseConfigMode idleFirmware (emptyConfig 1) 16 1 (worldWith modeLine)).2) := by
    rw [← found]
  have bounded : modeLine.length < addressSpace := by
    rw [addressSpace_eq]
    decide
  obtain ⟨-, stores⟩ := numbers_exact_iff modeLine idleFirmware (emptyConfig 1) stored 16 1 modeLine
    (worldWith modeLine) _
  have same := stores (by decide) bounded here run
  exact ⟨by decide, stored, found, same.mpr (by decide)⟩

/-- 2^64 is read as 0, and a mode line stores it so. -/
theorem two_to_64_parsed_as_zero :
    (¬ ∀ text, ParsedExactly text) ∧ parseU32 (ascii "18446744073709551616") = some 0 ∧
      (parseConfigMode idleFirmware (emptyConfig 1) 16 1
        (worldWith (ascii "18446744073709551616 768"))).1.map WbootConfig.modeWidth = some 0 := by
  refine ⟨fun exact => ?_, by decide, by decide +kernel⟩
  have law := (parsedExactly_iff (ascii "18446744073709551616")).mp (exact _)
  exact law (by decide)

end Wboot.ConfigNumbers
