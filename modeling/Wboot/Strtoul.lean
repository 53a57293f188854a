import Mathlib.Data.List.Forall2
import Wboot.Numerals
import Wboot.Wstdlib

/-! The digits that strtoul reads, in any base. The loop goes on as long as a byte
stands for a digit of the base, and what it has read is the value of those digits,
reduced to 64 bits. -/

namespace Wboot.Strtoul
open ByteMemory CString Numerals Machine Wstdlib

/-- The bytes stand for these digits of the base. -/
def Spells (base : Nat) : List UInt8 → List Nat → Prop :=
  List.Forall₂ fun c digit => digitOf c = some digit ∧ digit < base

/-- The byte, a terminator or any other, ends a numeral. -/
def Stops (base : Nat) (c : UInt8) : Prop := ∀ digit, digitOf c = some digit → base ≤ digit

theorem stops_terminator (base : Nat) : Stops base 0 := fun _ value => by cases value

variable {base : Nat}

/-- A byte that is not spelled in the base stops the loop. -/
theorem stops_iff (c : UInt8) : Stops base c ↔ ¬ ∃ digit, digitOf c = some digit ∧ digit < base := by
  simp only [Stops, not_exists, not_and, Nat.not_lt]

theorem spells_map {text : List UInt8} {digit : UInt8 → Nat}
    (each : ∀ c ∈ text, digitOf c = some (digit c) ∧ digit c < base) : Spells base text (text.map digit) := by
  refine List.forall₂_map_right_iff.mpr (List.forall₂_same.mpr ?_)
  exact each

/-! ### The loop over a list -/

theorem strtoulLoop_digit {c : UInt8} {digit : Nat} (value : digitOf c = some digit) (small : digit < base)
    (result : Nat) (rest : List UInt8) :
    strtoulLoop base result (c :: rest) = strtoulLoop base (u64 (result * base + digit)) rest := by
  have goes : ¬ digit ≥ base := by omega
  simp only [strtoulLoop, value, if_neg goes]

theorem strtoulLoop_stop {c : UInt8} (stops : Stops base c) (result : Nat) (rest : List UInt8) :
    strtoulLoop base result (c :: rest) = (result, c :: rest) := by
  cases value : digitOf c with
  | none => simp only [strtoulLoop, value]
  | some digit =>
      have large : digit ≥ base := stops digit value
      simp only [strtoulLoop, value, if_pos large]

/-- The accumulator may wrap; it stays the value of what has been read, modulo 2^64. -/
theorem u64_accumulated (result digit : Nat) : u64 (u64 result * base + digit) = u64 (result * base + digit) := by
  unfold u64
  rw [Nat.add_mod, Nat.mod_mul_mod, ← Nat.add_mod]

theorem strtoulLoop_digits {text : List UInt8} {digits : List Nat} (spells : Spells base text digits)
    (result : Nat) (rest : List UInt8) :
    strtoulLoop base (u64 result) (text ++ rest) =
      strtoulLoop base (u64 (valueFrom base result digits)) rest := by
  induction spells generalizing result with
  | nil => rfl
  | cons first _ ih =>
      rw [List.cons_append, strtoulLoop_digit first.1 first.2, u64_accumulated, ih, valueFrom_cons]

/-! ### The loop over memory -/

/-- `strtoul` as it goes over memory: the number, and what is stored through `endptr`. -/
def strtoulFrom (memory : Memory) (base : Nat) : Nat → Nat → Nat → Nat × Nat
  | 0, result, str => (result, str)
  | fuel + 1, result, str =>
      if memory str = 0 then (result, str)
      else match digitOf (memory str) with
        | none => (result, str)
        | some digit =>
            if digit ≥ base then (result, str)
            else strtoulFrom memory base fuel (u64 (result * base + digit)) (str + 1)

def strtoulAt (memory : Memory) (str base : Nat) : Nat × Nat := strtoulFrom memory base addressSpace 0 str

section Memory
variable {memory : Memory}

theorem strtoulFrom_stop {str : Nat} (stops : Stops base (memory str)) (fuel result : Nat) :
    strtoulFrom memory base fuel result str = (result, str) := by
  cases fuel with
  | zero => rfl
  | succ fuel =>
      unfold strtoulFrom
      split
      · rfl
      · cases value : digitOf (memory str) with
        | none => rfl
        | some digit => exact if_pos (stops digit value)

theorem strtoulFrom_digit {str digit : Nat} (value : digitOf (memory str) = some digit) (small : digit < base)
    (fuel result : Nat) :
    strtoulFrom memory base (fuel + 1) result str =
      strtoulFrom memory base fuel (u64 (result * base + digit)) (str + 1) := by
  have present : memory str ≠ 0 := by
    intro ended
    rw [ended] at value
    cases value
  have goes : ¬ digit ≥ base := by omega
  simp only [strtoulFrom, if_neg present, value, if_neg goes]

theorem strtoulFrom_digits {text : List UInt8} {digits : List Nat} (spells : Spells base text digits)
    {str fuel : Nat} (result : Nat) (enough : text.length ≤ fuel) (here : TextAt memory str text)
    (stops : Stops base (memory (str + text.length))) :
    strtoulFrom memory base fuel (u64 result) str = (u64 (valueFrom base result digits), str + text.length) := by
  induction spells generalizing str fuel result with
  | nil => exact strtoulFrom_stop stops fuel (u64 result)
  | @cons c digit rest digits first _ ih =>
      obtain ⟨same, later⟩ := here
      obtain ⟨fuel, rfl⟩ : ∃ less, fuel = less + 1 := ⟨fuel - 1, by rw [List.length_cons] at enough; omega⟩
      have next : str + 1 + rest.length = str + (c :: rest).length := by rw [List.length_cons]; omega
      rw [strtoulFrom_digit (same.symm ▸ first.1) first.2, u64_accumulated,
        ih _ (Nat.le_of_succ_le_succ enough) later (next ▸ stops), valueFrom_cons, next]

/-- Digits that stand in memory, with anything behind them that is no further digit. -/
theorem strtoulAt_digits {text : List UInt8} {digits : List Nat} (spells : Spells base text digits) {str : Nat}
    (bounded : text.length ≤ addressSpace) (here : TextAt memory str text)
    (stops : Stops base (memory (str + text.length))) :
    strtoulAt memory str base = (u64 (valueOf base digits), str + text.length) :=
  strtoulFrom_digits spells 0 bounded here stops

/-- On a terminated string it is the loop over the characters of the string. -/
theorem strtoulFrom_string {text : List UInt8} {str fuel : Nat} (result : Nat) (enough : text.length ≤ fuel)
    (here : StringAt memory str text) :
    (strtoulFrom memory base fuel result str).1 = (strtoulLoop base result text).1 ∧
      StringAt memory (strtoulFrom memory base fuel result str).2 (strtoulLoop base result text).2 := by
  induction text generalizing str fuel result with
  | nil =>
      have stops : Stops base (memory str) := (show memory str = 0 from here) ▸ stops_terminator base
      rw [strtoulFrom_stop stops]
      exact ⟨rfl, here⟩
  | cons c rest ih =>
      obtain ⟨same, nonzero, later⟩ := here
      obtain ⟨fuel, rfl⟩ : ∃ less, fuel = less + 1 := ⟨fuel - 1, by rw [List.length_cons] at enough; omega⟩
      by_cases goes : ∃ digit, digitOf c = some digit ∧ digit < base
      · obtain ⟨digit, value, small⟩ := goes
        rw [strtoulFrom_digit (same.symm ▸ value) small, strtoulLoop_digit value small]
        exact ih _ (Nat.le_of_succ_le_succ enough) later
      · have stops : Stops base c := (stops_iff c).mpr goes
        rw [strtoulFrom_stop (same.symm ▸ stops), strtoulLoop_stop stops]
        exact ⟨rfl, same, nonzero, later⟩

theorem strtoulAt_string {text : List UInt8} {str : Nat} (bounded : text.length ≤ addressSpace)
    (here : StringAt memory str text) :
    (strtoulAt memory str base).1 = (strtoul text base).1 ∧
      StringAt memory (strtoulAt memory str base).2 (strtoul text base).2 :=
  strtoulFrom_string 0 bounded here

end Memory

end Wboot.Strtoul
