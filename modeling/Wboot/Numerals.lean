import Mathlib.Data.Nat.Log
import Mathlib.Tactic.Ring

/-! Numbers written with the most significant digit first, in any base. A digit is
its value; only decimal text has a look of its own. -/

namespace Numerals

/-- What reading further digits makes of the value read so far. -/
def valueFrom (base start : Nat) (digits : List Nat) : Nat :=
  digits.foldl (fun value digit => value * base + digit) start

def valueOf (base : Nat) (digits : List Nat) : Nat := valueFrom base 0 digits

theorem valueFrom_cons (base start digit : Nat) (digits : List Nat) :
    valueFrom base start (digit :: digits) = valueFrom base (start * base + digit) digits := rfl

/-- The last `count` digits. -/
def places (base num : Nat) : Nat → List Nat
  | 0 => []
  | count + 1 => num / base ^ count % base :: places base num count

/-- All digits, and one for zero. -/
def numeral (base num : Nat) : List Nat := places base num (Nat.log base num + 1)

theorem places_lt {base : Nat} (positive : 0 < base) (num count : Nat) :
    ∀ digit ∈ places base num count, digit < base := by
  induction count with
  | zero => simp [places]
  | succ count ih => exact List.forall_mem_cons.mpr ⟨Nat.mod_lt _ positive, ih⟩

theorem valueFrom_places (base start num count : Nat) :
    valueFrom base start (places base num count) = start * base ^ count + num % base ^ count := by
  induction count generalizing start with
  | zero => simp [places, valueFrom, Nat.mod_one]
  | succ count ih =>
      rw [places, valueFrom_cons, ih, Nat.mod_pow_succ]
      ring

theorem valueOf_numeral {base : Nat} (large : 1 < base) (num : Nat) : valueOf base (numeral base num) = num := by
  have fits : num < base ^ (Nat.log base num + 1) := Nat.lt_pow_succ_log_self large num
  rw [valueOf, numeral, valueFrom_places, Nat.zero_mul, Nat.zero_add, Nat.mod_eq_of_lt fits]

theorem places_low (base num count : Nat) :
    places base num (count + 1) = places base (num / base) count ++ [num % base] := by
  induction count with
  | zero => simp [places]
  | succ count ih =>
      have high : num / base ^ (count + 1) = num / base / base ^ count := by
        rw [Nat.div_div_eq_div_mul, Nat.pow_succ, Nat.mul_comm]
      rw [places, ih, high]
      rfl

/-- The digits as characters are the usual ones. -/
theorem numeral_toDigits {base : Nat} (large : 1 < base) (num : Nat) :
    (numeral base num).map Nat.digitChar = Nat.toDigits base num := by
  induction num using Nat.strong_induction_on with
  | _ num ih =>
      by_cases more : base ≤ num
      · have smaller : num / base < num := Nat.div_lt_self (by omega) large
        rw [Nat.toDigits_of_base_le large more, ← ih _ smaller, numeral, Nat.log_of_one_lt_of_le large more,
          places_low, List.map_append]
        rfl
      · rw [Nat.toDigits_of_lt_base (by omega), numeral, Nat.log_of_lt (by omega)]
        simp [places, Nat.mod_eq_of_lt (Nat.lt_of_not_le more)]

/-- Places above the number are zeros. -/
theorem places_pad {base num count : Nat} (fits : num < base ^ count) (positive : 0 < base) (extra : Nat) :
    places base num (extra + count) = List.replicate extra 0 ++ places base num count := by
  induction extra with
  | zero => simp
  | succ extra ih =>
      have wide : num < base ^ (extra + count) :=
        Nat.lt_of_lt_of_le fits (Nat.pow_le_pow_right positive (Nat.le_add_left _ _))
      rw [Nat.succ_add, places, Nat.div_eq_of_lt wide, Nat.zero_mod, ih]
      rfl

theorem places_length (base num count : Nat) : (places base num count).length = count := by
  induction count with
  | zero => rfl
  | succ count ih => rw [places, List.length_cons, ih]

theorem numeral_length (base num : Nat) : (numeral base num).length = Nat.log base num + 1 :=
  places_length base num _

/-- Only zero begins with a zero. -/
theorem numeral_head {base num : Nat} (large : 1 < base) (zero : (numeral base num).head? = some 0) : num = 0 := by
  by_contra positive
  have begins : num / base ^ Nat.log base num % base = 0 := Option.some.inj zero
  have above : 0 < num / base ^ Nat.log base num :=
    Nat.div_pos (Nat.pow_log_le_self base positive) (Nat.pow_pos (by omega))
  have below : num / base ^ Nat.log base num < base :=
    Nat.div_lt_of_lt_mul (by rw [← Nat.pow_succ]; exact Nat.lt_pow_succ_log_self large num)
  rw [Nat.mod_eq_of_lt below] at begins
  omega

/-- A number filled up to a width. -/
theorem places_leftpad {base num width : Nat} (large : 1 < base) (fits : num < base ^ width) (some : 0 < width) :
    (places base num width).map Nat.digitChar = (Nat.toDigits base num).leftpad width '0' := by
  have short : Nat.log base num < width := by
    by_cases zero : num = 0
    · rw [zero, Nat.log_zero_right]
      exact some
    · exact Nat.log_lt_of_lt_pow zero fits
  have length := numeral_length base num
  have split : width = (width - (Nat.log base num + 1)) + (Nat.log base num + 1) := by omega
  rw [← numeral_toDigits large, List.leftpad, List.length_map, length]
  conv_lhs => rw [split]
  rw [places_pad (Nat.lt_pow_succ_log_self large num) (by omega), List.map_append, List.map_replicate]
  rfl

/-! ### Decimal text -/

def IsDecimal (text : List UInt8) : Prop := text ≠ [] ∧ ∀ c ∈ text, 48 ≤ c.toNat ∧ c.toNat ≤ 57

instance (text : List UInt8) : Decidable (IsDecimal text) := inferInstanceAs (Decidable (_ ∧ _))

/-- The number that digits denote, of any size. -/
def decimalValue (text : List UInt8) : Nat := valueOf 10 (text.map fun c => c.toNat - 48)

end Numerals
