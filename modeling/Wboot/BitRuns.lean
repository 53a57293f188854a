import Mathlib.Data.Finset.Card
import Mathlib.Data.Nat.Bitwise
import Mathlib.Order.Interval.Finset.Nat

/-! Contiguous runs of bits in natural numbers. A run is an interval of bit positions,
so masks that share no bit add up the lengths of their runs. -/

namespace BitRuns

/-- The positions below `width` that are set. -/
def bits (width mask : Nat) : Finset Nat := (Finset.range width).filter fun i => mask.testBit i

/-- Adjacent set bits, or none. -/
def Run (mask : Nat) : Prop := ∃ pos size, mask = (2 ^ size - 1) <<< pos

theorem run_testBit (pos size i : Nat) :
    ((2 ^ size - 1) <<< pos).testBit i = decide (pos ≤ i ∧ i < pos + size) := by
  rw [Nat.testBit_shiftLeft, Nat.testBit_two_pow_sub_one, ← Bool.decide_and, decide_eq_decide]
  omega

theorem mem_bits {width mask i : Nat} : i ∈ bits width mask ↔ i < width ∧ mask.testBit i = true := by
  simp [bits]

theorem bits_or (width left right : Nat) :
    bits width (left ||| right) = bits width left ∪ bits width right := by
  ext i
  simp only [Finset.mem_union, mem_bits, Nat.testBit_or, Bool.or_eq_true]
  tauto

theorem bits_disjoint (width : Nat) {left right : Nat} (apart : left &&& right = 0) :
    Disjoint (bits width left) (bits width right) := by
  refine Finset.disjoint_left.mpr fun i first second => ?_
  have both : (left &&& right).testBit i = true := by
    rw [Nat.testBit_and, (mem_bits.mp first).2, (mem_bits.mp second).2]
    rfl
  rw [apart, Nat.zero_testBit] at both
  exact Bool.noConfusion both

/-- Masks that share no bit have as many bits as all of them together. -/
theorem card_bits_or (width : Nat) {left right : Nat} (apart : left &&& right = 0) :
    (bits width (left ||| right)).card = (bits width left).card + (bits width right).card := by
  rw [bits_or, Finset.card_union_of_disjoint (bits_disjoint width apart)]

theorem and_or_zero {left right other : Nat} (first : left &&& other = 0) (second : right &&& other = 0) :
    (left ||| right) &&& other = 0 := by
  rw [Nat.and_or_distrib_right, first, second]
  rfl

theorem bits_eq_empty {width mask : Nat} (small : mask < 2 ^ width) : bits width mask = ∅ ↔ mask = 0 := by
  constructor
  · intro empty
    apply Nat.eq_of_testBit_eq
    intro i
    rw [Nat.zero_testBit]
    by_cases inside : i < width
    · by_contra set
      have member : i ∈ bits width mask := mem_bits.mpr ⟨inside, by simpa using set⟩
      rw [empty] at member
      exact absurd member (Finset.notMem_empty i)
    · exact Nat.testBit_lt_two_pow (Nat.lt_of_lt_of_le small
        (Nat.pow_le_pow_right (by decide) (Nat.le_of_not_lt inside)))
  · rintro rfl
    ext i
    simp [mem_bits]

section Interval
variable {width pos size : Nat}

/-- A run that fits the width ends in it. -/
theorem run_bounded (some : 0 < size) (small : (2 ^ size - 1) <<< pos < 2 ^ width) : pos + size ≤ width := by
  have last : ((2 ^ size - 1) <<< pos).testBit (pos + size - 1) = true := by
    rw [run_testBit]
    exact decide_eq_true ⟨by omega, by omega⟩
  by_contra beyond
  have clear : ((2 ^ size - 1) <<< pos).testBit (pos + size - 1) = false :=
    Nat.testBit_lt_two_pow (Nat.lt_of_lt_of_le small (Nat.pow_le_pow_right (by decide) (by omega)))
  rw [clear] at last
  exact Bool.noConfusion last

theorem bits_run (small : (2 ^ size - 1) <<< pos < 2 ^ width) :
    bits width ((2 ^ size - 1) <<< pos) = Finset.Ico pos (pos + size) := by
  ext i
  rw [mem_bits, run_testBit, Finset.mem_Ico, decide_eq_true_iff]
  constructor
  · exact fun member => member.2
  · intro inside
    have bounded := run_bounded (by omega) small
    exact ⟨by omega, inside⟩

theorem card_bits_run (small : (2 ^ size - 1) <<< pos < 2 ^ width) :
    (bits width ((2 ^ size - 1) <<< pos)).card = size := by
  rw [bits_run small, Nat.card_Ico]
  omega

theorem log2_run (some : 0 < size) : ((2 ^ size - 1) <<< pos).log2 = pos + size - 1 := by
  obtain ⟨size, rfl⟩ : ∃ less, size = less + 1 := ⟨size - 1, by omega⟩
  have power := Nat.two_pow_pos size
  have low : 2 ^ (pos + size) ≤ (2 ^ (size + 1) - 1) <<< pos := by
    rw [Nat.shiftLeft_eq, Nat.pow_add, Nat.mul_comm]
    exact Nat.mul_le_mul_right _ (by omega)
  have high : (2 ^ (size + 1) - 1) <<< pos < 2 ^ (pos + size + 1) := by
    rw [Nat.shiftLeft_eq, Nat.mul_comm, Nat.add_assoc, Nat.pow_add 2 pos]
    exact Nat.mul_lt_mul_of_pos_left (by omega) (Nat.two_pow_pos pos)
  have positive : (2 ^ (size + 1) - 1) <<< pos ≠ 0 := by
    have wide := Nat.two_pow_pos (pos + size)
    omega
  rw [(Nat.log2_eq_iff positive).mpr ⟨low, high⟩]
  omega

end Interval

/-- What is not 0 has a run that is not empty. -/
theorem Run.positive {mask : Nat} (run : Run mask) (present : mask ≠ 0) :
    ∃ pos size, 0 < size ∧ mask = (2 ^ size - 1) <<< pos := by
  obtain ⟨pos, size, rfl⟩ := run
  refine ⟨pos, size, Nat.pos_of_ne_zero ?_, rfl⟩
  rintro rfl
  exact present (by simp)

end BitRuns
