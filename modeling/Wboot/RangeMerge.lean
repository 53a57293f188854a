import Mathlib.Data.List.Basic
import Mathlib.Data.List.Chain
import Mathlib.Algebra.Order.Group.Nat

/-! Merging a stream of tagged ranges into the last range kept so far. The list
is kept newest first, so the range that may still grow is the head. Merging
joins two ranges only where one ends and the other starts, hence no point is
covered more or less often than before, whatever the order of the stream. -/

namespace RangeMerge

variable {Tag : Type} [DecidableEq Tag]

structure Range (Tag : Type) where
  start : Nat
  size : Nat
  tag : Tag
  deriving DecidableEq

namespace Range

def stop (range : Range Tag) : Nat := range.start + range.size

def covers (tag : Tag) (x : Nat) (range : Range Tag) : Bool :=
  decide (range.tag = tag ∧ range.start ≤ x ∧ x < range.stop)

def Touches (last range : Range Tag) : Prop := last.tag = range.tag ∧ last.stop = range.start

instance (last range : Range Tag) : Decidable (Touches last range) :=
  inferInstanceAs (Decidable (_ ∧ _))

/-- Lower, and over before the other starts. -/
def Before (earlier later : Range Tag) : Prop :=
  earlier.start < later.start ∧ earlier.stop ≤ later.start

end Range

open Range

def absorb (kept : List (Range Tag)) (range : Range Tag) : List (Range Tag) :=
  match kept with
  | [] => [range]
  | last :: older =>
      if Touches last range then { last with size := last.size + range.size } :: older
      else range :: last :: older

def coalesce (ranges : List (Range Tag)) : List (Range Tag) := ranges.foldl absorb []

/-- A grown range covers what the two it came from covered, each point once. -/
theorem covers_grown (last range : Range Tag) (touch : Touches last range) (tag : Tag) (x : Nat) :
    (covers tag x { last with size := last.size + range.size }).toNat =
      (covers tag x last).toNat + (covers tag x range).toNat := by
  obtain ⟨sameTag, meets⟩ := touch
  unfold stop at meets
  by_cases hit : last.tag = tag
  · have other : range.tag = tag := sameTag ▸ hit
    by_cases below : x < range.start
    · have left : covers tag x { last with size := last.size + range.size } = covers tag x last := by
        simp only [covers, stop, hit, true_and]
        exact decide_eq_decide.mpr (by omega)
      have right : covers tag x range = false := decide_eq_false (by unfold stop; omega)
      rw [left, right, Bool.toNat_false, Nat.add_zero]
    · have left : covers tag x last = false := decide_eq_false (by unfold stop; omega)
      have right : covers tag x { last with size := last.size + range.size } = covers tag x range := by
        simp only [covers, stop, hit, other, true_and]
        exact decide_eq_decide.mpr (by omega)
      rw [left, right, Bool.toNat_false, Nat.zero_add]
  · have other : range.tag ≠ tag := fun same => hit (sameTag.trans same)
    simp [covers, hit, other]

theorem countP_cons_toNat {α : Type} (p : α → Bool) (a : α) (rest : List α) :
    (a :: rest).countP p = (p a).toNat + rest.countP p := by
  cases hit : p a <;> simp [hit, Nat.add_comm]

theorem absorb_count (kept : List (Range Tag)) (range : Range Tag) (tag : Tag) (x : Nat) :
    (absorb kept range).countP (covers tag x) =
      kept.countP (covers tag x) + (covers tag x range).toNat := by
  cases kept with
  | nil => simp [absorb, countP_cons_toNat]
  | cons last older =>
      by_cases touch : Touches last range
      · simp only [absorb, touch, ↓reduceIte, countP_cons_toNat, covers_grown last range touch]
        omega
      · simp only [absorb, touch, ↓reduceIte, countP_cons_toNat]
        omega

theorem foldl_absorb_count (ranges kept : List (Range Tag)) (tag : Tag) (x : Nat) :
    (ranges.foldl absorb kept).countP (covers tag x) =
      kept.countP (covers tag x) + ranges.countP (covers tag x) := by
  induction ranges generalizing kept with
  | nil => simp
  | cons range rest ih =>
      rw [List.foldl_cons, ih, absorb_count, countP_cons_toNat]
      omega

/-- Coalescing covers every point exactly as often as the stream did. -/
theorem coalesce_count (ranges : List (Range Tag)) (tag : Tag) (x : Nat) :
    (coalesce ranges).countP (covers tag x) = ranges.countP (covers tag x) := by
  simp [coalesce, foldl_absorb_count]

/-! A stream in ascending order stays in order, and no range that could have been
merged is left, whatever the order. -/

/-- The kept range that grows starts where it did and stops where the stream is. -/
theorem absorb_before {kept : List (Range Tag)} {range next : Range Tag}
    (ahead : ∀ old ∈ kept, Before old next) (here : Before range next) :
    ∀ old ∈ absorb kept range, Before old next := by
  cases kept with
  | nil => simpa [absorb] using here
  | cons last older =>
      have first := ahead last List.mem_cons_self
      have rest : ∀ old ∈ older, Before old next := fun old member =>
        ahead old (List.mem_cons_of_mem last member)
      simp only [absorb]
      split
      · rename_i touch
        have grown : Before { last with size := last.size + range.size } next := by
          have meets := touch.2
          simp only [Before, stop] at *
          omega
        exact List.forall_mem_cons.mpr ⟨grown, rest⟩
      · exact List.forall_mem_cons.mpr ⟨here, List.forall_mem_cons.mpr ⟨first, rest⟩⟩

theorem absorb_ascending {kept : List (Range Tag)} {range : Range Tag}
    (order : kept.Pairwise fun later earlier => Before earlier later)
    (ahead : ∀ old ∈ kept, Before old range) :
    (absorb kept range).Pairwise fun later earlier => Before earlier later := by
  cases kept with
  | nil => simp [absorb]
  | cons last older =>
      obtain ⟨newest, rest⟩ := List.pairwise_cons.mp order
      simp only [absorb]
      split
      · -- a grown range starts where it did, so what lies before it still does
        exact List.pairwise_cons.mpr ⟨fun old member => newest old member, rest⟩
      · exact List.pairwise_cons.mpr ⟨ahead, order⟩

theorem foldl_absorb_ascending {ranges kept : List (Range Tag)} (stream : ranges.Pairwise Before)
    (order : kept.Pairwise fun later earlier => Before earlier later)
    (ahead : ∀ old ∈ kept, ∀ range ∈ ranges, Before old range) :
    (ranges.foldl absorb kept).Pairwise fun later earlier => Before earlier later := by
  induction ranges generalizing kept with
  | nil => exact order
  | cons range rest ih =>
      obtain ⟨first, tail⟩ := List.pairwise_cons.mp stream
      refine ih tail (absorb_ascending order fun old member => ahead old member range List.mem_cons_self) ?_
      intro old member next later
      exact absorb_before (fun older inside => ahead older inside next (List.mem_cons_of_mem range later))
        (first next later) old member

theorem coalesce_ascending {ranges : List (Range Tag)} (stream : ranges.Pairwise Before) :
    (coalesce ranges).reverse.Pairwise Before :=
  List.pairwise_reverse.mpr (foldl_absorb_ascending stream List.Pairwise.nil (by simp))

theorem absorb_maximal {kept : List (Range Tag)} (range : Range Tag)
    (chain : kept.IsChain fun later earlier => ¬ Touches earlier later) :
    (absorb kept range).IsChain fun later earlier => ¬ Touches earlier later := by
  cases kept with
  | nil => exact .singleton range
  | cons last older =>
      simp only [absorb]
      split
      · cases older with
        | nil => exact .singleton _
        | cons before oldest =>
            obtain ⟨apart, rest⟩ := List.isChain_cons_cons.mp chain
            exact List.isChain_cons_cons.mpr ⟨apart, rest⟩
      · rename_i apart
        exact List.isChain_cons_cons.mpr ⟨apart, chain⟩

theorem foldl_absorb_maximal (ranges : List (Range Tag)) {kept : List (Range Tag)}
    (chain : kept.IsChain fun later earlier => ¬ Touches earlier later) :
    (ranges.foldl absorb kept).IsChain fun later earlier => ¬ Touches earlier later := by
  induction ranges generalizing kept with
  | nil => exact chain
  | cons range rest ih => exact ih (absorb_maximal range chain)

theorem coalesce_maximal (ranges : List (Range Tag)) :
    (coalesce ranges).reverse.IsChain fun earlier later => ¬ Touches earlier later :=
  List.isChain_reverse.mpr (foldl_absorb_maximal ranges .nil)

end RangeMerge
