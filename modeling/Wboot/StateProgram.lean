import Mathlib.Data.List.Basic
import Mathlib.Order.Defs.Unbundled

/-! Programs over an explicit state. A program is a total function from a state
to a result and the next state, so a run is an equation and needs no relation.
The rules below are the usual ones: `Keeps` for one invariant on both sides,
`Relates` for a preorder between the state before and the state after. Neither
looks inside the state. -/

namespace StateProgram

variable {State Result Next : Type}

def Prog (State Result : Type) : Type := State → Result × State

instance : Monad (Prog State) where
  pure value := fun state => (value, state)
  bind first rest := fun state => rest (first state).1 (first state).2

def readState (view : State → Result) : Prog State Result :=
  fun state => (view state, state)

def modifyState (update : State → State) : Prog State Unit :=
  fun state => ((), update state)

@[simp] theorem pure_apply (value : Result) (state : State) :
    (pure value : Prog State Result) state = (value, state) := rfl

@[simp] theorem bind_apply (first : Prog State Result) (rest : Result → Prog State Next)
    (state : State) : (first >>= rest) state = rest (first state).1 (first state).2 := rfl

@[simp] theorem readState_apply (view : State → Result) (state : State) :
    readState view state = (view state, state) := rfl

@[simp] theorem modifyState_apply (update : State → State) (state : State) :
    modifyState update state = ((), update state) := rfl

@[simp] theorem branch_apply (choice : Prop) [Decidable choice] (yes no : Prog State Result)
    (state : State) :
    (if choice then yes else no) state = if choice then yes state else no state := by
  split <;> rfl

/-! A run taken apart: what each part returned and the state between the parts. -/
section Runs
variable {first : Prog State Result} {rest : Result → Prog State Next} {state : State}

theorem run_bind {outcome : Next × State} :
    (first >>= rest) state = outcome ↔
      ∃ value middle, first state = (value, middle) ∧ rest value middle = outcome :=
  ⟨fun run => ⟨(first state).1, (first state).2, rfl, run⟩,
    fun ⟨value, middle, head, tail⟩ => by rw [bind_apply, head]; exact tail⟩

theorem run_ite {choice : Prop} [Decidable choice] {yes no : Prog State Result}
    {outcome : Result × State} :
    (if choice then yes else no) state = outcome ↔
      (choice ∧ yes state = outcome) ∨ (¬ choice ∧ no state = outcome) := by
  by_cases hit : choice <;> simp [hit]

theorem run_pure {value : Result} {outcome : Result × State} :
    (pure value : Prog State Result) state = outcome ↔ (value, state) = outcome := Iff.rfl

end Runs

/-! A larger state carries a smaller one; `within` runs a program of the part. -/
section Parts
variable {Whole : Type}

def within (part : Whole → State) (replace : Whole → State → Whole)
    (program : Prog State Result) : Prog Whole Result :=
  fun whole => ((program (part whole)).1, replace whole (program (part whole)).2)

@[simp] theorem within_apply (part : Whole → State) (replace : Whole → State → Whole)
    (program : Prog State Result) (whole : Whole) :
    within part replace program whole =
      ((program (part whole)).1, replace whole (program (part whole)).2) := rfl

end Parts

def Keeps (invariant : State → Prop) (program : Prog State Result) : Prop :=
  ∀ state, invariant state → invariant (program state).2

theorem Keeps.bind {invariant : State → Prop} {first : Prog State Result}
    {rest : Result → Prog State Next} (head : Keeps invariant first)
    (tail : ∀ value, Keeps invariant (rest value)) : Keeps invariant (first >>= rest) :=
  fun state holds => tail _ _ (head state holds)

theorem Keeps.ite {invariant : State → Prop} {choice : Prop} [Decidable choice]
    {yes no : Prog State Result} (left : choice → Keeps invariant yes)
    (right : ¬ choice → Keeps invariant no) :
    Keeps invariant (if choice then yes else no) := by
  by_cases hit : choice
  · simpa [hit] using left hit
  · simpa [hit] using right hit

/-! A preorder on states holds over a program when it holds over every part. -/
section Relations
variable {step : State → State → Prop}

def Relates (step : State → State → Prop) (program : Prog State Result) : Prop :=
  ∀ state, step state (program state).2

theorem Relates.pure [Std.Refl step] (value : Result) :
    Relates step (pure value : Prog State Result) :=
  fun state => Std.Refl.refl state

theorem Relates.read [Std.Refl step] (view : State → Result) : Relates step (readState view) :=
  fun state => Std.Refl.refl state

theorem Relates.bind [IsTrans State step] {first : Prog State Result}
    {rest : Result → Prog State Next} (head : Relates step first)
    (tail : ∀ value, Relates step (rest value)) : Relates step (first >>= rest) :=
  fun state => IsTrans.trans _ _ _ (head state) (tail _ _)

/-- What follows is needed for results that the first part can return. -/
theorem Relates.bind_of [IsTrans State step] {first : Prog State Result}
    {rest : Result → Prog State Next} (head : Relates step first)
    (tail : ∀ state, Relates step (rest (first state).1)) : Relates step (first >>= rest) :=
  fun state => IsTrans.trans _ _ _ (head state) (tail state _)

theorem Relates.ite {choice : Prop} [Decidable choice] {yes no : Prog State Result}
    (left : choice → Relates step yes) (right : ¬ choice → Relates step no) :
    Relates step (if choice then yes else no) := by
  by_cases hit : choice
  · simpa [hit] using left hit
  · simpa [hit] using right hit

theorem Relates.mono {wider : State → State → Prop} {program : Prog State Result}
    (relates : Relates step program) (wide : ∀ before after, step before after → wider before after) :
    Relates wider program :=
  fun state => wide _ _ (relates state)

theorem Relates.run {program : Prog State Result} {before after : State} {value : Result}
    (relates : Relates step program) (run : program before = (value, after)) :
    step before after := by
  have here := relates before
  rwa [run] at here

end Relations

/-! Two programs from states that are alike: they return the same and leave alike states. -/
section Agreement
variable {alike : State → State → Prop}

def Agrees (alike : State → State → Prop) (left right : Prog State Result) : Prop :=
  ∀ first second, alike first second →
    (left first).1 = (right second).1 ∧ alike (left first).2 (right second).2

theorem Agrees.pure (value : Result) : Agrees alike (pure value : Prog State Result) (pure value) :=
  fun _ _ same => ⟨rfl, same⟩

theorem Agrees.read {view : State → Result}
    (seen : ∀ first second, alike first second → view first = view second) :
    Agrees alike (readState view) (readState view) :=
  fun first second same => ⟨seen first second same, same⟩

theorem Agrees.modify {left right : State → State}
    (kept : ∀ first second, alike first second → alike (left first) (right second)) :
    Agrees alike (modifyState left) (modifyState right) :=
  fun first second same => ⟨rfl, kept first second same⟩

theorem Agrees.bind {first second : Prog State Result} {left right : Result → Prog State Next}
    (head : Agrees alike first second) (tail : ∀ value, Agrees alike (left value) (right value)) :
    Agrees alike (first >>= left) (second >>= right) := by
  intro here there same
  obtain ⟨value, after⟩ := head here there same
  have rest := tail (first here).1 _ _ after
  rw [bind_apply, bind_apply, ← value]
  exact rest

theorem Agrees.ite {choice : Prop} [Decidable choice] {yes no yes' no' : Prog State Result}
    (taken : choice → Agrees alike yes yes') (passed : ¬ choice → Agrees alike no no') :
    Agrees alike (if choice then yes else no) (if choice then yes' else no') := by
  by_cases hit : choice
  · simpa only [if_pos hit] using taken hit
  · simpa only [if_neg hit] using passed hit

/-- A part that only one of the two has, if it leaves its state alike. -/
theorem Agrees.leftOnly [Std.Symm alike] [IsTrans State alike] {extra : Prog State Next}
    {rest : Next → Prog State Result} {right : Prog State Result} (quiet : Relates alike extra)
    (tail : ∀ value, Agrees alike (rest value) right) : Agrees alike (extra >>= rest) right := by
  intro here there same
  exact tail _ _ _ (IsTrans.trans _ _ _ (Std.Symm.symm _ _ (quiet here)) same)

theorem Agrees.rightOnly [IsTrans State alike] {extra : Prog State Next} {left : Prog State Result}
    {rest : Next → Prog State Result} (quiet : Relates alike extra)
    (tail : ∀ value, Agrees alike left (rest value)) : Agrees alike left (extra >>= rest) := by
  intro here there same
  exact tail _ _ _ (IsTrans.trans _ _ _ same (quiet there))

theorem Agrees.run {left right : Prog State Result} {here there after : State} {value : Result}
    (agrees : Agrees alike left right) (same : alike here there) (run : left here = (value, after)) :
    ∃ after', right there = (value, after') ∧ alike after after' := by
  obtain ⟨result, last⟩ := agrees here there same
  rw [run] at result last
  exact ⟨(right there).2, Prod.ext result.symm rfl, last⟩

end Agreement

/-! What a program returns, whatever state it is run in. -/
section Results
variable {post : Result → Prop}

def Returns (post : Result → Prop) (program : Prog State Result) : Prop :=
  ∀ state, post (program state).1

theorem Returns.pure {value : Result} (holds : post value) : Returns post (pure value : Prog State Result) :=
  fun _ => holds

theorem Returns.bind {between : Next → Prop} {first : Prog State Next} {rest : Next → Prog State Result}
    (head : Returns between first) (tail : ∀ value, between value → Returns post (rest value)) :
    Returns post (first >>= rest) :=
  fun state => tail _ (head state) _

theorem Returns.after {first : Prog State Next} {rest : Next → Prog State Result}
    (tail : ∀ value, Returns post (rest value)) : Returns post (first >>= rest) :=
  fun _ => tail _ _

theorem Returns.ite {choice : Prop} [Decidable choice] {yes no : Prog State Result}
    (left : Returns post yes) (right : Returns post no) : Returns post (if choice then yes else no) := by
  by_cases hit : choice
  · simpa [hit] using left
  · simpa [hit] using right

theorem Returns.run {program : Prog State Result} {before after : State} {value : Result}
    (returns : Returns post program) (run : program before = (value, after)) : post value := by
  have here := returns before
  rwa [run] at here

end Results

end StateProgram
