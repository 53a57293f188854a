import Mathlib.Algebra.Order.Group.Multiset

/-! Ledgers. A log of events, newest first, acquires and releases resources; a release of
something that is not held is a fault. A log with a balance has therefore released
nothing twice and nothing it was not given, and what it still holds is the balance. -/

namespace Ledger
variable {Event Resource : Type} [DecidableEq Resource]

inductive Entry (Resource : Type) where
  | acquired (resource : Resource)
  | released (resource : Resource)
  | neither

def enter (held : Multiset Resource) : Entry Resource → Option (Multiset Resource)
  | .acquired resource => some (resource ::ₘ held)
  | .released resource => if resource ∈ held then some (held.erase resource) else none
  | .neither => some held

def balance (book : Event → Entry Resource) (held : Multiset Resource) : List Event → Option (Multiset Resource)
  | [] => some held
  | event :: earlier => (balance book held earlier).bind (enter · (book event))

def Entry.taken : Entry Resource → Multiset Resource
  | .acquired resource => {resource}
  | .released _ | .neither => 0

def Entry.given : Entry Resource → Multiset Resource
  | .released resource => {resource}
  | .acquired _ | .neither => 0

/-- All that a log acquires. -/
def taken (book : Event → Entry Resource) : List Event → Multiset Resource
  | [] => 0
  | event :: earlier => (book event).taken + taken book earlier

/-- All that a log releases. -/
def given (book : Event → Entry Resource) : List Event → Multiset Resource
  | [] => 0
  | event :: earlier => (book event).given + given book earlier

variable {book : Event → Entry Resource} {held left : Multiset Resource}

theorem enter_accounts {entry : Entry Resource} (entered : enter held entry = some left) :
    entry.taken + held = entry.given + left := by
  cases entry with
  | acquired resource =>
      cases entered
      rw [Entry.taken, Entry.given, zero_add, Multiset.singleton_add]
  | released resource =>
      rw [enter] at entered
      split at entered
      · rename_i member
        cases entered
        rw [Entry.taken, Entry.given, zero_add, Multiset.singleton_add, Multiset.cons_erase member]
      · cases entered
  | neither =>
      cases entered
      rfl

/-- Nothing that follows makes up for a fault. -/
theorem balance_fault {log : List Event} (fault : balance book held log = none) (later : List Event) :
    balance book held (later ++ log) = none := by
  induction later with
  | nil => exact fault
  | cons event rest ih => rw [List.cons_append, balance, ih, Option.bind_none]

theorem balance_neither {log later : List Event} (settled : balance book held log = some left)
    (quiet : ∀ event ∈ later, book event = .neither) : balance book held (later ++ log) = some left := by
  induction later with
  | nil => exact settled
  | cons event rest ih =>
      obtain ⟨first, others⟩ := List.forall_mem_cons.mp quiet
      rw [List.cons_append, balance, ih others, Option.bind_some, first, enter]

/-- A log with a balance gives back what it takes, each time once, except for what is left. -/
theorem balance_accounts {log : List Event} (settled : balance book held log = some left) :
    taken book log + held = given book log + left := by
  induction log generalizing left with
  | nil =>
      cases settled
      rfl
  | cons event earlier ih =>
      obtain ⟨middle, before, entered⟩ := Option.bind_eq_some_iff.mp settled
      calc (book event).taken + taken book earlier + held
          = (book event).taken + (given book earlier + middle) := by rw [add_assoc, ih before]
        _ = given book earlier + ((book event).taken + middle) := add_left_comm _ _ _
        _ = given book earlier + ((book event).given + left) := by rw [enter_accounts entered]
        _ = (book event).given + given book earlier + left := by rw [add_left_comm, add_assoc]

theorem balance_append (later log : List Event) :
    balance book held (later ++ log) = (balance book held log).bind (balance book · later) := by
  induction later with
  | nil => exact (Option.bind_fun_some _).symm
  | cons event rest ih => rw [List.cons_append, balance, ih, Option.bind_assoc]; rfl

/-! A lenient book leaves out some of the releases. It balances where the other does, with
no less left; so does the same book where more is held. -/

def Lenient (book lax : Event → Entry Resource) : Prop :=
  ∀ event, lax event = book event ∨ (∃ resource, book event = .released resource) ∧ lax event = .neither

theorem enter_mono {entry : Entry Resource} {more : Multiset Resource} (less : held ≤ more)
    (entered : enter held entry = some left) : ∃ rest, left ≤ rest ∧ enter more entry = some rest := by
  cases entry with
  | acquired resource =>
      cases entered
      exact ⟨_, Multiset.cons_le_cons resource less, rfl⟩
  | released resource =>
      rw [enter] at entered
      split at entered
      · rename_i member
        cases entered
        exact ⟨_, Multiset.erase_le_erase resource less, if_pos (Multiset.mem_of_le less member)⟩
      · cases entered
  | neither =>
      cases entered
      exact ⟨_, less, rfl⟩

theorem enter_released {resource : Resource} (entered : enter held (.released resource) = some left) :
    left ≤ held := by
  rw [enter] at entered
  split at entered
  · cases entered
    exact Multiset.erase_le resource held
  · cases entered

theorem balance_lenient {lax : Event → Entry Resource} (lenient : Lenient book lax) {more : Multiset Resource}
    (less : held ≤ more) {log : List Event} (settled : balance book held log = some left) :
    ∃ rest, left ≤ rest ∧ balance lax more log = some rest := by
  induction log generalizing left with
  | nil =>
      cases settled
      exact ⟨more, less, rfl⟩
  | cons event earlier ih =>
      obtain ⟨middle, before, entered⟩ := Option.bind_eq_some_iff.mp settled
      obtain ⟨rest, fewer, balanced⟩ := ih before
      rw [balance, balanced, Option.bind_some]
      rcases lenient event with same | ⟨⟨resource, released⟩, neither⟩
      · rw [same]
        exact enter_mono fewer entered
      · rw [released] at entered
        rw [neither]
        exact ⟨rest, (enter_released entered).trans fewer, rfl⟩

end Ledger
