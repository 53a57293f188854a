import Mathlib.Data.Multiset.Count
import Wboot.Ledger
import Wboot.Blocks

/-! What a part of the loader holds: the pool blocks, page ranges and files it has taken
and not given back. Its calls are read as a ledger, so what is freed is freed once. -/

namespace Wboot.Holdings
open StateProgram ByteMemory Machine Wstdlib Effects Ledger

inductive Held where
  | pool (start : Nat)
  | pages (start count : Nat)
  | file (handle : Nat)
  deriving DecidableEq

def entry : Event → Entry Held
  | .allocatePool _ status pointer => if efiError status then .neither else .acquired (.pool pointer)
  | .freePool pointer _ => .released (.pool pointer)
  | .allocatePages _ pages _ status address =>
      if efiError status then .neither else .acquired (.pages address pages)
  | .freePages address pages _ => .released (.pages address pages)
  | .convertDevicePathToText _ pointer _ => if pointer = 0 then .neither else .acquired (.pool pointer)
  | .openVolume _ status root => if efiError status then .neither else .acquired (.file root)
  | .fileOpen _ _ status file => if efiError status then .neither else .acquired (.file file)
  | .fileClose file _ => .released (.file file)
  | _ => .neither

/-- What the calls from one world to a later one leave in hand. -/
def Settles (start after : World) (left : Multiset Held) : Prop :=
  ∃ events, after.history = events ++ start.history ∧ balance entry 0 events = some left

/-- What was taken has been given back, each thing once, but for what is left. -/
theorem Settles.accounts {start after : World} {left : Multiset Held} (settles : Settles start after left) :
    ∃ events, after.history = events ++ start.history ∧ taken entry events = given entry events + left := by
  obtain ⟨events, grown, settled⟩ := settles
  have whole := balance_accounts settled
  rw [Multiset.add_zero] at whole
  exact ⟨events, grown, whole⟩

/-- Pool blocks that are held are live, and each is held once. -/
structure Holds (start : World) (held : Multiset Held) (world : World) : Prop where
  early : world.bsExited = false
  settles : Settles start world held
  lives : ∀ ptr, .pool ptr ∈ held → ∃ size, ⟨.pool, ptr, size⟩ ∈ live world.history
  single : ∀ ptr, held.count (.pool ptr) ≤ 1

/-- A pointer that may be NULL. -/
def owned (ptr : Nat) : Multiset Held := if ptr = 0 then 0 else {.pool ptr}

section Steps
variable {fw : Firmware} {start before after : World} {held : Multiset Held}

theorem Holds.nothing (early : start.bsExited = false) : Holds start 0 start where
  early := early
  settles := ⟨[], rfl, rfl⟩
  lives := by simp
  single := by simp

/-- One more call. -/
theorem Settles.called {event : Event} {left : Multiset Held} (settles : Settles start before held)
    (history : after.history = event :: before.history) (entered : enter held (entry event) = some left) :
    Settles start after left := by
  obtain ⟨events, grown, settled⟩ := settles
  refine ⟨event :: events, by rw [history, grown, List.cons_append], ?_⟩
  rw [balance, settled]
  exact entered

theorem Holds.called {event : Event} {left : Multiset Held} (holds : Holds start held before)
    (bsExited : after.bsExited = before.bsExited) (history : after.history = event :: before.history)
    (entered : enter held (entry event) = some left)
    (pools : ∀ ptr, left.count (.pool ptr) ≤ held.count (.pool ptr))
    (keeps : ∀ block ∈ live before.history, block.kind = .pool → block ∈ live (event :: before.history)) :
    Holds start left after := by
  constructor
  case early => exact bsExited.trans holds.early
  case settles => exact holds.settles.called history entered
  case lives =>
    intro ptr member
    have held := Multiset.count_pos.mp (Nat.lt_of_lt_of_le (Multiset.count_pos.mpr member) (pools ptr))
    obtain ⟨size, lives⟩ := holds.lives ptr held
    exact ⟨size, history ▸ keeps _ lives rfl⟩
  case single => exact fun ptr => (pools ptr).trans (holds.single ptr)

/-- What is held stays held. -/
def Kept (before after : World) : Prop := ∀ start held, Holds start held before → Holds start held after

instance : IsPreorder World Kept where
  refl := fun _ _ _ holds => holds
  trans := fun _ _ _ left right start held holds => right start held (left start held holds)

theorem kept_of_same (bsExited : after.bsExited = before.bsExited) (history : after.history = before.history) :
    Kept before after := by
  intro start held holds
  constructor
  case early => exact bsExited.trans holds.early
  case settles =>
    obtain ⟨events, grown, settled⟩ := holds.settles
    exact ⟨events, history.trans grown, settled⟩
  case lives => exact history ▸ holds.lives
  case single => exact holds.single

theorem prints_kept (before after : World) (prints : Prints before after) : Kept before after :=
  kept_of_same prints.bsExited prints.history

theorem inRam_kept {α : Type} (program : Prog Ram α) : Relates Kept (inRam program) :=
  fun _ => kept_of_same rfl rfl

/-- A call that takes nothing and gives nothing back. -/
theorem service_kept {ρ : Type} (answer : History → ρ) (event : ρ → Event)
    (neither : ∀ reply, entry (event reply) = .neither)
    (lives : ∀ reply history, live (event reply :: history) = live history) : Relates Kept (service answer event) := by
  intro world start held holds
  refine holds.called rfl rfl ?_ (fun _ => Nat.le_refl _) fun block member _ => (lives _ _).symm ▸ member
  rw [neither]
  rfl

/-! ### The pool -/

/-- A fresh block cannot be one that is held already. -/
theorem Holds.takes {event : Event} {ptr size : Nat} (holds : Holds start held before)
    (bsExited : after.bsExited = before.bsExited) (history : after.history = event :: before.history)
    (taken : entry event = .acquired (.pool ptr))
    (lives : live (event :: before.history) = ⟨.pool, ptr, size⟩ :: live before.history)
    (fresh : Fresh (live before.history) ⟨.pool, ptr, size⟩) : Holds start (.pool ptr ::ₘ held) after := by
  have other : .pool ptr ∉ held := by
    intro member
    obtain ⟨size, lives⟩ := holds.lives _ member
    exact fresh.unnamed _ lives rfl rfl rfl
  constructor
  case early => exact bsExited.trans holds.early
  case settles => exact holds.settles.called history (by rw [taken, enter])
  case lives =>
    intro older member
    rw [history, lives]
    rcases Multiset.mem_cons.mp member with same | older
    · cases same
      exact ⟨size, List.mem_cons_self⟩
    · obtain ⟨size, lives⟩ := holds.lives _ older
      exact ⟨size, List.mem_cons_of_mem _ lives⟩
  case single =>
    intro older
    rw [Multiset.count_cons]
    split
    · rename_i same
      rw [same, Multiset.count_eq_zero_of_notMem other]
    · exact holds.single older

theorem malloc_holds (sound : AllocatorSound fw) {size ptr : Nat} (holds : Holds start held before)
    (run : malloc fw size before = (ptr, after)) : Holds start (owned ptr + held) after := by
  rw [malloc_apply fw size before holds.early] at run
  -- a refused request returns null and leaves nothing to free
  cases refused : efiError (fw.allocatePool before.history size).1 with
  | true =>
      rw [if_pos refused] at run
      cases run
      refine holds.called rfl rfl (by simp [entry, refused, enter, owned]) (by simp [owned]) fun block member _ => ?_
      simpa [live, refused] using member
  | false =>
      have fresh := sound.pool before.history size refused
      rw [if_neg (by simp [refused])] at run
      cases run
      rw [owned, if_neg (fresh.nonnull rfl), Multiset.singleton_add]
      exact holds.takes rfl rfl (by simp [entry, refused]) (by simp [live, refused]) fresh

/-- The text of a path is one more block, if there is a text. -/
theorem convertDevicePathToText_holds (sound : AllocatorSound fw) {path text : Nat} (holds : Holds start held before)
    (run : convertDevicePathToText fw path before = (text, after)) : Holds start (owned text + held) after := by
  unfold convertDevicePathToText at run
  rw [run_bind] at run
  obtain ⟨reply, called, calls, run⟩ := run
  have answer : fw.convertDevicePathToText before.history path = reply := congrArg Prod.fst calls
  have history : called.history = .convertDevicePathToText path reply.1 reply.2 :: before.history := by
    cases calls
    rfl
  have taken : Holds start (owned reply.1 + held) called := by
    by_cases null : reply.1 = 0
    · refine holds.called (service_bsExited calls) history (by simp [entry, null, enter, owned]) (by simp [owned, null])
        fun block member _ => ?_
      simpa [live, null] using member
    · have fresh := sound.text before.history path (answer ▸ null)
      rw [answer] at fresh
      rw [owned, if_neg null, Multiset.singleton_add]
      exact holds.takes (service_bsExited calls) history (by simp [entry, null]) (by simp [live, null]) fresh
  rw [run_ite] at run
  rcases run with ⟨-, run⟩ | ⟨-, run⟩
  · rw [run_bind] at run
    obtain ⟨_, delivered, delivers, run⟩ := run
    cases run
    exact (inRam_kept _).run delivers _ _ taken
  · cases run
    exact taken

theorem freePool_holds {ptr : Nat} {status : EfiStatus} (holds : Holds start (.pool ptr ::ₘ held) before)
    (run : freePool fw ptr before = (status, after)) : Holds start held after := by
  cases run
  have other : .pool ptr ∉ held := by
    have single := holds.single ptr
    rw [Multiset.count_cons_self] at single
    exact Multiset.count_eq_zero.mp (by omega)
  constructor
  case early => exact holds.early
  case settles => exact holds.settles.called rfl (by simp [entry, enter])
  case lives =>
    intro held member
    obtain ⟨size, lives⟩ := holds.lives held (Multiset.mem_cons_of_mem member)
    have different : held ≠ ptr := by
      rintro rfl
      exact other member
    exact ⟨size, (List.mem_eraseP_of_neg (by simp [Block.named, different])).mpr lives⟩
  case single => exact fun ptr => (Multiset.count_le_count_cons _ _ _).trans (holds.single ptr)

theorem errno_kept (status : EfiStatus) : Relates Kept (setErrno status) :=
  fun _ => kept_of_same rfl rfl

theorem free_holds {ptr : Nat} (holds : Holds start (owned ptr + held) before)
    (run : free fw ptr before = ((), after)) : Holds start held after := by
  rw [free_apply fw ptr before holds.early] at run
  by_cases null : ptr = 0
  · rw [if_pos null] at run
    cases run
    simpa [owned, null] using holds
  · rw [if_neg null] at run
    cases run
    rw [owned, if_neg null, Multiset.singleton_add] at holds
    have freed : Holds start held (freePool fw ptr before).2 := freePool_holds holds rfl
    exact errno_kept _ _ _ _ freed

/-! A release of what is not held, after which there is no balance any more. -/

def Faulty (start after : World) : Prop :=
  ∃ events, after.history = events ++ start.history ∧ balance entry 0 events = none

theorem freePool_faulty {ptr : Nat} {status : EfiStatus} (settles : Settles start before held)
    (foreign : .pool ptr ∉ held) (run : freePool fw ptr before = (status, after)) : Faulty start after := by
  obtain ⟨events, grown, settled⟩ := settles
  cases run
  refine ⟨.freePool ptr (fw.freePool before.history ptr) :: events, by dsimp only; rw [grown, List.cons_append], ?_⟩
  rw [balance, settled, Option.bind_some, entry, enter, if_neg foreign]

/-- Calls are only added. -/
def Longer (before after : World) : Prop := before.history <:+ after.history

instance : IsPreorder World Longer where
  refl := fun _ => List.suffix_rfl
  trans := fun _ _ _ => List.IsSuffix.trans

theorem calls_longer {allowed : Event → Prop} (before after : World) (calls : Calls allowed before after) :
    Longer before after := by
  obtain ⟨events, grown, -⟩ := calls.history
  exact ⟨events, grown.symm⟩

theorem Faulty.later (faulty : Faulty start before) (longer : Longer before after) : Faulty start after := by
  obtain ⟨events, grown, fault⟩ := faulty
  obtain ⟨later, more⟩ := longer
  exact ⟨later ++ events, by rw [← more, grown, List.append_assoc], balance_fault fault later⟩

theorem Settles.later {allowed : Event → Prop} (neither : ∀ event, allowed event → entry event = .neither)
    (settles : Settles start before held) (calls : Calls allowed before after) : Settles start after held := by
  obtain ⟨events, grown, settled⟩ := settles
  obtain ⟨later, more, kind⟩ := calls.history
  refine ⟨later ++ events, by rw [more, grown, List.append_assoc], ?_⟩
  exact balance_neither settled fun event member => neither event (kind event member)

theorem Faulty.unsettled (faulty : Faulty start after) : ¬ Settles start after held := by
  rintro ⟨others, same, settled⟩
  obtain ⟨events, grown, fault⟩ := faulty
  rw [List.append_cancel_right (grown.symm.trans same), settled] at fault
  cases fault

/-! A free of NULL is such a release too. With it left out the rest may still balance. -/

def pardoned : Event → Entry Held
  | .freePool 0 _ => .neither
  | event => entry event

theorem pardoned_lenient : Lenient entry pardoned := by
  intro event
  cases event with
  | freePool pointer status =>
      cases pointer with
      | zero => exact Or.inr ⟨⟨_, rfl⟩, rfl⟩
      | succ pointer => exact Or.inl rfl
  | _ => exact Or.inl rfl

/-- Nothing but NULL has been released that was not held. -/
def Pardons (start after : World) : Prop :=
  ∃ events left, after.history = events ++ start.history ∧ balance pardoned 0 events = some left

instance : IsPreorder World Pardons where
  refl := fun _ => ⟨[], 0, rfl, rfl⟩
  trans := fun _ _ _ first second => by
    obtain ⟨early, held, grown, settled⟩ := first
    obtain ⟨late, left, more, balanced⟩ := second
    obtain ⟨rest, -, whole⟩ := balance_lenient (fun _ => Or.inl rfl) (Multiset.zero_le held) balanced
    refine ⟨late ++ early, rest, by rw [more, grown, List.append_assoc], ?_⟩
    rw [balance_append, settled]
    exact whole

theorem Settles.pardons (settles : Settles start after held) : Pardons start after := by
  obtain ⟨events, grown, settled⟩ := settles
  obtain ⟨rest, -, balanced⟩ := balance_lenient pardoned_lenient (le_refl 0) settled
  exact ⟨events, rest, grown, balanced⟩

theorem freePool_pardons {status : EfiStatus} (settles : Settles start before held)
    (run : freePool fw 0 before = (status, after)) : Pardons start after := by
  cases run
  exact IsTrans.trans _ _ _ settles.pardons ⟨[.freePool 0 _], 0, rfl, rfl⟩

/-- The temporary buffer of `%-s` is given back, or was never had. -/
theorem printfNarrow_kept (sound : AllocatorSound fw) (arg : Arg) : Relates Kept (printfNarrow fw arg) := by
  intro world start held holds
  obtain ⟨outcome, after, run⟩ : ∃ outcome after, printfNarrow fw arg world = (outcome, after) := ⟨_, _, rfl⟩
  rw [run]
  obtain ⟨recorded, buffer, allocated, stored, written, quiet, -, allocation, stores, writes, frees⟩ :=
    printfNarrow_parts run
  have copied : Kept allocated stored := by
    cases stores
    exact kept_of_same rfl rfl
  have printed := prints_kept _ _ ((printfWriteArg_prints _).run writes)
  exact free_holds (printed _ _ (copied _ _ (malloc_holds sound (prints_kept _ _ quiet _ _ holds) allocation))) frees

theorem printf_kept (sound : AllocatorSound fw) (format : List UInt16) (args : List Arg) :
    Relates Kept (printf fw format args) :=
  (printfScan_relates prints_kept (printfNarrow_kept sound) format args).bind fun _ =>
    (console_prints _).mono prints_kept

/-- A message, and what it is about is given back. -/
theorem undone_holds (sound : AllocatorSound fw) {α : Type} {format : List UInt16} {args : List Arg} {ptr : Nat}
    {value outcome : α} (holds : Holds start (owned ptr + held) before)
    (run : (do
      printf fw format args
      free fw ptr
      return value : Boot α) before = (outcome, after)) : Holds start held after := by
  rw [run_bind] at run
  obtain ⟨_, told, tells, run⟩ := run
  rw [run_bind] at run
  obtain ⟨⟨⟩, freed, frees, run⟩ := run
  cases run
  exact free_holds ((printf_kept sound _ _).run tells _ _ holds) frees

/-! ### Pages and files -/

theorem allocatePages_holds {kind : AllocateType} {pages request : Nat} {reply : EfiStatus × Nat}
    (holds : Holds start held before) (run : allocatePages fw kind pages request before = (reply, after)) :
    Holds start (if efiError reply.1 then held else .pages reply.2 pages ::ₘ held) after := by
  have history : after.history = .allocatePages kind pages request reply.1 reply.2 :: before.history := by
    cases run
    rfl
  cases refused : efiError reply.1 with
  | true =>
      refine holds.called (service_bsExited run) history (by simp [entry, refused, enter]) (by simp)
        fun block member _ => ?_
      simpa [live, refused] using member
  | false =>
      refine holds.called (service_bsExited run) history (by simp [entry, refused, enter]) (by simp)
        fun block member _ => ?_
      simp only [live, refused, Bool.false_eq_true, ↓reduceIte]
      exact List.mem_cons_of_mem _ member

theorem freePages_holds {address pages : Nat} {status : EfiStatus}
    (holds : Holds start (.pages address pages ::ₘ held) before)
    (run : freePages fw address pages before = (status, after)) : Holds start held after := by
  cases run
  refine holds.called rfl rfl (by simp [entry, enter]) (by simp) fun block member pool => ?_
  exact (List.mem_eraseP_of_neg (by simp [Block.named, pool])).mpr member

theorem fileOpen_holds {parent : Nat} {path : List UInt16} {reply : EfiStatus × Nat}
    (holds : Holds start held before)
    (run : fileOpen fw parent path before = (reply, after)) :
    Holds start (if efiError reply.1 then held else .file reply.2 ::ₘ held) after := by
  have history : after.history = .fileOpen parent path reply.1 reply.2 :: before.history := by
    cases run
    rfl
  refine holds.called (service_bsExited run) history ?_ ?_ fun block member _ => member
  · cases refused : efiError reply.1 <;> simp [entry, refused, enter]
  · intro ptr
    split <;> simp

theorem fileClose_holds {file : Nat} {status : EfiStatus} (holds : Holds start (.file file ::ₘ held) before)
    (run : fileClose fw file before = (status, after)) : Holds start held after := by
  cases run
  exact holds.called rfl rfl (by simp [entry, enter]) (by simp) fun block member _ => member

theorem fileGetInfo_kept (file size buffer : Nat) : Relates Kept (fileGetInfo fw file size buffer) := by
  have asks := service_kept (fun history => fw.fileGetInfo history file size buffer)
    (fun reply => .fileGetInfo file size buffer reply.status) (fun _ => rfl) fun _ _ => rfl
  exact asks.bind fun reply => .ite (fun _ => (inRam_kept _).bind fun _ => .pure _) fun _ => .pure _

theorem fileReadInto_kept (file size buffer : Nat) : Relates Kept (fileReadInto fw file size buffer) :=
  (service_kept _ _ (fun _ => rfl) fun _ _ => rfl).bind fun _ => (inRam_kept _).bind fun _ => .pure _

theorem fileSetPosition_kept (file position : Nat) : Relates Kept (fileSetPosition fw file position) :=
  service_kept _ _ (fun _ => rfl) fun _ _ => rfl

end Steps

end Wboot.Holdings
