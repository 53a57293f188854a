import Wboot.ConfigCleanup
import Wboot.KernelSearch
import Wboot.ServiceEnd

/-! What the two searches leave open. Neither closes a volume that it passes over. Each
text of a path is freed as soon as it is printed, and so is the NULL of a path without
one, which is nobody's; so the accounts balance only if every path has its text. -/

namespace Wboot.SearchLedger
open StateProgram ByteMemory Machine Wstdlib Effects ConfigParser ConfigEffects ServiceEnd Ledger Holdings ConfigCleanup
open ConfigSearch (Visit)

/-- Volumes and files, which no free can give back. -/
def FilesOnly (held : Multiset Held) : Prop := ∀ ptr, .pool ptr ∉ held

theorem FilesOnly.cons {held : Multiset Held} (files : FilesOnly held) (file : Nat) :
    FilesOnly (.file file ::ₘ held) := by
  intro ptr member
  rcases Multiset.mem_cons.mp member with same | member
  · cases same
  · exact files ptr member

theorem FilesOnly.add {left right : Multiset Held} (first : FilesOnly left) (second : FilesOnly right) :
    FilesOnly (left + right) := by
  intro ptr member
  rcases Multiset.mem_add.mp member with member | member
  · exact first ptr member
  · exact second ptr member

/-! ### Visits -/

/-- The visits that a search makes, up to the first that ends it. -/
def reached (ends : Visit → Bool) : List Visit → List Visit
  | [] => []
  | visit :: rest => visit :: if ends visit then [] else reached ends rest

/-- What is held behind some visits, if each of their paths has a text; else a free was a fault. -/
structure Accounts (fw : Firmware) (start : World) (held : Multiset Held) (visits : List Visit) (after : World) :
    Prop where
  balances : (∀ visit ∈ visits, visit.named fw) → Holds start held after
  faults : ∀ visit ∈ visits, ¬ visit.named fw → Faulty start after

section Visits
variable {fw : Firmware} {start middle after : World} {held total : Multiset Held} {visit : Visit}
  {visits : List Visit}

theorem Accounts.nothing (holds : Holds start held after) : Accounts fw start held [] after :=
  ⟨fun _ => holds, nofun⟩

/-- Whatever follows the visits and takes account of what they left. -/
theorem Accounts.then (accounts : Accounts fw start held visits middle) (calls : Calls ordinary middle after)
    (goes : Holds start held middle → Holds start total after) : Accounts fw start total visits after where
  balances := fun named => goes (accounts.balances named)
  faults := fun visit member mute => (accounts.faults visit member mute).later (calls_longer _ _ calls)

theorem Accounts.cons (first : Accounts fw start held [visit] middle) (calls : Calls ordinary middle after)
    (others : Holds start held middle → Accounts fw start total visits after) :
    Accounts fw start total (visit :: visits) after := by
  have here (named : visit.named fw) : Accounts fw start total visits after :=
    others (first.balances (List.forall_mem_singleton.mpr named))
  constructor
  case balances =>
    intro named
    obtain ⟨first, rest⟩ := List.forall_mem_cons.mp named
    exact (here first).balances rest
  case faults =>
    intro mute member unnamed
    by_cases named : visit.named fw
    · rcases List.mem_cons.mp member with same | member
      · subst same
        exact absurd named unnamed
      · exact (here named).faults mute member unnamed
    · exact (first.faults visit List.mem_cons_self named).later (calls_longer _ _ calls)

/-- The accounts tell whether a path was without its text. -/
theorem Accounts.settles_iff (accounts : Accounts fw start held visits after) :
    Settles start after held ↔ ∀ visit ∈ visits, visit.named fw := by
  constructor
  · intro settles visit member
    by_contra unnamed
    exact (accounts.faults visit member unnamed).unsettled settles
  · exact fun named => (accounts.balances named).settles

end Visits

section Paths
variable {fw : Firmware} {start before after : World} {held : Multiset Held}

theorem openVolume_holds {fs : Nat} {reply : EfiStatus × Nat} (holds : Holds start held before)
    (run : openVolume fw fs before = (reply, after)) :
    Holds start (if efiError reply.1 then held else .file reply.2 ::ₘ held) after := by
  have history : after.history = .openVolume fs reply.1 reply.2 :: before.history := by
    cases run
    rfl
  refine holds.called (service_bsExited run) history ?_ ?_ fun block member _ => member
  · cases refused : efiError reply.1 <;> simp [entry, refused, enter]
  · intro ptr
    split <;> simp

theorem handleProtocol_kept (handle : Nat) (protocol : Protocol) : Relates Kept (handleProtocol fw handle protocol) :=
  service_kept _ _ (fun _ => rfl) fun _ _ => rfl

/-- Both searches begin with this, each with its own message. -/
theorem textProtocol_kept (sound : AllocatorSound fw) (message : List UInt16) : Relates Kept (do
    let status ← locateProtocol fw .devicePathToText
    if efiError status then
      printf fw message [.num status]
    return status : Boot EfiStatus) :=
  Relates.bind (service_kept _ _ (fun _ => rfl) fun _ _ => rfl) fun _ =>
    .ite (fun _ => (printf_kept sound _ _).bind fun _ => .pure _) fun _ => .pure _

/-- The path of a handle, as both searches show it, each with messages of its own. -/
def showPath (fw : Firmware) (handle : Nat) (mute shown failed : List UInt16) : Boot Unit := do
  let found ← handleProtocol fw handle .devicePath
  if ¬ efiError found.1 then
    let text ← convertDevicePathToText fw found.2
    if text = 0 then
      printf fw mute []
    printf fw shown [.widePointer text]
    let _ ← freePool fw text
  else perror fw failed found.1

/-- Its text is given back, or a NULL is. -/
theorem path_courses (sound : AllocatorSound fw) {handle : Nat} {mute shown failed : List UInt16}
    (holds : Holds start held before)
    (run : showPath fw handle mute shown failed before = ((), after)) :
    (Visit.named fw ⟨handle, before⟩ ∧ Holds start held after) ∨
      ¬ Visit.named fw ⟨handle, before⟩ ∧ ∃ told status, Holds start held told ∧
        freePool fw 0 told = (status, after) := by
  rw [showPath, run_bind] at run
  obtain ⟨path, found, finds, run⟩ := run
  have finding := (handleProtocol_kept _ _).run finds _ _ holds
  unfold Visit.named
  simp only [finds]
  rw [run_ite] at run
  rcases run with ⟨there, run⟩ | ⟨missing, run⟩
  · have openable : efiError path.1 = false := by simpa using there
    rw [run_bind] at run
    obtain ⟨text, converted, converts, run⟩ := run
    have texts := convertDevicePathToText_holds sound finding converts
    simp only [openable, converts, forall_const]
    rw [run_ite] at run
    rcases run with ⟨null, run⟩ | ⟨present, run⟩
    · subst null
      refine Or.inr ⟨fun named => named rfl, ?_⟩
      rw [owned, if_pos rfl, zero_add] at texts
      simp only [run_bind] at run
      obtain ⟨_, warned, warns, _, told, tells, status, freed, frees, done⟩ := run
      cases done
      exact ⟨told, status, (printf_kept sound _ _).run tells _ _ ((printf_kept sound _ _).run warns _ _ texts),
        frees⟩
    · refine Or.inl ⟨present, ?_⟩
      rw [owned, if_neg present, Multiset.singleton_add] at texts
      simp only [run_bind] at run
      obtain ⟨_, told, tells, _, freed, frees, done⟩ := run
      cases done
      exact freePool_holds ((printf_kept sound _ _).run tells _ _ texts) frees
  · have failed : efiError path.1 = true := by simpa using missing
    refine Or.inl ⟨fun there => ?_, (printf_kept sound _ _).run run _ _ finding⟩
    exact Bool.noConfusion (failed.symm.trans there)

theorem path_settles (sound : AllocatorSound fw) {handle : Nat} {mute shown failed : List UInt16}
    (holds : Holds start held before) (files : FilesOnly held)
    (run : showPath fw handle mute shown failed before = ((), after)) :
    Accounts fw start held [⟨handle, before⟩] after := by
  rcases path_courses sound holds run with ⟨named, freed⟩ | ⟨mute, told, status, telling, frees⟩
  · exact ⟨fun _ => freed, List.forall_mem_singleton.mpr fun mute => absurd named mute⟩
  · refine ⟨fun named => absurd (named _ List.mem_cons_self) mute, List.forall_mem_singleton.mpr fun _ => ?_⟩
    exact freePool_faulty telling.settles (files 0) frees

end Paths

/-! ### Phase 2 -/

section Kernel
open KernelSearch
variable (fw : Firmware)

/-- What a visit opens. -/
def opened (visit : Visit) : Multiset Held :=
  match volumeOf fw visit with
  | none => 0
  | some (root, _) => .file root ::ₘ match filesOf fw visit with
      | none => 0
      | some (kernel, initramfs) => .file kernel ::ₘ initramfs.elim 0 fun file => {.file file}

theorem opened_files (visit : Visit) : FilesOnly (opened fw visit) := by
  intro ptr member
  unfold opened at member
  split at member
  · simp at member
  · split at member
    · simp at member
    · rename_i initramfs _
      cases initramfs <;> simp at member

variable {fw} {start before after : World} {held : Multiset Held} {out : Phase2.FoundFiles}
  {tried : Bool × Phase2.FoundFiles}

theorem tryVolume_accounts (sound : AllocatorSound fw) (visit : Visit) (holds : Holds start held visit.before)
    (files : FilesOnly held) (run : Phase2.tryVolume fw visit.handle out visit.before = (tried, after)) :
    Accounts fw start (opened fw visit + held) [visit] after := by
  unfold Phase2.tryVolume at run
  rw [run_bind] at run
  obtain ⟨⟨⟩, printed, prints, run⟩ := run
  have calls : Calls ordinary printed after := (Searches.openFiles (ordinary_searches fw) _ _).run run
  refine (path_settles sound holds files prints).then calls fun texts => ?_
  have path : (Phase2.printDevicePath fw visit.handle visit.before).2 = printed := congrArg Prod.snd prints
  unfold Phase2.openFiles at run
  rw [run_bind] at run
  obtain ⟨fs, found, finds, run⟩ := run
  have finding := (handleProtocol_kept _ _).run finds _ _ texts
  unfold opened filesOf volumeOf
  simp only [path, finds]
  rw [run_ite] at run
  rcases run with ⟨missing, run⟩ | ⟨there, run⟩
  · rw [run_bind] at run
    obtain ⟨_, told, tells, done⟩ := run
    cases done
    simp only [missing, ↓reduceIte, zero_add]
    exact (printf_kept sound _ _).run tells _ _ finding
  rw [run_bind] at run
  obtain ⟨root, volume, opens, run⟩ := run
  have opening := openVolume_holds finding opens
  simp only [there, Bool.false_eq_true, ↓reduceIte, opens]
  rw [run_ite] at run
  rcases run with ⟨closed, run⟩ | ⟨openable, run⟩
  · rw [run_bind] at run
    obtain ⟨_, told, tells, done⟩ := run
    cases done
    rw [if_pos closed] at opening
    simp only [closed, ↓reduceIte, zero_add]
    exact (printf_kept sound _ _).run tells _ _ opening
  rw [if_neg openable] at opening
  rw [run_bind] at run
  obtain ⟨kernel, seen, sees, run⟩ := run
  have seeing := fileOpen_holds opening sees
  simp only [openable, Bool.false_eq_true, ↓reduceIte, Option.bind_some, sees]
  rw [run_ite] at run
  rcases run with ⟨absent, run⟩ | ⟨present, run⟩
  · rw [run_bind] at run
    obtain ⟨_, told, tells, done⟩ := run
    cases done
    rw [if_pos absent] at seeing
    simp only [absent, ↓reduceIte, Multiset.cons_zero, Multiset.singleton_add]
    exact (printf_kept sound _ _).run tells _ _ seeing
  rw [if_neg present] at seeing
  rw [run_bind] at run
  obtain ⟨_, told, tells, run⟩ := run
  have announced : (printf fw (wide "  Found vmlinuz-linux!\r\n") [] seen).2 = told := congrArg Prod.snd tells
  have telling := (printf_kept sound _ _).run tells _ _ seeing
  rw [run_bind] at run
  obtain ⟨initramfs, looked, looks, run⟩ := run
  have looking := fileOpen_holds telling looks
  simp only [present, Bool.false_eq_true, ↓reduceIte, announced, looks]
  -- the initramfs is the last that may be missing
  rw [run_ite] at run
  rcases run with ⟨lacking, run⟩ | ⟨whole, run⟩
  · rw [run_bind] at run
    obtain ⟨_, warned, warns, done⟩ := run
    cases done
    rw [if_pos lacking] at looking
    simp only [lacking, ↓reduceIte, Option.elim_none, Multiset.cons_zero, Multiset.cons_add, Multiset.singleton_add]
    rw [Multiset.cons_swap]
    exact (printf_kept sound _ _).run warns _ _ looking
  · rw [run_bind] at run
    obtain ⟨_, warned, warns, done⟩ := run
    cases done
    rw [if_neg whole] at looking
    have order : Held.file initramfs.2 ::ₘ .file kernel.2 ::ₘ .file root.2 ::ₘ held =
        .file root.2 ::ₘ .file kernel.2 ::ₘ .file initramfs.2 ::ₘ held := by
      simp only [← Multiset.singleton_add]
      abel
    simp only [whole, Bool.false_eq_true, ↓reduceIte, Option.elim_some, Multiset.cons_add, Multiset.singleton_add]
    rw [← order]
    exact (printf_kept sound _ _).run warns _ _ looking

/-- The visits that are made. -/
def passed (fw : Firmware) (visits : List Visit) : List Visit :=
  reached (fun visit => (pairOf fw visit).isSome) visits

theorem tryVolumes_accounts (sound : AllocatorSound fw) {handles : List Nat} (holds : Holds start held before)
    (files : FilesOnly held) (run : Phase2.tryVolumes fw handles out before = (tried, after)) :
    Accounts fw start (((passed fw (visits fw handles out before)).map (opened fw)).sum + held)
      (passed fw (visits fw handles out before)) after := by
  induction handles generalizing out before held with
  | nil =>
      cases run
      refine .nothing ?_
      rw [visits, passed, reached, List.map_nil, List.sum_nil, zero_add]
      exact holds
  | cons handle rest ih =>
      rw [Phase2.tryVolumes, run_bind] at run
      obtain ⟨first, middle, tries, run⟩ := run
      have answer := tryVolume_files fw ⟨handle, before⟩ out
      have here := tryVolume_accounts sound ⟨handle, before⟩ holds files tries
      rw [visits, passed, reached, List.map_cons, List.sum_cons]
      simp only [tries] at answer ⊢
      cases found : pairOf fw ⟨handle, before⟩ with
      | some pair =>
          rw [found] at answer
          rw [run_ite] at run
          rcases run with ⟨-, run⟩ | ⟨onward, -⟩
          · cases run
            simpa using here
          · exact absurd (congrArg Prod.fst answer) onward
      | none =>
          rw [found] at answer
          rw [run_ite] at run
          rcases run with ⟨stop, -⟩ | ⟨-, run⟩
          · rw [answer] at stop
            cases stop
          refine here.cons ((Searches.tryVolumes (ordinary_searches fw) rest first.2).run run) fun opens => ?_
          have later := ih opens ((opened_files fw _).add files) run
          rw [add_left_comm, ← add_assoc] at later
          exact later

theorem wbootLocateKernel_accounts (sound : AllocatorSound fw) {outcome : EfiStatus × Phase2.FoundFiles}
    (holds : Holds start held before) (files : FilesOnly held)
    (run : Phase2.wbootLocateKernel fw out before = (outcome, after)) :
    Accounts fw start (((passed fw (searched fw out before)).map (opened fw)).sum + held)
      (passed fw (searched fw out before)) after := by
  unfold Phase2.wbootLocateKernel at run
  rw [run_bind] at run
  obtain ⟨_, told, tells, run⟩ := run
  have telling := (printf_kept sound _ _).run tells _ _ holds
  rw [run_bind] at run
  obtain ⟨status, asked, asks, run⟩ := run
  have first : (printf fw (wide "Locating kernel...\r\n") [] before).2 = told := congrArg Prod.snd tells
  have asking : Holds start held asked := (textProtocol_kept sound _).run asks _ _ telling
  unfold searched announced listed
  simp only [first, asks]
  rw [run_ite] at run
  rcases run with ⟨unable, run⟩ | ⟨able, run⟩
  · cases run
    simp only [unable, ↓reduceIte, passed, reached, List.map_nil, List.sum_nil, zero_add]
    exact .nothing asking
  rw [run_bind] at run
  obtain ⟨handles, listing, lists, run⟩ := run
  have listed : Holds start held listing := (service_kept _ _ (fun _ => rfl) fun _ _ => rfl).run lists _ _ asking
  simp only [able, Bool.false_eq_true, ↓reduceIte, lists]
  rw [run_ite] at run
  rcases run with ⟨unlisted, run⟩ | ⟨there, run⟩
  · rw [run_bind] at run
    obtain ⟨_, _, warns, done⟩ := run
    cases done
    simp only [unlisted, ↓reduceIte, passed, reached, List.map_nil, List.sum_nil, zero_add]
    exact .nothing ((printf_kept sound _ _).run warns _ _ listed)
  rw [run_bind] at run
  obtain ⟨_, begun, begins, run⟩ := run
  have beginning := (printf_kept sound _ _).run begins _ _ listed
  have here : (printf fw (wide "Enumerating SIMPLE_FILE_SYSTEM_PROTOCOL devices\r\n") [.num handles.2.length]
      listing).2 = begun := congrArg Prod.snd begins
  simp only [there, Bool.false_eq_true, ↓reduceIte, here]
  rw [run_bind] at run
  obtain ⟨tried, ended, tries, run⟩ := run
  have accounts := tryVolumes_accounts sound beginning files tries
  rw [run_ite] at run
  rcases run with ⟨-, run⟩ | ⟨-, run⟩
  · cases run
    exact accounts
  · rw [run_bind] at run
    obtain ⟨_, _, warns, done⟩ := run
    cases done
    exact accounts.then (((ordinary_searches fw).shows _ _).run warns) ((printf_kept sound _ _).run warns _ _)

/-- The first volume with both ends the search, and nothing that was opened on the way is closed.
A path without its text has a NULL freed. -/
theorem wbootLocateKernel_settles_iff (fw : Firmware) (out : Phase2.FoundFiles) (world : World)
    (sound : AllocatorSound fw) (early : world.bsExited = false) :
    (Settles world (Phase2.wbootLocateKernel fw out world).2
        ((passed fw (searched fw out world)).map (opened fw)).sum ↔
      ∀ visit ∈ passed fw (searched fw out world), visit.named fw) ∧
    ∀ visit ∈ passed fw (searched fw out world), ¬ visit.named fw →
      Faulty world (Phase2.wbootLocateKernel fw out world).2 := by
  have accounts := wbootLocateKernel_accounts sound (.nothing early) (fun _ => Multiset.notMem_zero _)
    (Prod.mk.eta.symm : Phase2.wbootLocateKernel fw out world = _)
  rw [add_zero] at accounts
  exact ⟨accounts.settles_iff, accounts.faults⟩

/-! Two volumes with a kernel, of which the second has the initramfs too. -/

def twoKernels : Firmware := { idleFirmware with
  locateHandle := fun _ _ => (efiSuccess, [1, 2])
  handleProtocol := fun _ handle protocol =>
    if protocol = .devicePath then (efiNotFound, 0) else (efiSuccess, handle)
  openVolume := fun _ fs => (efiSuccess, 10 + fs)
  fileOpen := fun _ root path =>
    if path = wide "vmlinuz-linux" then (efiSuccess, 10 + root)
    else if root = 12 then (efiSuccess, 30) else (efiNotFound, 0) }

theorem twoKernels_sound : AllocatorSound twoKernels :=
  ⟨idleFirmware_sound.pool, idleFirmware_sound.pages, idleFirmware_sound.text, idleFirmware_sound.atAddress⟩

theorem two_kernels_left_open :
    ((passed twoKernels (searched twoKernels ⟨0, 0⟩ bootWorld)).map (opened twoKernels)).sum =
        {.file 11, .file 21, .file 12, .file 22, .file 30} ∧
      Settles bootWorld (Phase2.wbootLocateKernel twoKernels ⟨0, 0⟩ bootWorld).2
        ((passed twoKernels (searched twoKernels ⟨0, 0⟩ bootWorld)).map (opened twoKernels)).sum := by
  refine ⟨by decide +kernel,
    (wbootLocateKernel_settles_iff twoKernels ⟨0, 0⟩ bootWorld twoKernels_sound rfl).1.mpr ?_⟩
  -- the handles have no path at all
  intro visit _ pathed
  exact absurd pathed (by decide : efiError efiNotFound ≠ false)

end Kernel

/-! ### Phase 3 -/

section Config
open ConfigSearch
variable (fw : Firmware)

/-- The volume that a visit opens, and its configuration if that is loaded. -/
def kept (visit : Visit) : Multiset Held :=
  match visit.volume fw with
  | none => 0
  | some (root, opened) => .file root ::ₘ
      Left (fw.allocatePool opened.history sizeofWbootConfig).2 (wbootLoadConfig fw root opened).1

theorem kept_files {visit : Visit} (none : visit.config fw = none) : FilesOnly (kept fw visit) := by
  intro ptr member
  unfold Visit.config at none
  unfold kept at member
  cases volume : visit.volume fw with
  | none =>
      rw [volume] at member
      exact Multiset.notMem_zero _ member
  | some opened =>
      rw [volume] at none member
      rw [Option.bind_some] at none
      simp only [none, Left, Multiset.cons_zero, Multiset.mem_singleton, reduceCtorEq] at member

variable {fw} {start before after : World} {held : Multiset Held}

theorem tryHandle_accounts (sound : AllocatorSound fw) (visit : Visit) {found : Option WbootConfig}
    (holds : Holds start held visit.before) (files : FilesOnly held)
    (run : tryHandle fw visit.handle visit.before = (found, after)) :
    Accounts fw start (kept fw visit + held) [visit] after := by
  have searches : Searches fw (Calls ordinary) := ordinary_searches fw
  unfold tryHandle at run
  rw [run_bind] at run
  obtain ⟨⟨⟩, printed, prints, run⟩ := run
  have calls : Calls ordinary printed after := by
    refine Relates.run ?_ run
    refine Relates.bind (searches.looks _ _ fun _ => trivial) fun fs => ?_
    refine .ite (fun _ => (searches.shows _ _).bind fun _ => .pure _) fun _ => ?_
    refine Relates.bind (searches.looks _ _ fun _ => trivial) fun root => .ite (fun _ => ?_) fun _ => ?_
    · exact (searches.shows _ _).bind fun _ => .pure _
    · exact searches.wbootLoadConfig _
  refine (path_settles sound holds files prints).then calls fun texts => ?_
  have path : (printDevicePath fw visit.handle visit.before).2 = printed := congrArg Prod.snd prints
  rw [run_bind] at run
  obtain ⟨fs, found, finds, run⟩ := run
  have finding := (handleProtocol_kept _ _).run finds _ _ texts
  unfold kept Visit.volume
  simp only [path, finds]
  rw [run_ite] at run
  rcases run with ⟨missing, run⟩ | ⟨there, run⟩
  · rw [run_bind] at run
    obtain ⟨_, told, tells, done⟩ := run
    cases done
    simp only [missing, ↓reduceIte, zero_add]
    exact (printf_kept sound _ _).run tells _ _ finding
  rw [run_bind] at run
  obtain ⟨root, volume, opens, run⟩ := run
  have opening := openVolume_holds finding opens
  simp only [there, Bool.false_eq_true, ↓reduceIte, opens]
  rw [run_ite] at run
  rcases run with ⟨closed, run⟩ | ⟨openable, run⟩
  · rw [run_bind] at run
    obtain ⟨_, told, tells, done⟩ := run
    cases done
    rw [if_pos closed] at opening
    simp only [closed, ↓reduceIte, zero_add]
    exact (printf_kept sound _ _).run tells _ _ opening
  · rw [if_neg openable] at opening
    have loading := (wbootLoadConfig_adds sound opening run).1
    simp only [openable, Bool.false_eq_true, ↓reduceIte, run, Multiset.cons_add]
    rw [← Multiset.add_cons]
    exact loading

theorem tryHandles_accounts (sound : AllocatorSound fw) {handles : List Nat} {found : Option WbootConfig}
    (holds : Holds start held before) (files : FilesOnly held)
    (run : tryHandles fw handles before = (found, after)) :
    Accounts fw start
      (((reached (fun visit => (visit.config fw).isSome) (visits fw handles before)).map (kept fw)).sum + held)
      (reached (fun visit => (visit.config fw).isSome) (visits fw handles before)) after := by
  induction handles generalizing before held with
  | nil =>
      cases run
      refine .nothing ?_
      rw [visits, reached, List.map_nil, List.sum_nil, zero_add]
      exact holds
  | cons handle rest ih =>
      rw [tryHandles, run_bind] at run
      obtain ⟨first, middle, tries, run⟩ := run
      have here := tryHandle_accounts sound ⟨handle, before⟩ holds files tries
      have answer : first = Visit.config fw ⟨handle, before⟩ := by
        rw [← (tryHandle_volume fw ⟨handle, before⟩).1, tries]
      subst answer
      rw [visits, reached, List.map_cons, List.sum_cons]
      simp only [tries]
      cases config : Visit.config fw ⟨handle, before⟩ with
      | some config =>
          rw [config] at run
          cases run
          simpa using here
      | none =>
          rw [config] at run
          refine here.cons (((ordinary_searches fw).tryHandles rest).run run) fun opens => ?_
          have later := ih opens ((kept_files fw config).add files) run
          rw [add_left_comm, ← add_assoc] at later
          exact later

/-- The visits that are made; none if the handles are not to be had. -/
def tried (fw : Firmware) (world : World) : List Visit :=
  if efiError (getDevicePathToText fw world).1 then []
  else if efiError (listed fw world).1.1 then []
  else reached (fun visit => (visit.config fw).isSome) (searched fw world)

theorem wbootLocateConfig_accounts (sound : AllocatorSound fw) {outcome : EfiStatus × Option WbootConfig}
    (holds : Holds start held before) (files : FilesOnly held)
    (run : wbootLocateConfig fw before = (outcome, after)) :
    Accounts fw start (((tried fw before).map (kept fw)).sum + held) (tried fw before) after := by
  unfold wbootLocateConfig at run
  rw [run_bind] at run
  obtain ⟨status, asked, asks, run⟩ := run
  have asking : Holds start held asked := (textProtocol_kept sound _).run asks _ _ holds
  unfold tried searched listed
  simp only [asks]
  rw [run_ite] at run
  rcases run with ⟨unable, run⟩ | ⟨able, run⟩
  · cases run
    simp only [unable, ↓reduceIte, List.map_nil, List.sum_nil, zero_add]
    exact .nothing asking
  rw [run_bind] at run
  obtain ⟨handles, listing, lists, run⟩ := run
  have listed : Holds start held listing := (service_kept _ _ (fun _ => rfl) fun _ _ => rfl).run lists _ _ asking
  simp only [able, Bool.false_eq_true, ↓reduceIte, lists]
  rw [run_ite] at run
  rcases run with ⟨unlisted, run⟩ | ⟨there, run⟩
  · cases run
    simp only [unlisted, ↓reduceIte, List.map_nil, List.sum_nil, zero_add]
    exact .nothing listed
  simp only [there, Bool.false_eq_true, ↓reduceIte]
  rw [run_bind] at run
  obtain ⟨found, ended, tries, run⟩ := run
  have accounts := tryHandles_accounts sound listed files tries
  cases found with
  | some config =>
      cases run
      exact accounts
  | none =>
      rw [run_bind] at run
      obtain ⟨_, _, warns, done⟩ := run
      cases done
      exact accounts.then (((ordinary_searches fw).shows _ _).run warns) ((printf_kept sound _ _).run warns _ _)

/-- Every volume that is passed over stays open, and the one that is taken keeps its configuration.
A path without its text has a NULL freed. -/
theorem wbootLocateConfig_settles_iff (fw : Firmware) (world : World) (sound : AllocatorSound fw)
    (early : world.bsExited = false) :
    (Settles world (wbootLocateConfig fw world).2 ((tried fw world).map (kept fw)).sum ↔
      ∀ visit ∈ tried fw world, visit.named fw) ∧
    ∀ visit ∈ tried fw world, ¬ visit.named fw → Faulty world (wbootLocateConfig fw world).2 := by
  have accounts := wbootLocateConfig_accounts sound (.nothing early) (fun _ => Multiset.notMem_zero _)
    (Prod.mk.eta.symm : wbootLocateConfig fw world = _)
  rw [add_zero] at accounts
  exact ⟨accounts.settles_iff, accounts.faults⟩

/-! Two volumes that open, of which the second has a configuration. -/

def lateVolume : Firmware := { diskFirmware with
  locateHandle := fun _ _ => (efiSuccess, [1, 2])
  handleProtocol := fun _ handle protocol =>
    if protocol = .devicePath then (efiNotFound, 0) else (efiSuccess, handle)
  openVolume := fun _ fs => (efiSuccess, fs)
  fileOpen := fun history root path => if root = 1 then (efiNotFound, 0) else diskFirmware.fileOpen history root path }

theorem lateVolume_sound : AllocatorSound lateVolume :=
  ⟨idleFirmware_sound.pool, idleFirmware_sound.pages, idleFirmware_sound.text, idleFirmware_sound.atAddress⟩

theorem late_volume_held :
    ((tried lateVolume bootWorld).map fun visit => (kept lateVolume visit).card) = [1, 5] ∧
      Settles bootWorld (wbootLocateConfig lateVolume bootWorld).2
        ((tried lateVolume bootWorld).map (kept lateVolume)).sum := by
  refine ⟨by decide +kernel, (wbootLocateConfig_settles_iff lateVolume bootWorld lateVolume_sound rfl).1.mpr ?_⟩
  intro visit _ pathed
  exact absurd pathed (by decide : efiError efiNotFound ≠ false)

end Config

end Wboot.SearchLedger
