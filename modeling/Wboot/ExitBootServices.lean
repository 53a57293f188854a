import Wboot.LinuxBoot
import Wboot.Effects

/-! `wboot_exit_bs` and `populate_bootparams_efi` (src/phase3/wboot.c): a size
query, a fetch with that size, and one retry with the whole buffer when the map
key was stale. The size passed to each call is kept apart from the size of the
buffer. -/

namespace Wboot.ExitBootServices
open StateProgram ByteMemory Machine LinuxBoot Wstdlib Effects

def populateBootparamsEfi (systemTable params memmap mapSize descSize descVer : Nat) :
    Prog Ram Unit := do
  memcpyFrom (params + Params.efiLoaderSignature.offset) (ascii "EL64")
  storeField params Params.efiSystab systemTable
  storeField params Params.efiSystabHi (systemTable >>> 32)
  storeField params Params.efiMemdescSize descSize
  storeField params Params.efiMemdescVersion descVer
  storeField params Params.efiMemmap memmap
  storeField params Params.efiMemmapHi (memmap >>> 32)
  storeField params Params.efiMemmapSize mapSize

def wstdlibBsExited : Boot Unit :=
  modifyState fun world => { world with bsExited := true }

section Code
variable (fw : Firmware)

/-- The retry; `none` is its `return NULL`. -/
def secondAttempt (bufferSize memmap : Nat) : Boot (Option MemoryMapReply) := do
  let reply ← getMemoryMap fw bufferSize memmap
  if efiError reply.status then
    perror fw (wide "[exit_bs] error getting memory map on second attempt") reply.status
    free fw memmap
    return none
  let status ← exitBootServices fw reply.mapKey
  if efiError status then
    perror fw (wide "[exit_bs] error exiting boot services on second attempt") status
    free fw memmap
    return none
  return some reply

/-- The fetch passes `map_size` as the query left it. -/
def firstAttempt (mapSize bufferSize memmap : Nat) : Boot (Option MemoryMapReply) := do
  let reply ← getMemoryMap fw mapSize memmap
  if efiError reply.status then
    perror fw (wide "[exit_bs] error getting memory map") reply.status
    free fw memmap
    return none
  let status ← exitBootServices fw reply.mapKey
  if efiError status then
    perror fw (wide "[exit_bs] warning: error exiting boot services") status
    printf fw (wide "[exit_bs] trying again!\r\n") []
    secondAttempt fw bufferSize memmap
  else return some reply

def wbootExitBs (params : Nat) : Boot Nat := do
  let query ← getMemoryMap fw 0 0
  if query.status ≠ efiBufferTooSmall then
    perror fw (wide "[exit_bs] error getting memory map size") query.status
    return 0
  -- add some slack in case the memory map changes
  let bufferSize := u64 (query.mapSize + query.descSize * 32)
  let memmap ← malloc fw bufferSize
  if memmap = 0 then
    let errno ← readState World.errno
    perror fw (wide "[exit_bs] error allocating memory for memory map") errno
    return 0
  match ← firstAttempt fw query.mapSize bufferSize memmap with
  | none => return 0
  | some reply =>
      -- no more EFI calls after this point!
      wstdlibBsExited
      inRam (populateBootparamsEfi fw.systemTable params memmap reply.mapSize reply.descSize
        (u32 reply.descVer))
      return memmap

end Code

theorem plain_retry : plain (wide "[exit_bs] trying again!\r\n") = true := by decide +kernel

/-! ### The ways out -/

section Courses
variable (fw : Firmware)

/-- A run that has a buffer for the map. -/
structure Buffering (before : World) where
  query : MemoryMapReply
  buffer : Nat
  queried : World
  allocated : World
  asks : getMemoryMap fw 0 0 before = (query, queried)
  answered : query.status = efiBufferTooSmall
  allocation : malloc fw (u64 (query.mapSize + query.descSize * 32)) queried = (buffer, allocated)
  present : buffer ≠ 0

inductive ExitCourse (params : Nat) (before : World) : Nat → World → Prop
  | unsized {query : MemoryMapReply} {queried after : World} (asks : getMemoryMap fw 0 0 before = (query, queried))
      (refused : query.status ≠ efiBufferTooSmall)
      (tells : perror fw (wide "[exit_bs] error getting memory map size") query.status queried = ((), after)) :
      ExitCourse params before 0 after
  | scarce {query : MemoryMapReply} {queried allocated after : World}
      (asks : getMemoryMap fw 0 0 before = (query, queried)) (answered : query.status = efiBufferTooSmall)
      (allocation : malloc fw (u64 (query.mapSize + query.descSize * 32)) queried = (0, allocated))
      (tells : perror fw (wide "[exit_bs] error allocating memory for memory map") allocated.errno allocated =
        ((), after)) : ExitCourse params before 0 after
  | refused (steps : Buffering fw before) {after : World}
      (attempts : firstAttempt fw steps.query.mapSize (u64 (steps.query.mapSize + steps.query.descSize * 32))
        steps.buffer steps.allocated = (none, after)) : ExitCourse params before 0 after
  | exited (steps : Buffering fw before) {reply : MemoryMapReply} {attempted after : World}
      (attempts : firstAttempt fw steps.query.mapSize (u64 (steps.query.mapSize + steps.query.descSize * 32))
        steps.buffer steps.allocated = (some reply, attempted))
      (ends : (do
        wstdlibBsExited
        inRam (populateBootparamsEfi fw.systemTable params steps.buffer reply.mapSize reply.descSize
          (u32 reply.descVer)) : Boot Unit) attempted = ((), after)) : ExitCourse params before steps.buffer after

theorem wbootExitBs_course {params memmap : Nat} {before after : World}
    (run : wbootExitBs fw params before = (memmap, after)) : ExitCourse fw params before memmap after := by
  unfold wbootExitBs at run
  rw [run_bind] at run
  obtain ⟨query, queried, asks, run⟩ := run
  rw [run_ite] at run
  rcases run with ⟨refused, run⟩ | ⟨served, run⟩
  · rw [run_bind] at run
    obtain ⟨_, told, tells, run⟩ := run
    cases run
    exact .unsized asks refused tells
  have answered := Decidable.not_not.mp served
  rw [run_bind] at run
  obtain ⟨buffer, allocated, allocation, run⟩ := run
  rw [run_ite] at run
  rcases run with ⟨null, run⟩ | ⟨present, run⟩
  · simp only [run_bind] at run
    obtain ⟨errno, _, here, _, told, tells, run⟩ := run
    obtain ⟨rfl, rfl⟩ := Prod.mk.inj here
    cases run
    exact .scarce asks answered (null ▸ allocation) tells
  let steps : Buffering fw before := { query, buffer, queried, allocated, asks, answered, allocation, present }
  rw [run_bind] at run
  obtain ⟨outcome, attempted, attempts, run⟩ := run
  cases outcome with
  | none =>
      cases run
      exact .refused steps attempts
  | some reply =>
      simp only [run_bind] at run
      obtain ⟨⟨⟩, flagged, flags, ⟨⟩, populated, fills, run⟩ := run
      cases run
      exact .exited steps attempts (run_bind.mpr ⟨(), flagged, flags, fills⟩)

end Courses

/-! ### The two attempts -/

/-- A call that leaves the boot services in charge and the allocations as they were. -/
def fruitless : Event → Prop
  | .getMemoryMap .. => True
  | .exitBootServices _ status => efiError status = true
  | _ => False

/-- Refused: the buffer was freed last. Accepted: the exit used the key of the
fetch right before it. -/
def Concluded (fw : Firmware) (memmap : Nat) (before after : History) : Option MemoryMapReply → Prop
  | none => ∃ status events, after = .freePool memmap status :: (events ++ before) ∧
      ∀ event ∈ events, fruitless event
  | some reply => ∃ size status events,
      after = .exitBootServices reply.mapKey status :: .getMemoryMap size memmap reply ::
        (events ++ before) ∧
      reply = fw.getMemoryMap (events ++ before) size memmap ∧
      efiError status = false ∧ efiError reply.status = false ∧ ∀ event ∈ events, fruitless event

theorem Concluded.prepend {fw : Firmware} {memmap : Nat} {before after : History} {outcome : Option MemoryMapReply}
    (earlier : List Event) (kind : ∀ event ∈ earlier, fruitless event)
    (concluded : Concluded fw memmap (earlier ++ before) after outcome) :
    Concluded fw memmap before after outcome := by
  cases outcome with
  | none =>
      obtain ⟨status, events, grown, later⟩ := concluded
      refine ⟨status, events ++ earlier, by rw [grown, List.append_assoc], ?_⟩
      simpa [List.mem_append, or_imp, forall_and] using ⟨later, kind⟩
  | some reply =>
      obtain ⟨size, status, events, grown, answered, accepted, fetched, later⟩ := concluded
      refine ⟨size, status, events ++ earlier, by rw [grown, List.append_assoc],
        by rw [answered, List.append_assoc], accepted, fetched, ?_⟩
      simpa [List.mem_append, or_imp, forall_and] using ⟨later, kind⟩

/-- Nothing but the buffer, the history, errno and the console differs. -/
structure Confined (memmap size : Nat) (before after : World) : Prop where
  bsExited : after.bsExited = before.bsExited
  mem : ∀ x, x < memmap ∨ memmap + size ≤ x → after.mem x = before.mem x

instance (memmap size : Nat) : IsPreorder World (Confined memmap size) where
  refl := fun _ => ⟨rfl, fun _ _ => rfl⟩
  trans := fun _ _ _ left right => ⟨right.bsExited.trans left.bsExited,
    fun x outside => (right.mem x outside).trans (left.mem x outside)⟩

section Attempts
variable {fw : Firmware} {memmap size : Nat} {before after : World}

theorem prints_confined (prints : Prints before after) : Confined memmap size before after :=
  ⟨prints.bsExited, fun x _ => congrFun prints.mem x⟩

theorem free_confined (ptr : Nat) (world : World) (early : world.bsExited = false) :
    Confined memmap size world (free fw ptr world).2 := by
  rw [free_apply fw ptr world early]
  split
  · exact Std.Refl.refl world
  · exact ⟨rfl, fun _ _ => rfl⟩

theorem fetch_step {passed : Nat} {reply : MemoryMapReply} (fits : passed ≤ size)
    (run : getMemoryMap fw passed memmap before = (reply, after)) :
    reply = fw.getMemoryMap before.history passed memmap ∧
      after.history = .getMemoryMap passed memmap reply :: before.history ∧
      Confined memmap size before after := by
  rw [getMemoryMap_apply] at run
  cases run
  refine ⟨rfl, rfl, rfl, fun x outside => ?_⟩
  dsimp only
  split
  · rfl
  · apply storeBytes_frame
    rw [List.length_take]
    omega

theorem exit_step (memmap size : Nat) {key : Nat} {status : EfiStatus}
    (run : exitBootServices fw key before = (status, after)) :
    after.history = .exitBootServices key status :: before.history ∧
      Confined memmap size before after := by
  cases run
  exact ⟨rfl, rfl, fun _ _ => rfl⟩

/-- The error exit both attempts share. -/
theorem giveUp_spec (size : Nat) (message : List UInt16) (status : EfiStatus) (early : before.bsExited = false)
    (present : memmap ≠ 0) {outcome : Option MemoryMapReply}
    (run : (do perror fw message status; free fw memmap; return none : Boot _) before =
      (outcome, after)) :
    Concluded fw memmap before.history after.history outcome ∧ Confined memmap size before after := by
  simp only [run_bind, run_pure] at run
  obtain ⟨_, printed, prints, _, freed, frees, done⟩ := run
  cases done
  have quiet := (perror_prints fw message status).run prints
  have still : printed.bsExited = false := quiet.bsExited.trans early
  have confined : Confined memmap size printed (free fw memmap printed).2 :=
    free_confined memmap printed still
  rw [frees] at confined
  refine ⟨?_, IsTrans.trans _ _ _ (prints_confined quiet) confined⟩
  rw [free_apply fw memmap printed still, if_neg present] at frees
  cases frees
  exact ⟨_, [], by rw [List.nil_append, ← quiet.history], by simp⟩

theorem secondAttempt_spec (early : before.bsExited = false) (present : memmap ≠ 0)
    {outcome : Option MemoryMapReply} (run : secondAttempt fw size memmap before = (outcome, after)) :
    Concluded fw memmap before.history after.history outcome ∧ Confined memmap size before after := by
  unfold secondAttempt at run
  rw [run_bind] at run
  obtain ⟨reply, fetched, asked, run⟩ := run
  obtain ⟨answered, asking, confined⟩ := fetch_step (Nat.le_refl size) asked
  have here := confined.bsExited.trans early
  rw [run_ite] at run
  rcases run with ⟨failed, run⟩ | ⟨delivered, run⟩
  · obtain ⟨concluded, later⟩ := giveUp_spec size _ _ here present run
    rw [asking] at concluded
    exact ⟨concluded.prepend [_] (by simp [fruitless]), IsTrans.trans _ _ _ confined later⟩
  · rw [run_bind] at run
    obtain ⟨status, exited, exits, run⟩ := run
    obtain ⟨exiting, still⟩ := exit_step memmap size exits
    have reached := IsTrans.trans _ _ _ confined still
    rw [asking] at exiting
    rw [run_ite] at run
    rcases run with ⟨failed, run⟩ | ⟨accepted, run⟩
    · obtain ⟨concluded, later⟩ := giveUp_spec size _ _ (still.bsExited.trans here)
        present run
      rw [exiting] at concluded
      exact ⟨concluded.prepend [_, _] (by simp [fruitless, failed]), IsTrans.trans _ _ _ reached later⟩
    · cases run
      exact ⟨⟨size, status, [], exiting, answered, by simpa using accepted, by simpa using delivered,
        by simp⟩,
        reached⟩

theorem firstAttempt_spec {passed : Nat} (fits : passed ≤ size) (early : before.bsExited = false)
    (present : memmap ≠ 0) {outcome : Option MemoryMapReply}
    (run : firstAttempt fw passed size memmap before = (outcome, after)) :
    Concluded fw memmap before.history after.history outcome ∧ Confined memmap size before after := by
  unfold firstAttempt at run
  rw [run_bind] at run
  obtain ⟨reply, fetched, asked, run⟩ := run
  obtain ⟨answered, asking, confined⟩ := fetch_step fits asked
  have here := confined.bsExited.trans early
  rw [run_ite] at run
  -- a failed fetch gives up at once
  rcases run with ⟨failed, run⟩ | ⟨delivered, run⟩
  · obtain ⟨concluded, later⟩ := giveUp_spec size _ _ here present run
    rw [asking] at concluded
    exact ⟨concluded.prepend [_] (by simp [fruitless]), IsTrans.trans _ _ _ confined later⟩
  · rw [run_bind] at run
    obtain ⟨status, exited, exits, run⟩ := run
    obtain ⟨exiting, still⟩ := exit_step memmap size exits
    have reached := IsTrans.trans _ _ _ confined still
    rw [asking] at exiting
    rw [run_ite] at run
    -- a refused exit fetches once more, now with the size of the whole buffer
    rcases run with ⟨failed, run⟩ | ⟨accepted, run⟩
    · simp only [run_bind] at run
      obtain ⟨_, warned, warns, _, told, tells, run⟩ := run
      have quiet : Prints exited told := IsTrans.trans _ _ _ ((perror_prints fw _ _).run warns)
        ((printf_prints fw _ _ plain_retry).run tells)
      have ready := (quiet.bsExited.trans still.bsExited).trans here
      obtain ⟨concluded, later⟩ := secondAttempt_spec ready present run
      rw [quiet.history, exiting] at concluded
      exact ⟨concluded.prepend [_, _] (by simp [fruitless, failed]),
        IsTrans.trans _ _ _ (IsTrans.trans _ _ _ reached (prints_confined quiet)) later⟩
    · cases run
      exact ⟨⟨passed, status, [], exiting, answered, by simpa using accepted, by simpa using delivered,
        by simp⟩,
        reached⟩

end Attempts

/-! ### What efi_info holds afterwards -/

/-- The address as its user puts it together from the halves. -/
def recordedMap (memory : Memory) (params : Nat) : Nat :=
  Params.efiMemmap.get memory params ||| Params.efiMemmapHi.get memory params <<< 32

structure EfiInfoRecords (memory : Memory) (params memmap : Nat) (reply : MemoryMapReply) : Prop where
  address : recordedMap memory params = u64 memmap
  mapSize : Params.efiMemmapSize.get memory params = reply.mapSize
  descSize : Params.efiMemdescSize.get memory params = reply.descSize
  descVer : Params.efiMemdescVersion.get memory params = u32 reply.descVer

theorem halves_joined (value : Nat) :
    (value % 2 ^ 32 ||| ((value >>> 32) % 2 ^ 32) <<< 32) = value % 2 ^ 64 := by
  apply Nat.eq_of_testBit_eq
  intro i
  simp only [Nat.testBit_or, Nat.testBit_mod_two_pow, Nat.testBit_shiftLeft, Nat.testBit_shiftRight]
  by_cases low : i < 32
  · have wide : i < 64 := by omega
    simp [low, wide]
  · have high : 32 ≤ i := by omega
    have same : 32 + (i - 32) = i := by omega
    have narrow : (i - 32 < 32) = (i < 64) := propext (by omega)
    simp [low, high, same, narrow]

/-- What the stores leave: the addresses whole, the sizes as far as they go. -/
theorem populateBootparamsEfi_fields (systemTable params memmap mapSize descSize descVer : Nat)
    (ram : Ram) :
    let memory := (populateBootparamsEfi systemTable params memmap mapSize descSize descVer ram).2.mem
    recordedMap memory params = u64 memmap ∧
      Params.efiSystab.get memory params ||| Params.efiSystabHi.get memory params <<< 32 =
        u64 systemTable ∧
      Params.efiMemmapSize.get memory params = u32 mapSize ∧
      Params.efiMemdescSize.get memory params = u32 descSize ∧
      Params.efiMemdescVersion.get memory params = u32 descVer := by
  have word : 256 ^ 4 = 2 ^ 32 := by norm_num
  unfold populateBootparamsEfi recordedMap
  simp (disch := decide) only [bind_apply, storeField, modifyState_apply, Field.get_set_other,
    Field.get_set_same]
  simp only [Params.efiMemmap, Params.efiMemmapHi, Params.efiSystab, Params.efiSystabHi,
    Params.efiMemmapSize, Params.efiMemdescSize, Params.efiMemdescVersion, word]
  exact ⟨halves_joined memmap, halves_joined systemTable, rfl, rfl, rfl⟩

theorem populateBootparamsEfi_records (systemTable params memmap : Nat) (reply : MemoryMapReply)
    (narrow : reply.mapSize < 2 ^ 32 ∧ reply.descSize < 2 ^ 32) (ram : Ram) :
    EfiInfoRecords (populateBootparamsEfi systemTable params memmap reply.mapSize reply.descSize
      (u32 reply.descVer) ram).2.mem params memmap reply := by
  obtain ⟨address, -, mapSize, descSize, descVer⟩ := populateBootparamsEfi_fields systemTable params
    memmap reply.mapSize reply.descSize (u32 reply.descVer) ram
  exact ⟨address, mapSize.trans (Nat.mod_eq_of_lt narrow.1), descSize.trans (Nat.mod_eq_of_lt narrow.2),
    descVer.trans (Nat.mod_mod _ _)⟩

theorem populateBootparamsEfi_frame (systemTable params memmap mapSize descSize descVer : Nat)
    (ram : Ram) (x : Nat) (outside : x < params + Params.efiLoaderSignature.offset ∨
      params + Params.efiMemmapHi.offset + Params.efiMemmapHi.width ≤ x) :
    (populateBootparamsEfi systemTable params memmap mapSize descSize descVer ram).2.mem x =
      ram.mem x := by
  have signed : (ascii "EL64").length = 4 := by decide
  unfold populateBootparamsEfi
  simp only [bind_apply, storeField, modifyState_apply, memcpyFrom, deliver]
  rw [Field.set_frame, Field.set_frame, Field.set_frame, Field.set_frame, Field.set_frame,
    Field.set_frame, Field.set_frame, storeBytes_frame]
  all_goals
    simp only [signed, Params.efiLoaderSignature, Params.efiSystab, Params.efiSystabHi,
      Params.efiMemdescSize, Params.efiMemdescVersion, Params.efiMemmap, Params.efiMemmapHi,
      Params.efiMemmapSize] at outside ⊢
    omega

/-! ### The whole function -/

theorem fruitless_live (events : List Event) (kind : ∀ event ∈ events, fruitless event)
    (before : History) : live (events ++ before) = live before := by
  induction events with
  | nil => rfl
  | cons event rest ih =>
      have first := kind event List.mem_cons_self
      have tail := ih fun older member => kind older (List.mem_cons_of_mem event member)
      cases event <;> first | exact first.elim | exact tail

/-- The call ended with the boot services gone, and the records are of the map
whose key was accepted. -/
def Exited (after : World) (params memmap : Nat) : Prop :=
  ∃ size status reply earlier,
    after.history = .exitBootServices reply.mapKey status :: .getMemoryMap size memmap reply :: earlier ∧
    efiError status = false ∧ efiError reply.status = false ∧
    EfiInfoRecords after.mem params memmap reply ∧ after.bsExited = true

/-- The call changed nothing that outlives it. -/
structure Unchanged (before after : World) (params : Nat) : Prop where
  neverExited : ∃ events, after.history = events ++ before.history ∧
    ∀ key status, .exitBootServices key status ∈ events → efiError status = true
  bootParams : SameOn after.mem before.mem params sizeofBootParams
  freed : live after.history = live before.history
  bsExited : after.bsExited = false

section Whole
variable {fw : Firmware} {before after : World} {params : Nat}

theorem fruitless_neverExits {events : List Event} (kind : ∀ event ∈ events, fruitless event)
    (key : Nat) (status : EfiStatus) (member : .exitBootServices key status ∈ events) :
    efiError status = true := kind _ member

/-- A failed allocation or a size query leaves nothing but a printed message. -/
theorem printed_unchanged {middle : World} (events : List Event)
    (grown : middle.history = events ++ before.history)
    (harmless : ∀ key status, .exitBootServices key status ∈ events → efiError status = true)
    (lives : live middle.history = live before.history) (mem : middle.mem = before.mem)
    (still : middle.bsExited = false) (prints : Prints middle after) :
    Unchanged before after params where
  neverExited := ⟨events, by rw [prints.history, grown], harmless⟩
  bootParams := fun x _ _ => by rw [prints.mem, mem]
  freed := by rw [prints.history, lives]
  bsExited := prints.bsExited.trans still

/-- An attempt that was refused has freed the buffer it was given. -/
theorem refused_unchanged {grabbed : World} {size pointer buffer : Nat} {allocStatus status : EfiStatus}
    {query : MemoryMapReply} {events : List Event}
    (held : ⟨.pool, params, sizeofBootParams⟩ ∈ live before.history)
    (allocating : grabbed.history =
      .allocatePool size allocStatus pointer :: .getMemoryMap 0 0 query :: before.history)
    (fresh : Fresh (live before.history) ⟨.pool, buffer, size⟩)
    (lives : live grabbed.history = ⟨.pool, buffer, size⟩ :: live before.history)
    (here : grabbed.mem = before.mem) (ready : grabbed.bsExited = false)
    (grown : after.history = .freePool buffer status :: (events ++ grabbed.history))
    (kind : ∀ event ∈ events, fruitless event) (later : Confined buffer size grabbed after) :
    Unchanged before after params := by
  refine ⟨⟨.freePool buffer status :: (events ++ [.allocatePool size allocStatus pointer,
    .getMemoryMap 0 0 query]), ?_, ?_⟩, ?_, ?_, later.bsExited.trans ready⟩
  · rw [grown, allocating, List.cons_append, List.append_assoc]
    rfl
  · intro key exitStatus member
    simp only [List.mem_cons, List.mem_append, reduceCtorEq, List.not_mem_nil, or_false,
      false_or] at member
    exact fruitless_neverExits kind key exitStatus member
  · intro x lower upper
    have apart := fresh.apart _ held
    unfold Apart at apart
    exact (later.mem x (by dsimp only at apart; omega)).trans (congrFun here x)
  · rw [grown]
    simp only [live]
    rw [fruitless_live events kind, lives]
    simp [Block.named]

/-- The world in which the first attempt is made. -/
theorem Buffering.ready (sound : AllocatorSound fw)
    (bounded : (fw.getMemoryMap before.history 0 0).mapSize +
      (fw.getMemoryMap before.history 0 0).descSize * 32 < 2 ^ 64)
    (early : before.bsExited = false) (steps : Buffering fw before) :
    steps.queried.history = .getMemoryMap 0 0 steps.query :: before.history ∧ steps.allocated.bsExited = false ∧
      Allocates (u64 (steps.query.mapSize + steps.query.descSize * 32)) steps.buffer steps.queried steps.allocated ∧
      steps.query.mapSize ≤ u64 (steps.query.mapSize + steps.query.descSize * 32) ∧
      steps.allocated.mem = before.mem := by
  obtain ⟨answered, asking, confined⟩ := fetch_step (Nat.le_refl 0) steps.asks
  have still := confined.bsExited.trans early
  have allocates := malloc_allocates fw sound still steps.allocation
  rw [← answered] at bounded
  refine ⟨asking, allocates.bsExited.trans still, allocates, ?_, ?_⟩
  · unfold u64
    omega
  · exact (congrArg Ram.mem allocates.ram).trans (funext fun x => confined.mem x (by omega))

/-- On the first attempt as on the retry: either the newest two calls are the
fetch and the exit with its key, or nothing was changed. -/
theorem wbootExitBs_protocol (sound : AllocatorSound fw)
    (narrow : ∀ history size buffer, (fw.getMemoryMap history size buffer).mapSize < 2 ^ 32 ∧
      (fw.getMemoryMap history size buffer).descSize < 2 ^ 32)
    (early : before.bsExited = false)
    (held : ⟨.pool, params, sizeofBootParams⟩ ∈ live before.history) {memmap : Nat}
    (run : wbootExitBs fw params before = (memmap, after)) :
    (memmap ≠ 0 → Exited after params memmap) ∧ (memmap = 0 → Unchanged before after params) := by
  -- the requested size cannot wrap, since both answers are 32 bits wide
  have bounded : (fw.getMemoryMap before.history 0 0).mapSize +
      (fw.getMemoryMap before.history 0 0).descSize * 32 < 2 ^ 64 := by
    have sizes := narrow before.history 0 0
    omega
  -- three courses return a null map, and then the page and the live blocks are as before
  cases wbootExitBs_course fw run with
  | unsized asks _ tells =>
      obtain ⟨-, asking, confined⟩ := fetch_step (Nat.le_refl 0) asks
      refine ⟨fun nonnull => absurd rfl nonnull, fun _ => printed_unchanged [_] asking (by simp) ?_ ?_
        (confined.bsExited.trans early) ((perror_prints fw _ _).run tells)⟩
      · rw [asking]
        rfl
      · exact funext fun x => confined.mem x (by omega)
  | scarce asks _ allocation tells =>
      obtain ⟨-, asking, confined⟩ := fetch_step (Nat.le_refl 0) asks
      have still := confined.bsExited.trans early
      have allocates := malloc_allocates fw sound still allocation
      obtain ⟨allocStatus, pointer, allocating⟩ := allocates.history
      rw [asking] at allocating
      refine ⟨fun nonnull => absurd rfl nonnull, fun _ => printed_unchanged [_, _] allocating (by simp) ?_ ?_
        (allocates.bsExited.trans still) ((perror_prints fw _ _).run tells)⟩
      · rw [allocates.failed rfl, asking]
        rfl
      · exact (congrArg Ram.mem allocates.ram).trans (funext fun x => confined.mem x (by omega))
  | refused steps attempts =>
      obtain ⟨asking, ready, allocates, fits, here⟩ := steps.ready sound bounded early
      obtain ⟨⟨status, events, grown, kind⟩, later⟩ := firstAttempt_spec fits ready steps.present attempts
      obtain ⟨allocStatus, pointer, allocating⟩ := allocates.history
      have fresh := allocates.fresh steps.present
      have lives := allocates.lives steps.present
      rw [asking] at allocating fresh lives
      exact ⟨fun nonnull => absurd rfl nonnull, fun _ =>
        refused_unchanged held allocating fresh lives here ready grown kind later⟩
  | exited steps attempts ends =>
      obtain ⟨-, ready, -, fits, -⟩ := steps.ready sound bounded early
      obtain ⟨⟨size, status, events, grown, fetched, accepted, delivered, kind⟩, -⟩ :=
        firstAttempt_spec fits ready steps.present attempts
      cases ends
      refine ⟨fun _ => ⟨size, status, _, _, grown, accepted, delivered, ?_, rfl⟩,
        fun null => absurd null steps.present⟩
      exact populateBootparamsEfi_records fw.systemTable params steps.buffer _
        (fetched ▸ narrow _ size steps.buffer) _

/-! A firmware whose map key is stale once, and a zero page it allocated before. -/

def staleOnce : Firmware :=
  { idleFirmware with
    getMemoryMap := fun _ size _ =>
      ⟨if size = 0 then efiBufferTooSmall else efiSuccess, 96, 7, 48, 1, []⟩
    exitBootServices := fun history _ =>
      if history.any fun event => event matches .exitBootServices .. then efiSuccess
      else efiInvalidParameter }

def withBootParams : World :=
  { bootWorld with history := [.allocatePool sizeofBootParams efiSuccess 0x10000] }

theorem wbootExitBs_protocol_retried :
    Exited (wbootExitBs staleOnce 0x10000 withBootParams).2 0x10000
      (wbootExitBs staleOnce 0x10000 withBootParams).1 :=
  (@wbootExitBs_protocol staleOnce withBootParams _ 0x10000
    ⟨idleFirmware_sound.pool, idleFirmware_sound.pages, idleFirmware_sound.text,
      idleFirmware_sound.atAddress⟩
    (fun _ _ _ => ⟨(by decide : 96 < 2 ^ 32), (by decide : 48 < 2 ^ 32)⟩) rfl List.mem_cons_self _
    Prod.mk.eta.symm).1 (by decide +kernel)

end Whole

/-! ### Slack

The buffer has room for 32 more descriptors, but the first fetch passes the size
from the query, which is too small as soon as the map has one more. -/

/-- A firmware with `count` descriptors of one size in its map at each time, that
refuses a buffer only when the map does not fit, allocates, and accepts a key
that is current. -/
structure Answers (fw : Firmware) (count : History → Nat) (descSize : Nat) : Prop where
  status : ∀ history size buffer, (fw.getMemoryMap history size buffer).status =
    if size < count history * descSize then efiBufferTooSmall else efiSuccess
  mapSize : ∀ history size buffer,
    (fw.getMemoryMap history size buffer).mapSize = count history * descSize
  stride : ∀ history size buffer, (fw.getMemoryMap history size buffer).descSize = descSize
  pool : ∀ history size, efiError (fw.allocatePool history size).1 = false ∧
    (fw.allocatePool history size).2 ≠ 0
  current : ∀ history size buffer, count history * descSize ≤ size →
    efiError (fw.exitBootServices
      (.getMemoryMap size buffer (fw.getMemoryMap history size buffer) :: history)
      (fw.getMemoryMap history size buffer).mapKey) = false

/-- The history at the first fetch: the size query and the allocation of the buffer. -/
def fetchHistory (fw : Firmware) (history : History) : History :=
  let query := fw.getMemoryMap history 0 0
  let queried := .getMemoryMap 0 0 query :: history
  let size := u64 (query.mapSize + query.descSize * 32)
  .allocatePool size (fw.allocatePool queried size).1 (fw.allocatePool queried size).2 :: queried

/-- A map that grows by up to 32 descriptors between the query and the fetch does
not keep the exit from succeeding. -/
def SlackAbsorbsGrowth : Prop :=
  ∀ (fw : Firmware) (count : History → Nat) (descSize growth params : Nat) (before : World),
    0 < descSize → Answers fw count descSize → before.bsExited = false → growth ≤ 32 →
    count (fetchHistory fw before.history) = count before.history + growth →
    (wbootExitBs fw params before).1 ≠ 0

section Slack
variable {fw : Firmware} {count : History → Nat} {descSize : Nat}

/-- A fetch that fits is followed by a successful exit, one that does not by giving up. -/
theorem firstAttempt_isSome (answers : Answers fw count descSize) (passed size memmap : Nat)
    (world : World) :
    (firstAttempt fw passed size memmap world).1.isSome =
      decide (count world.history * descSize ≤ passed) := by
  have status := answers.status world.history passed memmap
  unfold firstAttempt
  simp only [bind_apply, branch_apply, getMemoryMap_apply, status]
  by_cases fits : count world.history * descSize ≤ passed
  · have accepted := answers.current world.history passed memmap fits
    rw [if_neg (Nat.not_lt.mpr fits), if_neg (by decide)]
    unfold exitBootServices
    simp [accepted, fits]
  · rw [if_pos (Nat.lt_of_not_le fits), if_pos (by decide)]
    simp [fits]

/-- The first attempt after a query and an allocation. -/
theorem firstAttempt_grown {before : World} {growth : Nat} (stride : 0 < descSize)
    (answers : Answers fw count descSize) (early : before.bsExited = false)
    (grown : count (fetchHistory fw before.history) = count before.history + growth)
    (steps : Buffering fw before) :
    (firstAttempt fw steps.query.mapSize (u64 (steps.query.mapSize + steps.query.descSize * 32)) steps.buffer
        steps.allocated).1.isSome = decide (growth = 0) ∧ 0 < count before.history := by
  obtain ⟨query, buffer, queried, allocated, asks, served, allocation, present⟩ := steps
  rw [getMemoryMap_apply] at asks
  obtain ⟨answered, asking⟩ := Prod.mk.inj asks
  have status := answers.status before.history 0 0
  rw [answered, served] at status
  have some : 0 < count before.history := by
    by_contra none
    have empty : count before.history = 0 := by omega
    rw [empty, Nat.zero_mul, if_neg (Nat.lt_irrefl 0)] at status
    exact absurd status (by decide)
  have queriedHistory : queried.history = .getMemoryMap 0 0 query :: before.history := by
    rw [← asking, ← answered]
  have still : queried.bsExited = false := by rw [← asking]; exact early
  obtain ⟨granted, -⟩ := answers.pool queried.history (u64 (query.mapSize + query.descSize * 32))
  rw [malloc_apply fw _ queried still, if_neg (by rw [granted]; decide)] at allocation
  have here : allocated.history = fetchHistory fw before.history := by
    rw [← (Prod.mk.inj allocation).2, queriedHistory, ← answered]
    rfl
  have sized : query.mapSize = count before.history * descSize := by
    rw [← answered, answers.mapSize]
  have fits : (count before.history + growth) * descSize ≤ count before.history * descSize ↔ growth = 0 := by
    rw [Nat.mul_le_mul_right_iff stride]
    omega
  refine ⟨?_, some⟩
  rw [firstAttempt_isSome answers, here, grown, sized, decide_eq_decide.mpr fits]

/-- The exit succeeds exactly when the map was not empty and did not grow at all. -/
theorem exits_iff_no_growth (stride : 0 < descSize) (answers : Answers fw count descSize)
    (params growth : Nat) {before : World} (early : before.bsExited = false)
    (grown : count (fetchHistory fw before.history) = count before.history + growth) :
    (wbootExitBs fw params before).1 ≠ 0 ↔ 0 < count before.history ∧ growth = 0 := by
  obtain ⟨memmap, after, run⟩ : ∃ memmap after, wbootExitBs fw params before = (memmap, after) :=
    ⟨_, _, Prod.mk.eta.symm⟩
  have result : (wbootExitBs fw params before).1 = memmap := congrArg Prod.fst run
  have status := answers.status before.history 0 0
  rw [result]
  -- an empty map is the only one that the first query answers without an error
  cases wbootExitBs_course fw run with
  | unsized asks refused _ =>
      rw [getMemoryMap_apply] at asks
      obtain ⟨answered, -⟩ := Prod.mk.inj asks
      rw [answered] at status
      have empty : count before.history = 0 := by
        by_contra some
        have bytes : 0 < count before.history * descSize := Nat.mul_pos (by omega) stride
        rw [if_pos bytes] at status
        exact refused status
      simp [empty]
  | scarce asks _ allocation _ =>
      rw [getMemoryMap_apply] at asks
      obtain ⟨-, asking⟩ := Prod.mk.inj asks
      rw [malloc_apply fw _ _ (by rw [← asking]; exact early)] at allocation
      obtain ⟨granted, nonnull⟩ := answers.pool _ _
      rw [if_neg (by rw [granted]; decide)] at allocation
      -- this firmware never refuses pool memory
      exact absurd (congrArg Prod.fst allocation) nonnull
  | refused steps attempts =>
      obtain ⟨decided, some⟩ := firstAttempt_grown stride answers early grown steps
      rw [attempts] at decided
      simpa using fun _ => of_decide_eq_false decided.symm
  | exited steps attempts _ =>
      obtain ⟨decided, some⟩ := firstAttempt_grown stride answers early grown steps
      rw [attempts] at decided
      simpa [steps.present, some] using of_decide_eq_true decided.symm

/-! One descriptor at the query, one more once the buffer is allocated. -/

def onePerAllocation (history : History) : Nat := (live history).length + 1

def countedFirmware (count : History → Nat) : Firmware :=
  { idleFirmware with
    getMemoryMap := fun history size _ =>
      ⟨if size < count history * 48 then efiBufferTooSmall else efiSuccess, count history * 48, 1, 48,
        1, []⟩
    allocatePool := fun _ _ => (efiSuccess, 0x1000000) }

theorem countedFirmware_answers (count : History → Nat) :
    Answers (countedFirmware count) count 48 where
  status := fun _ _ _ => rfl
  mapSize := fun _ _ _ => rfl
  stride := fun _ _ _ => rfl
  pool := fun _ _ => ⟨rfl, by change 0x1000000 ≠ 0; decide⟩
  current := fun _ _ _ _ => rfl

theorem one_more_descriptor_fails : ¬ SlackAbsorbsGrowth := by
  intro absorbs
  exact absorbs (countedFirmware onePerAllocation) onePerAllocation 48 1 0x10000 bootWorld
    (by decide) (countedFirmware_answers _) rfl (by decide) (by decide +kernel) (by decide +kernel)

theorem steady_map_exits :
    (wbootExitBs (countedFirmware fun _ => 1) 0x10000 bootWorld).1 ≠ 0 ∧
      (wbootExitBs (countedFirmware onePerAllocation) 0x10000 bootWorld).1 = 0 := by
  have early : bootWorld.bsExited = false := rfl
  have steady := exits_iff_no_growth (by decide) (countedFirmware_answers fun _ => 1) 0x10000 0 early rfl
  have grown := exits_iff_no_growth (by decide) (countedFirmware_answers onePerAllocation) 0x10000 1 early
    (by decide +kernel)
  refine ⟨steady.mpr ⟨Nat.one_pos, rfl⟩, ?_⟩
  by_contra exits
  exact absurd (grown.mp exits).2 Nat.one_ne_zero

end Slack

end Wboot.ExitBootServices
