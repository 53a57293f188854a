import Wboot.E820Sizing
import Wboot.ExitBootServices

/-! What becomes of the blocks that are live while the steps before the handoff take
and return blocks of their own. -/

namespace Wboot.Blocks
open StateProgram ByteMemory Machine LinuxBoot Wstdlib Effects E820Sizing ExitBootServices

/-- A live block stays, with its bytes. -/
def Spares (block : Block) (before after : World) : Prop :=
  block ∈ live before.history →
    block ∈ live after.history ∧ SameOn after.mem before.mem block.start block.size

instance (block : Block) : IsPreorder World (Spares block) where
  refl := fun _ member => ⟨member, fun _ _ _ => rfl⟩
  trans := fun _ _ _ left right member => by
    obtain ⟨middle, first⟩ := left member
    obtain ⟨last, second⟩ := right middle
    exact ⟨last, fun x lower upper => (second x lower upper).trans (first x lower upper)⟩

section Steps
variable {fw : Firmware} {block : Block} {before after : World}

theorem prints_spares (prints : Prints before after) : Spares block before after :=
  fun member => ⟨prints.history ▸ member, fun x _ _ => congrFun prints.mem x⟩

theorem allocates_spares {size ptr : Nat} (allocates : Allocates size ptr before after) :
    Spares block before after :=
  fun member => ⟨allocates.keeps member, fun x _ _ => congrFun (congrArg Ram.mem allocates.ram) x⟩

/-- A pointer that frees another block, if any. -/
def Harmless (block : Block) (ptr : Nat) : Prop := ptr = 0 ∨ (block.kind = .pool → block.start ≠ ptr)

theorem allocates_harmless {size ptr : Nat} (allocates : Allocates size ptr before after)
    (member : block ∈ live before.history) : Harmless block ptr := by
  by_cases null : ptr = 0
  · exact Or.inl null
  · exact Or.inr fun pool => (allocates.fresh null).unnamed block member pool rfl

theorem free_spares {ptr : Nat} (harmless : Harmless block ptr) (early : before.bsExited = false)
    (run : free fw ptr before = ((), after)) : Spares block before after ∧ after.bsExited = false := by
  rw [free_apply fw ptr before early] at run
  split at run
  · cases run
    exact ⟨Std.Refl.refl _, early⟩
  · rename_i present
    cases run
    refine ⟨fun member => ⟨?_, fun _ _ _ => rfl⟩, early⟩
    refine (List.mem_eraseP_of_neg ?_).mpr member
    simp only [Block.named, decide_eq_true_eq, not_and]
    exact fun pool => (harmless.resolve_left present) pool

theorem fetch_spares {passed size memmap : Nat} {reply : MemoryMapReply} (fits : passed ≤ size)
    (apart : Apart memmap size block.start block.size)
    (run : getMemoryMap fw passed memmap before = (reply, after)) : Spares block before after := by
  obtain ⟨-, history, confined⟩ := fetch_step fits run
  refine fun member => ⟨history ▸ member, fun x lower upper => confined.mem x ?_⟩
  unfold Apart at apart
  omega

end Steps

/-! ### `wboot_allocate_e820` -/

section Sizing
variable {fw : Firmware} {before after : World} {status : EfiStatus} {buffer : E820Buffer}

/-- No buffer, or a block of its own. -/
def OwnNode (before after : History) (buffer : E820Buffer) : Prop :=
  buffer = noBuffer ∨ (buffer.node ≠ 0 ∧ Fresh (live before) ⟨.pool, buffer.node, buffer.size⟩ ∧
    ⟨.pool, buffer.node, buffer.size⟩ ∈ live after)

theorem fresh_later {blocks : List Block} {newest block : Block} (fresh : Fresh (newest :: blocks) block) :
    Fresh blocks block where
  bounded := fresh.bounded
  nonnull := fresh.nonnull
  unnamed := fun old member => fresh.unnamed old (List.mem_cons_of_mem newest member)
  apart := fun old member => fresh.apart old (List.mem_cons_of_mem newest member)

/-- A call that succeeds leaves every block that was live and returns one of its own. -/
theorem wbootAllocateE820_run (sound : AllocatorSound fw) (early : before.bsExited = false)
    (run : wbootAllocateE820 fw noBuffer before = ((status, buffer), after))
    (fine : efiError status = false) :
    after.bsExited = false ∧ (∀ block, Spares block before after) ∧
      OwnNode before.history after.history buffer := by
  unfold wbootAllocateE820 at run
  rw [run_bind] at run
  obtain ⟨query, queried, asked, run⟩ := run
  obtain ⟨-, asking, unmapped⟩ := fetch_step (Nat.le_refl 0) asked
  have idle (block : Block) : Spares block before queried :=
    fetch_spares (Nat.le_refl 0) (Or.inl (Nat.zero_le _)) asked
  have still := unmapped.bsExited.trans early
  rw [run_ite] at run
  -- the size query answers something else than EFI_BUFFER_TOO_SMALL: nothing was allocated yet
  rcases run with ⟨-, run⟩ | ⟨-, run⟩
  · rw [run_bind] at run
    obtain ⟨_, printed, prints, done⟩ := run
    have quiet := (printf_prints fw _ _ (by decide +kernel)).run prints
    cases done
    exact ⟨quiet.bsExited.trans still, fun block => IsTrans.trans _ _ _ (idle block) (prints_spares quiet),
      Or.inl rfl⟩
  rw [run_bind] at run
  obtain ⟨memmap, grabbed, grabs, run⟩ := run
  have allocates := malloc_allocates fw sound still grabs
  rw [run_ite] at run
  rcases run with ⟨-, run⟩ | ⟨present, run⟩
  · simp only [run_bind] at run
    obtain ⟨_, _, _, _, printed, prints, done⟩ := run
    cases done
    exact absurd fine (by decide)
  have lives := allocates.lives present
  have same : live queried.history = live before.history := by rw [asking]; rfl
  rw [same] at lives
  rw [run_bind] at run
  -- the map is fetched into the fresh buffer, which misses every block that was live
  obtain ⟨reply, fetched, fetches, run⟩ := run
  obtain ⟨-, fetching, confined⟩ := fetch_step (Nat.le_refl _) fetches
  have ready := confined.bsExited.trans (allocates.bsExited.trans still)
  have kept (block : Block) (member : block ∈ live before.history) : Spares block before fetched := by
    have apart := (allocates.fresh present).apart block (same ▸ member)
    exact IsTrans.trans _ _ _ (IsTrans.trans _ _ _ (idle block) (allocates_spares allocates))
      (fetch_spares (Nat.le_refl _) apart fetches)
  have harmless (block : Block) (member : block ∈ live before.history) : Harmless block memmap :=
    allocates_harmless allocates (same ▸ member)
  rw [run_ite] at run
  rcases run with ⟨failed, run⟩ | ⟨-, run⟩
  · simp only [run_bind] at run
    obtain ⟨_, _, _, _, _, _, done⟩ := run
    cases done
    exact Bool.noConfusion (fine.symm.trans failed)
  rw [run_ite] at run
  -- many descriptors take a node of their own, few leave the buffer empty
  rcases run with ⟨-, run⟩ | ⟨-, run⟩
  · rw [run_bind] at run
    obtain ⟨node, extended, extends', run⟩ := run
    have owns := malloc_allocates fw sound ready extends'
    have later := owns.bsExited.trans ready
    rw [run_ite] at run
    rcases run with ⟨-, run⟩ | ⟨nonnull, run⟩
    · simp only [run_bind] at run
      obtain ⟨_, _, _, _, _, _, _, _, _, done⟩ := run
      cases done
      exact absurd fine (by decide)
    rw [run_bind] at run
    obtain ⟨_, _, frees, done⟩ := run
    cases done
    have fresh := owns.fresh nonnull
    rw [fetching] at fresh
    change Fresh (live grabbed.history) _ at fresh
    rw [lives] at fresh
    -- freeing the map spares the node: the node is fresh while the map is still live
    have other : Harmless ⟨.pool, node, u32 (sizeofSetupData + sizeofBootE820Entry *
        u32 (reply.mapSize / reply.descSize))⟩ memmap :=
      Or.inr fun _ => (fresh.unnamed _ List.mem_cons_self rfl rfl).symm
    have node := (free_spares other later frees).1 (by rw [owns.lives nonnull]; exact List.mem_cons_self)
    have blocks (block : Block) : Spares block before after := fun member =>
      IsTrans.trans _ _ _ (IsTrans.trans _ _ _ (kept block member) (allocates_spares owns))
        (free_spares (harmless block member) later frees).1 member
    exact ⟨(free_releases fw later frees).bsExited.trans later, blocks,
      Or.inr ⟨nonnull, fresh_later fresh, node.1⟩⟩
  · rw [run_bind] at run
    obtain ⟨_, _, frees, done⟩ := run
    cases done
    have blocks (block : Block) : Spares block before after := fun member =>
      IsTrans.trans _ _ _ (kept block member) (free_spares (harmless block member) ready frees).1 member
    exact ⟨(free_releases fw ready frees).bsExited.trans ready, blocks, Or.inl rfl⟩

end Sizing

/-! ### `wboot_exit_bs` -/

/-- What UEFI says of a memory map: no descriptor is shorter than 40 bytes, a map that
is delivered fits, and the size of a map with some room to grow is a size. -/
structure MapsSound (fw : Firmware) : Prop where
  stride : ∀ history size buffer, 40 ≤ (fw.getMemoryMap history size buffer).descSize ∧
    (fw.getMemoryMap history size buffer).descSize < 2 ^ 32
  fits : ∀ history size buffer, efiError (fw.getMemoryMap history size buffer).status = false →
    (fw.getMemoryMap history size buffer).mapSize ≤ size
  bounded : ∀ history size buffer, (fw.getMemoryMap history size buffer).mapSize +
    (fw.getMemoryMap history size buffer).descSize * 32 < 2 ^ 64

/-- A map that was delivered into the `size` bytes at `memmap`. -/
def Delivered (fw : Firmware) (memmap size : Nat) (reply : MemoryMapReply) (memory : Memory) : Prop :=
  ∃ history passed base, passed ≤ size ∧ reply = fw.getMemoryMap history passed memmap ∧
    efiError reply.status = false ∧ memory = storeBytes base memmap (reply.map.take passed)

section Exiting
variable {fw : Firmware} {memmap size : Nat} {before after : World} {outcome : Option MemoryMapReply}

/-- One fetch and one exit; `retry` is what a refused exit leads to. -/
theorem attempt_delivers (present : memmap ≠ 0) {passed : Nat} (fits : passed ≤ size) {message : List UInt16}
    {retry : EfiStatus → Boot (Option MemoryMapReply)}
    (retries : ∀ status world outcome after, retry status world = (outcome, after) →
      ∀ reply, outcome = some reply → Delivered fw memmap size reply after.mem)
    (run : (do
      let reply ← getMemoryMap fw passed memmap
      if efiError reply.status then
        perror fw message reply.status
        free fw memmap
        return none
      let status ← exitBootServices fw reply.mapKey
      if efiError status then retry status
      else return some reply) before = (outcome, after)) (reply : MemoryMapReply)
    (found : outcome = some reply) : Delivered fw memmap size reply after.mem := by
  rw [run_bind] at run
  obtain ⟨fetch, fetched, asked, run⟩ := run
  rw [getMemoryMap_apply, if_neg present] at asked
  cases asked
  rw [run_ite] at run
  rcases run with ⟨-, run⟩ | ⟨delivered, run⟩
  · simp only [run_bind] at run
    obtain ⟨_, _, _, _, _, _, done⟩ := run
    cases done
    cases found
  rw [run_bind] at run
  obtain ⟨status, exited, exits, run⟩ := run
  rw [run_ite] at run
  rcases run with ⟨-, run⟩ | ⟨-, run⟩
  · exact retries _ _ _ _ run reply found
  · cases exits
    cases run
    cases found
    exact ⟨before.history, passed, before.mem, fits, rfl, by simpa using delivered, rfl⟩

theorem firstAttempt_delivers (present : memmap ≠ 0) {passed : Nat} (fits : passed ≤ size)
    (run : firstAttempt fw passed size memmap before = (outcome, after)) (reply : MemoryMapReply)
    (found : outcome = some reply) : Delivered fw memmap size reply after.mem := by
  refine attempt_delivers present fits (fun status world outcome after run => ?_) run reply found
  simp only [run_bind] at run
  obtain ⟨_, _, _, _, _, _, run⟩ := run
  refine attempt_delivers present (Nat.le_refl size) (fun status world outcome after run reply found => ?_) run
  simp only [run_bind] at run
  obtain ⟨_, _, _, _, _, _, done⟩ := run
  cases done
  cases found

/-- A buffer of its own with a map in it, and `efi_info` filled in. -/
theorem wbootExitBs_run {params : Nat} (sound : AllocatorSound fw) (maps : MapsSound fw)
    (early : before.bsExited = false) (run : wbootExitBs fw params before = (memmap, after))
    (mapped : memmap ≠ 0) :
    ∃ size reply attempted, Delivered fw memmap size reply attempted.mem ∧
      Fresh (live before.history) ⟨.pool, memmap, size⟩ ∧
      live after.history = ⟨.pool, memmap, size⟩ :: live before.history ∧
      (∀ x, x < memmap ∨ memmap + size ≤ x → attempted.mem x = before.mem x) ∧
      after.mem = (populateBootparamsEfi fw.systemTable params memmap reply.mapSize reply.descSize
        (u32 reply.descVer) attempted).2.mem := by
  cases wbootExitBs_course fw run with
  | unsized | scarce | refused => exact absurd rfl mapped
  | @exited steps reply attempted _ attempts ends =>
      obtain ⟨asking, ready, allocates, fits, here⟩ := steps.ready sound (maps.bounded _ 0 0) early
      obtain ⟨⟨_, status, events, grown, -, -, -, kind⟩, confined⟩ :=
        firstAttempt_spec fits ready steps.present attempts
      have same : live steps.queried.history = live before.history := by rw [asking]; rfl
      have fresh := allocates.fresh steps.present
      have lives := allocates.lives steps.present
      rw [same] at fresh lives
      cases ends
      refine ⟨_, reply, attempted.toRam, firstAttempt_delivers steps.present fits attempts reply rfl, fresh, ?_, ?_, rfl⟩
      · rw [← lives]
        change live attempted.history = live steps.allocated.history
        rw [grown]
        exact fruitless_live events kind steps.allocated.history
      · intro x outside
        rw [confined.mem x outside, here]

end Exiting

end Wboot.Blocks
