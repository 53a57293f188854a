import Wboot.ConfigLines
import Wboot.Effects

/-! The pool blocks of a configuration that is being read: the buffer of the file
and one block for each text that has been set. A line that sets a text again
puts a new block in the place of the old one. -/

namespace Wboot.ConfigHeap
open StateProgram ByteMemory CString Machine Wstdlib Effects ConfigParser ConfigGrammar

def pointer (config : WbootConfig) : TextKey → Nat
  | .kernel => config.kernelPath
  | .initrd => config.initrdPath
  | .cmdline => config.cmdline

def withPointer (config : WbootConfig) (field : TextKey) (address : Nat) : WbootConfig :=
  match field with
  | .kernel => { config with kernelPath := address }
  | .initrd => { config with initrdPath := address }
  | .cmdline => { config with cmdline := address }

theorem pointer_withPointer (config : WbootConfig) (field other : TextKey) (address : Nat) :
    pointer (withPointer config field address) other =
      if other = field then address else pointer config other := by
  cases field <;> cases other <;> rfl

/-- Paths are widened, the command line is kept; all are terminated. -/
def encoded (field : TextKey) (value : List UInt8) : List UInt8 :=
  match field with
  | .cmdline => value ++ [0]
  | .kernel | .initrd => wideBytes (value.map UInt8.toUInt16 ++ [0])

def duplicate (fw : Firmware) : TextKey → Nat → Boot Nat
  | .cmdline => strdup8 fw
  | .kernel | .initrd => strdup8To16 fw

structure Owned (world : World) (data size : Nat) (config : WbootConfig) (sizes : TextKey → Nat) :
    Prop where
  early : world.bsExited = false
  present : data ≠ 0
  buffer : ⟨.pool, data, size⟩ ∈ live world.history
  blocks : ∀ field, pointer config field ≠ 0 →
    ⟨.pool, pointer config field, sizes field⟩ ∈ live world.history
  apart : ∀ field, pointer config field ≠ 0 → Apart (pointer config field) (sizes field) data size
  foreign : ∀ field, pointer config field ≠ data
  distinct : ∀ field other, field ≠ other → pointer config field ≠ 0 →
    pointer config field ≠ pointer config other

section Replacing
variable {fw : Firmware} {before middle after : World} {data size : Nat} {config : WbootConfig}
  {sizes : TextKey → Nat}

theorem Owned.congr {other : WbootConfig} (owned : Owned before data size config sizes)
    (same : ∀ field, pointer other field = pointer config field) : Owned before data size other sizes where
  early := owned.early
  present := owned.present
  buffer := owned.buffer
  blocks := fun field => same field ▸ owned.blocks field
  apart := fun field => same field ▸ owned.apart field
  foreign := fun field => same field ▸ owned.foreign field
  distinct := fun field second => same field ▸ same second ▸ owned.distinct field second

/-- A new block takes the place of the one that is freed. -/
theorem Owned.replace {field : TextKey} {count address : Nat} {allocated : World}
    (owned : Owned before data size config sizes) (present : address ≠ 0)
    (allocates : Allocates count address before allocated)
    (grown : middle.history = allocated.history) (still : middle.bsExited = allocated.bsExited)
    (released : Releases (pointer config field) middle after) :
    Owned after data size (withPointer config field address)
      (fun other => if other = field then count else sizes other) := by
  have fresh := allocates.fresh present
  have unnamed : ∀ old ∈ live before.history, old.kind = .pool → old.start ≠ address :=
    fun old member kind => fresh.unnamed old member kind rfl
  -- the freed pointer names none of the blocks that are to stay
  have other : pointer config field ≠ address := by
    by_cases null : pointer config field = 0
    · exact fun same => present (same ▸ null)
    · exact unnamed _ (owned.blocks field null) rfl
  have kept (block : Block) (member : block ∈ live before.history)
      (foreign : block.start ≠ pointer config field) : block ∈ live after.history :=
    released.keeps block (grown ▸ allocates.keeps member) foreign
  constructor
  case early => rw [released.bsExited, still, allocates.bsExited, owned.early]
  case present => exact owned.present
  case buffer => exact kept _ owned.buffer (owned.foreign field).symm
  case blocks =>
    intro key held
    rw [pointer_withPointer] at held ⊢
    by_cases here : key = field
    · simp only [here, ↓reduceIte]
      refine released.keeps _ ?_ other.symm
      rw [grown, allocates.lives present]
      exact List.mem_cons_self
    · simp only [here, ↓reduceIte] at held ⊢
      exact kept _ (owned.blocks key held) (owned.distinct key field here held)
  case apart =>
    intro key held
    rw [pointer_withPointer] at held ⊢
    by_cases here : key = field
    · simp only [here, ↓reduceIte]
      exact fresh.apart _ owned.buffer
    · simp only [here, ↓reduceIte] at held ⊢
      exact owned.apart key held
  case foreign =>
    intro key
    rw [pointer_withPointer]
    split
    · exact (unnamed _ owned.buffer rfl).symm
    · exact owned.foreign key
  case distinct =>
    intro key second different held
    rw [pointer_withPointer] at held ⊢
    rw [pointer_withPointer]
    by_cases here : key = field
    · have there : ¬ second = field := fun same => different (here.trans same.symm)
      simp only [here, there, ↓reduceIte]
      by_cases null : pointer config second = 0
      · exact fun same => present (same.trans null)
      · exact (unnamed _ (owned.blocks second null) rfl).symm
    · simp only [here, ↓reduceIte] at held ⊢
      split
      · exact unnamed _ (owned.blocks key held) rfl
      · exact owned.distinct key second different held

/-- A copy on the heap, or NULL for a refused allocation. -/
theorem duplicate_copies {field : TextKey} {source address : Nat} {text : List UInt8}
    (sound : AllocatorSound fw) (early : before.bsExited = false)
    (bounded : text.length + 1 < 2 ^ 63) (here : StringAt before.mem source text)
    (run : duplicate fw field source before = (address, after)) :
    ∃ allocated, Allocates (encoded field text).length address before allocated ∧
      after.history = allocated.history ∧ after.bsExited = allocated.bsExited ∧
      (address ≠ 0 → after.mem = storeBytes before.mem address (encoded field text)) := by
  have reads : cstring before.mem source = text :=
    cstring_at (by rw [addressSpace_eq]; omega) here
  -- what either strdup does once the length is known
  have copies {size : Nat} {bytes : List UInt8} (fits : size = bytes.length)
      (copy : (do
        let dst ← malloc fw size
        if dst = 0 then return 0
        heapStore dst bytes
        return dst : Boot Nat) before = (address, after)) :
      ∃ allocated, Allocates bytes.length address before allocated ∧
        after.history = allocated.history ∧ after.bsExited = allocated.bsExited ∧
        (address ≠ 0 → after.mem = storeBytes before.mem address bytes) := by
    rw [run_bind] at copy
    obtain ⟨dst, allocated, allocation, copy⟩ := copy
    have allocates := malloc_allocates fw sound early allocation
    refine ⟨allocated, ?_⟩
    rw [run_ite] at copy
    rcases copy with ⟨null, copy⟩ | ⟨present, copy⟩
    · cases copy
      exact ⟨fits ▸ null ▸ allocates, rfl, rfl, fun present => absurd rfl present⟩
    · have same : allocated.mem = before.mem := congrArg Ram.mem allocates.ram
      cases copy
      exact ⟨fits ▸ allocates, rfl, rfl, fun _ => congrArg (storeBytes · address bytes) same⟩
  cases field with
  | cmdline =>
      have copy : strdup8 fw source before = (address, after) := run
      unfold strdup8 at copy
      rw [run_bind] at copy
      obtain ⟨_, _, read, copy⟩ := copy
      rw [readState_apply, reads] at read
      cases read
      have length : (encoded .cmdline text).length = text.length + 1 := by simp [encoded]
      refine copies ?_ copy
      rw [length, u64]
      omega
  | kernel | initrd =>
      have copy : strdup8To16 fw source before = (address, after) := run
      unfold strdup8To16 stringAt at copy
      rw [run_bind] at copy
      obtain ⟨_, _, read, copy⟩ := copy
      rw [readState_apply, reads] at read
      cases read
      have length : (wideBytes (text.map UInt8.toUInt16 ++ [0])).length = 2 * (text.length + 1) := by
        simp [wideBytes_length]
      refine copies ?_ copy
      rw [encoded, length, u64]
      omega

end Replacing

end Wboot.ConfigHeap
