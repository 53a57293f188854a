import Mathlib.Data.List.Basic
import Mathlib.Tactic.Ring

/-! Flat byte memory. An address is a natural number and every address holds a
byte; what a program may touch is the business of whoever owns the program.
Multi-byte values are little endian. A store truncates to its width, as the
fixed-width assignment it stands for does. -/

namespace ByteMemory

abbrev Memory := Nat → UInt8

variable (memory : Memory)

def poke (address : Nat) (byte : UInt8) : Memory :=
  fun x => if x = address then byte else memory x

def load (memory : Memory) (address : Nat) : Nat → Nat
  | 0 => 0
  | width + 1 => (memory address).toNat + 256 * load memory (address + 1) width

def store (address width value : Nat) : Memory :=
  fun x => if address ≤ x ∧ x < address + width
    then UInt8.ofNat (value / 256 ^ (x - address)) else memory x

def storeBytes (address : Nat) (bytes : List UInt8) : Memory :=
  fun x => if address ≤ x ∧ x < address + bytes.length
    then bytes.getD (x - address) 0 else memory x

def bytesAt (memory : Memory) (address count : Nat) : List UInt8 :=
  (List.range count).map fun i => memory (address + i)

/-- A member of a packed record: where it starts in the record and how wide it is. -/
structure Field where
  offset : Nat
  width : Nat

def Field.get (field : Field) (memory : Memory) (base : Nat) : Nat :=
  load memory (base + field.offset) field.width

def Field.set (field : Field) (memory : Memory) (base value : Nat) : Memory :=
  store memory (base + field.offset) field.width value

/-- The same bytes on a range: what a frame says, and all that a load reads. -/
def SameOn (left right : Memory) (address count : Nat) : Prop :=
  ∀ x, address ≤ x → x < address + count → left x = right x

/-- Nothing outside the range changes. -/
def WritesIn (before after : Memory) (address count : Nat) : Prop :=
  ∀ x, x < address ∨ address + count ≤ x → after x = before x

def Apart (a n b m : Nat) : Prop := a + n ≤ b ∨ b + m ≤ a

instance (a n b m : Nat) : Decidable (Apart a n b m) := inferInstanceAs (Decidable (_ ∨ _))

theorem poke_same (address : Nat) (byte : UInt8) : poke memory address byte address = byte := by
  simp [poke]

theorem poke_other (address : Nat) (byte : UInt8) (x : Nat) (different : x ≠ address) :
    poke memory address byte x = memory x := by
  simp [poke, different]

section Writes
variable {before middle after : Memory} {address count : Nat}

theorem WritesIn.refl (memory : Memory) (address count : Nat) : WritesIn memory memory address count :=
  fun _ _ => rfl

theorem WritesIn.trans (first : WritesIn before middle address count)
    (second : WritesIn middle after address count) : WritesIn before after address count :=
  fun x outside => (second x outside).trans (first x outside)

theorem WritesIn.mono (writes : WritesIn before after address count) {start size : Nat}
    (lower : start ≤ address) (upper : address + count ≤ start + size) :
    WritesIn before after start size :=
  fun x outside => writes x (by omega)

theorem WritesIn.sameOn (writes : WritesIn before after address count) {start size : Nat}
    (apart : Apart address count start size) : SameOn after before start size := by
  unfold Apart at apart
  exact fun x lower upper => writes x (by omega)

theorem poke_writesIn (memory : Memory) (place : Nat) (byte : UInt8) :
    WritesIn memory (poke memory place byte) place 1 :=
  fun x outside => poke_other memory place byte x (by omega)

end Writes

section Loads
variable {memory}

theorem load_congr {left right : Memory} {address width : Nat}
    (same : SameOn left right address width) : load left address width = load right address width := by
  induction width generalizing address with
  | zero => rfl
  | succ width ih =>
      have first := same address (Nat.le_refl _) (by omega)
      have rest : load left (address + 1) width = load right (address + 1) width :=
        ih fun x lower upper => same x (by omega) (by omega)
      simp only [load, first, rest]

/-- A load from an object is a load from the memory seen from its start. -/
theorem load_shift (memory : Memory) (base address width : Nat) :
    load memory (base + address) width = load (fun x => memory (base + x)) address width := by
  induction width generalizing address with
  | zero => rfl
  | succ width ih =>
      have rest := ih (address + 1)
      simp only [load]
      rw [Nat.add_assoc, rest]

/-- A load determines the bytes it read. -/
theorem sameOn_of_load {left right : Memory} {address width : Nat}
    (equal : load left address width = load right address width) :
    SameOn left right address width := by
  induction width generalizing address with
  | zero => exact fun x lower upper => absurd upper (by omega)
  | succ width ih =>
      have leftByte := (left address).toNat_lt
      have rightByte := (right address).toNat_lt
      simp only [load] at equal
      have first : left address = right address := UInt8.toNat_inj.mp (by omega)
      have rest : SameOn left right (address + 1) width := ih (by omega)
      intro x lower upper
      by_cases here : x = address
      · rw [here, first]
      · exact rest x (by omega) (by omega)

theorem load_lt (memory : Memory) (address width : Nat) :
    load memory address width < 256 ^ width := by
  induction width generalizing address with
  | zero => simp [load]
  | succ width ih =>
      have byte := (memory address).toNat_lt
      have rest := ih (address + 1)
      simp only [load, Nat.pow_succ]
      omega

theorem load_digits (memory : Memory) (address width value : Nat)
    (digits : ∀ i, i < width → memory (address + i) = UInt8.ofNat (value / 256 ^ i)) :
    load memory address width = value % 256 ^ width := by
  induction width generalizing address value with
  | zero => simp [load, Nat.mod_one]
  | succ width ih =>
      have first : memory address = UInt8.ofNat value := by simpa using digits 0 (by omega)
      have rest := ih (address + 1) (value / 256) fun i bound => by
        have digit := digits (i + 1) (by omega)
        rw [Nat.div_div_eq_div_mul, Nat.mul_comm, ← Nat.pow_succ]
        rwa [Nat.add_assoc, Nat.add_comm 1 i]
      have low : (UInt8.ofNat value).toNat = value % 256 := by simp
      rw [load, first, rest, low, Nat.pow_succ, Nat.mul_comm (256 ^ width), Nat.mod_mul]

theorem load_store_same (memory : Memory) (address width value : Nat) :
    load (store memory address width value) address width = value % 256 ^ width := by
  apply load_digits
  intro i bound
  simp [store, bound]

theorem store_frame (memory : Memory) (address width value x : Nat)
    (outside : x < address ∨ address + width ≤ x) : store memory address width value x = memory x := by
  have miss : ¬ (address ≤ x ∧ x < address + width) := by omega
  simp [store, miss]

theorem load_store_apart (memory : Memory) (address width value other count : Nat)
    (apart : Apart address width other count) :
    load (store memory address width value) other count = load memory other count := by
  apply load_congr
  intro x lower upper
  apply store_frame
  unfold Apart at apart
  omega

theorem Field.get_congr (field : Field) {left right : Memory} {base : Nat}
    (same : SameOn left right (base + field.offset) field.width) :
    field.get left base = field.get right base :=
  load_congr same

theorem Field.get_set_same (field : Field) (memory : Memory) (base value : Nat) :
    field.get (field.set memory base value) base = value % 256 ^ field.width :=
  load_store_same memory (base + field.offset) field.width value

theorem Field.get_set_apart (field other : Field) (memory : Memory) (base place value : Nat)
    (apart : Apart (base + field.offset) field.width (place + other.offset) other.width) :
    other.get (field.set memory base value) place = other.get memory place :=
  load_store_apart memory _ _ value _ _ apart

/-- Two members of one record: their offsets alone decide. -/
theorem Field.get_set_other (field other : Field) (memory : Memory) (base value : Nat)
    (apart : Apart field.offset field.width other.offset other.width) :
    other.get (field.set memory base value) base = other.get memory base := by
  apply field.get_set_apart other
  unfold Apart at *
  omega

theorem Field.set_frame (field : Field) (memory : Memory) (base value x : Nat)
    (outside : x < base + field.offset ∨ base + field.offset + field.width ≤ x) :
    field.set memory base value x = memory x :=
  store_frame memory _ _ value x outside

theorem storeBytes_frame (memory : Memory) (address : Nat) (bytes : List UInt8) (x : Nat)
    (outside : x < address ∨ address + bytes.length ≤ x) :
    storeBytes memory address bytes x = memory x := by
  have miss : ¬ (address ≤ x ∧ x < address + bytes.length) := by omega
  simp [storeBytes, miss]

theorem storeBytes_writesIn (memory : Memory) (address : Nat) (bytes : List UInt8) :
    WritesIn memory (storeBytes memory address bytes) address bytes.length :=
  fun x outside => storeBytes_frame memory address bytes x outside

theorem storeBytes_at (memory : Memory) (address : Nat) (bytes : List UInt8) (i : Nat)
    (bound : i < bytes.length) : storeBytes memory address bytes (address + i) = bytes.getD i 0 := by
  simp [storeBytes, bound]

end Loads

/-! The byte loops of a C library, one iteration a successor. `setLoop` and
`copyUp` count upward, so the last iteration is outermost; `copyDown` runs from
the end, so its first iteration is innermost in time and outermost here. -/
section Loops

def setLoop (memory : Memory) (dest : Nat) (byte : UInt8) : Nat → Memory
  | 0 => memory
  | count + 1 => poke (setLoop memory dest byte count) (dest + count) byte

def copyUp (memory : Memory) (dest src : Nat) : Nat → Memory
  | 0 => memory
  | count + 1 =>
      let before := copyUp memory dest src count
      poke before (dest + count) (before (src + count))

def copyDown (memory : Memory) (dest src : Nat) : Nat → Memory
  | 0 => memory
  | count + 1 => copyDown (poke memory (dest + count) (memory (src + count))) dest src count

/-- The effect of a copy that reads its whole source before it writes. -/
def moved (dest src count : Nat) : Memory :=
  fun x => if dest ≤ x ∧ x < dest + count then memory (src + (x - dest)) else memory x

variable {memory}

theorem setLoop_apply (memory : Memory) (dest : Nat) (byte : UInt8) (count x : Nat) :
    setLoop memory dest byte count x =
      if dest ≤ x ∧ x < dest + count then byte else memory x := by
  induction count with
  | zero =>
      have miss : ¬ (dest ≤ x ∧ x < dest + 0) := by omega
      simp [setLoop]
  | succ count ih =>
      rw [setLoop, poke, ih]
      by_cases last : x = dest + count
      · simp [last]
      · have same : (dest ≤ x ∧ x < dest + (count + 1)) ↔ (dest ≤ x ∧ x < dest + count) := by omega
        simp [last, same]

/-- Going up never overwrites a source byte before reading it when the
destination starts below the source. -/
theorem copyUp_moved (memory : Memory) (dest src count : Nat) (below : dest < src) :
    copyUp memory dest src count = moved memory dest src count := by
  induction count with
  | zero =>
      funext x
      have miss : ¬ (dest ≤ x ∧ x < dest + 0) := by omega
      simp [copyUp, moved]
  | succ count ih =>
      funext x
      have unread : ¬ (dest ≤ src + count ∧ src + count < dest + count) := by omega
      simp only [copyUp, ih, poke]
      by_cases last : x = dest + count
      · have source : src + (dest + count - dest) = src + count := by omega
        rw [if_pos last, last]
        unfold moved
        rw [if_neg unread, if_pos (by omega), source]
      · have same : (dest ≤ x ∧ x < dest + (count + 1)) ↔ (dest ≤ x ∧ x < dest + count) := by omega
        simp [last, moved, same]

theorem copyDown_moved (memory : Memory) (dest src count : Nat) (above : src < dest) :
    copyDown memory dest src count = moved memory dest src count := by
  induction count generalizing memory with
  | zero =>
      funext x
      have miss : ¬ (dest ≤ x ∧ x < dest + 0) := by omega
      simp [copyDown, moved]
  | succ count ih =>
      rw [copyDown, ih]
      funext x
      simp only [moved, poke]
      by_cases inside : dest ≤ x ∧ x < dest + count
      · have wide : dest ≤ x ∧ x < dest + (count + 1) := by omega
        have unread : src + (x - dest) ≠ dest + count := by omega
        simp [inside, wide, unread]
      · by_cases last : x = dest + count
        · simp [last]
        · have miss : ¬ (dest ≤ x ∧ x < dest + (count + 1)) := by omega
          simp [inside, last, miss]

theorem moved_frame (memory : Memory) (dest src count x : Nat)
    (outside : x < dest ∨ dest + count ≤ x) : moved memory dest src count x = memory x := by
  have miss : ¬ (dest ≤ x ∧ x < dest + count) := by omega
  simp [moved, miss]

/-- The destination holds what the source held before, and nothing else changed. -/
structure Copied (before after : Memory) (dest src count : Nat) : Prop where
  arrived : ∀ i, i < count → after (dest + i) = before (src + i)
  kept : WritesIn before after dest count

theorem moved_copied (memory : Memory) (dest src count : Nat) :
    Copied memory (moved memory dest src count) dest src count := by
  constructor
  · intro i bound
    have inside : dest ≤ dest + i ∧ dest + i < dest + count := by omega
    have source : src + (dest + i - dest) = src + i := by omega
    rw [moved, if_pos inside, source]
  · exact fun x outside => moved_frame memory dest src count x outside

end Loops

end ByteMemory
