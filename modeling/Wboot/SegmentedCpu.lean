import Wboot.ByteMemory

/-! A 64-bit x86 processor as far as segmentation goes: the general registers, the
segment registers with the descriptors they cache, the global descriptor table and the
interrupt flag. A descriptor is read from memory when a selector is loaded and its
accessed bit is set there. The arithmetic flags, paging with the canonical form of
addresses, and other tables than the global one are left out; an instruction whose effect
needs more than this ends in a fault of its own kind. -/

namespace SegmentedCpu
open ByteMemory

inductive Register where
  | rax | rcx | rdx | rbx | rsp | rbp | rsi | rdi
  | r8 | r9 | r10 | r11 | r12 | r13 | r14 | r15
  deriving DecidableEq

inductive SegmentRegister where
  | cs | ds | es | ss | fs | gs
  deriving DecidableEq

/-- A segment descriptor without its accessed bit. `rights` is the read bit of a code
segment and the write bit of a data segment, `conforming` is expand-down for data. -/
structure Descriptor where
  base : Nat
  limit : Nat
  rights : Bool
  conforming : Bool
  code : Bool
  segment : Bool
  privilege : Nat
  present : Bool
  long : Bool
  big : Bool
  deriving DecidableEq

inductive Fault where
  | generalProtection (selector : Nat)
  | stackSegment (selector : Nat)
  | notPresent (selector : Nat)
  | invalidOpcode
  | noCode (address : Nat)
  | unmodelled
  deriving DecidableEq

structure Cpu where
  reg : Register → Nat
  rip : Nat
  selector : SegmentRegister → Nat
  cached : SegmentRegister → Option Descriptor
  gdtBase : Nat
  gdtLimit : Nat
  interrupts : Bool
  ioPrivilege : Nat
  mem : Memory

inductive Instruction where
  | lgdt (address : Nat)
  | lea (address : Nat) (dest : Register)
  | pushImmediate (value : Nat)
  | push (source : Register)
  | lret
  | moveWord (value : Nat) (dest : Register)
  | moveSegment (source : Register) (dest : SegmentRegister)
  | xorWord (source dest : Register)
  | cli
  | move (source dest : Register)
  | jump (target : Register)
  deriving DecidableEq

/-! ### The descriptor table -/

def bit (value i : Nat) : Bool := decide (value / 2 ^ i % 2 = 1)

/-- The eight bytes of a descriptor. Bit 0 of the sixth is the accessed bit. -/
def decode (byte : Nat → Nat) : Descriptor :=
  let limit := byte 0 + 256 * byte 1 + 65536 * (byte 6 % 16)
  let access := byte 5 / 2
  { base := byte 2 + 256 * byte 3 + 65536 * byte 4 + 16777216 * byte 7
    limit := if bit (byte 6) 7 then limit * 4096 + 4095 else limit
    rights := bit access 0
    conforming := bit access 1
    code := bit access 2
    segment := bit access 3
    privilege := access / 16 % 4
    present := bit access 6
    long := bit (byte 6) 5
    big := bit (byte 6) 6 }

/-- The descriptor a selector names: its low three bits are no part of the index. -/
def descriptorAt (mem : Memory) (table selector : Nat) : Descriptor :=
  decode fun i => (mem (table + selector / 8 * 8 + i)).toNat

def markAccessed (mem : Memory) (table selector : Nat) : Memory :=
  poke mem (table + selector / 8 * 8 + 5) (mem (table + selector / 8 * 8 + 5) ||| 1)

/-- The table reads the same: what a descriptor is does not depend on its accessed bit. -/
def SameTable (left right : Memory) (table limit : Nat) : Prop :=
  ∀ selector, selector / 8 * 8 + 7 ≤ limit →
    descriptorAt left table selector = descriptorAt right table selector

theorem SameTable.refl (mem : Memory) (table limit : Nat) : SameTable mem mem table limit :=
  fun _ _ => rfl

theorem SameTable.trans {first second third : Memory} {table limit : Nat}
    (left : SameTable first second table limit) (right : SameTable second third table limit) :
    SameTable first third table limit :=
  fun selector within => (left selector within).trans (right selector within)

theorem descriptorAt_congr {left right : Memory} {table selector : Nat}
    (same : SameOn left right (table + selector / 8 * 8) 8) :
    descriptorAt left table selector = descriptorAt right table selector := by
  have byte (i : Nat) (bound : i < 8) : left (table + selector / 8 * 8 + i) =
      right (table + selector / 8 * 8 + i) := same _ (by omega) (by omega)
  simp only [descriptorAt, decode]
  rw [byte 0 (by decide), byte 1 (by decide), byte 2 (by decide), byte 3 (by decide),
    byte 4 (by decide), byte 5 (by decide), byte 6 (by decide), byte 7 (by decide)]

theorem sameTable_of_sameOn {left right : Memory} {table limit : Nat}
    (same : SameOn left right table (limit + 1)) : SameTable left right table limit :=
  fun _ within => descriptorAt_congr fun x lower upper => same x (by omega) (by omega)

theorem byte_marked (byte : UInt8) : (byte ||| 1).toNat / 2 = byte.toNat / 2 := by
  rw [UInt8.toNat_or, Nat.or_div_two]
  exact Nat.or_zero _

/-- Marking an entry changes no entry, itself included. -/
theorem markAccessed_sameTable (mem : Memory) (table limit marked : Nat) :
    SameTable (markAccessed mem table marked) mem table limit := by
  intro selector _
  have other (i : Nat) (bound : i < 8) (elsewhere : i ≠ 5) :
      markAccessed mem table marked (table + selector / 8 * 8 + i) =
        mem (table + selector / 8 * 8 + i) := by
    unfold markAccessed
    apply poke_other
    omega
  have access : (markAccessed mem table marked (table + selector / 8 * 8 + 5)).toNat / 2 =
      (mem (table + selector / 8 * 8 + 5)).toNat / 2 := by
    unfold markAccessed
    by_cases here : selector / 8 = marked / 8
    · rw [here, poke_same, byte_marked]
    · rw [poke_other _ _ _ _ (by omega)]
  simp only [descriptorAt, decode]
  rw [other 0 (by decide) (by decide), other 1 (by decide) (by decide),
    other 2 (by decide) (by decide), other 3 (by decide) (by decide),
    other 4 (by decide) (by decide), other 6 (by decide) (by decide),
    other 7 (by decide) (by decide), access]

theorem markAccessed_frame (mem : Memory) (table selector x : Nat)
    (elsewhere : x ≠ table + selector / 8 * 8 + 5) : markAccessed mem table selector x = mem x :=
  poke_other _ _ _ _ elsewhere

/-! ### Instructions -/

def requested (selector : Nat) : Nat := selector % 4

def Cpu.privilege (cpu : Cpu) : Nat := requested (cpu.selector .cs)

def Cpu.goto (cpu : Cpu) (address : Nat) : Cpu := { cpu with rip := address }

def Cpu.setReg (cpu : Cpu) (register : Register) (value : Nat) : Cpu :=
  { cpu with reg := Function.update cpu.reg register (value % 2 ^ 64) }

/-- A 16-bit destination leaves the upper bits of its register. -/
def Cpu.setWord (cpu : Cpu) (register : Register) (value : Nat) : Cpu :=
  cpu.setReg register (cpu.reg register / 2 ^ 16 * 2 ^ 16 + value % 2 ^ 16)

def Cpu.pushed (cpu : Cpu) (value : Nat) : Cpu :=
  let top := (cpu.reg .rsp + 2 ^ 64 - 8) % 2 ^ 64
  { cpu.setReg .rsp top with mem := store cpu.mem top 8 value }

def Cpu.lookup (cpu : Cpu) (selector : Nat) : Except Fault Descriptor :=
  if selector / 4 % 2 = 1 then .error .unmodelled
  else if cpu.gdtLimit < selector / 8 * 8 + 7 then .error (.generalProtection (selector / 4 * 4))
  else .ok (descriptorAt cpu.mem cpu.gdtBase selector)

def Cpu.setSegment (cpu : Cpu) (register : SegmentRegister) (selector : Nat)
    (descriptor : Descriptor) : Cpu :=
  { cpu with
    selector := Function.update cpu.selector register selector
    cached := Function.update cpu.cached register (some descriptor)
    mem := markAccessed cpu.mem cpu.gdtBase selector }

def Cpu.clearSegment (cpu : Cpu) (register : SegmentRegister) (selector : Nat) : Cpu :=
  { cpu with
    selector := Function.update cpu.selector register selector
    cached := Function.update cpu.cached register none }

section Updates
variable (cpu : Cpu) (register : Register) (target : SegmentRegister) (value : Nat)
  (descriptor : Descriptor)

@[simp] theorem goto_rip : (cpu.goto value).rip = value := rfl
@[simp] theorem goto_reg : (cpu.goto value).reg = cpu.reg := rfl
@[simp] theorem goto_mem : (cpu.goto value).mem = cpu.mem := rfl
@[simp] theorem goto_selector : (cpu.goto value).selector = cpu.selector := rfl
@[simp] theorem goto_cached : (cpu.goto value).cached = cpu.cached := rfl
@[simp] theorem goto_gdtBase : (cpu.goto value).gdtBase = cpu.gdtBase := rfl
@[simp] theorem goto_gdtLimit : (cpu.goto value).gdtLimit = cpu.gdtLimit := rfl

@[simp] theorem setReg_reg : (cpu.setReg register value).reg =
    Function.update cpu.reg register (value % 2 ^ 64) := rfl
@[simp] theorem setReg_rip : (cpu.setReg register value).rip = cpu.rip := rfl
@[simp] theorem setReg_mem : (cpu.setReg register value).mem = cpu.mem := rfl
@[simp] theorem setReg_selector : (cpu.setReg register value).selector = cpu.selector := rfl
@[simp] theorem setReg_cached : (cpu.setReg register value).cached = cpu.cached := rfl
@[simp] theorem setReg_gdtBase : (cpu.setReg register value).gdtBase = cpu.gdtBase := rfl
@[simp] theorem setReg_gdtLimit : (cpu.setReg register value).gdtLimit = cpu.gdtLimit := rfl

@[simp] theorem setSegment_reg : (cpu.setSegment target value descriptor).reg = cpu.reg := rfl
@[simp] theorem setSegment_rip : (cpu.setSegment target value descriptor).rip = cpu.rip := rfl
@[simp] theorem setSegment_mem : (cpu.setSegment target value descriptor).mem =
    markAccessed cpu.mem cpu.gdtBase value := rfl
@[simp] theorem setSegment_selector : (cpu.setSegment target value descriptor).selector =
    Function.update cpu.selector target value := rfl
@[simp] theorem setSegment_cached : (cpu.setSegment target value descriptor).cached =
    Function.update cpu.cached target (some descriptor) := rfl
@[simp] theorem setSegment_gdtBase : (cpu.setSegment target value descriptor).gdtBase = cpu.gdtBase := rfl
@[simp] theorem setSegment_gdtLimit : (cpu.setSegment target value descriptor).gdtLimit = cpu.gdtLimit := rfl

@[simp] theorem clearSegment_reg : (cpu.clearSegment target value).reg = cpu.reg := rfl
@[simp] theorem clearSegment_mem : (cpu.clearSegment target value).mem = cpu.mem := rfl
@[simp] theorem clearSegment_selector : (cpu.clearSegment target value).selector =
    Function.update cpu.selector target value := rfl
@[simp] theorem clearSegment_cached : (cpu.clearSegment target value).cached =
    Function.update cpu.cached target none := rfl
@[simp] theorem clearSegment_gdtBase : (cpu.clearSegment target value).gdtBase = cpu.gdtBase := rfl
@[simp] theorem clearSegment_gdtLimit : (cpu.clearSegment target value).gdtLimit = cpu.gdtLimit := rfl

end Updates

/-- A far return. One to an outer ring, or to a segment that is not 64-bit, is left out. -/
def Cpu.returnFar (cpu : Cpu) : Except Fault Cpu := do
  let target := load cpu.mem (cpu.reg .rsp) 8
  let selector := load cpu.mem (cpu.reg .rsp + 8) 2
  if selector / 4 = 0 then .error (.generalProtection 0)
  else
    let descriptor ← cpu.lookup selector
    if !descriptor.segment || !descriptor.code then
      .error (.generalProtection (selector / 4 * 4))
    else if requested selector < cpu.privilege then
      .error (.generalProtection (selector / 4 * 4))
    else if cpu.privilege < requested selector then .error .unmodelled
    else if descriptor.conforming && decide (requested selector < descriptor.privilege) then
      .error (.generalProtection (selector / 4 * 4))
    else if !descriptor.conforming && decide (descriptor.privilege ≠ requested selector) then
      .error (.generalProtection (selector / 4 * 4))
    else if !descriptor.present then .error (.notPresent (selector / 4 * 4))
    else if descriptor.long && descriptor.big then
      .error (.generalProtection (selector / 4 * 4))
    else if !descriptor.long then .error .unmodelled
    else
      .ok (((cpu.setReg .rsp (cpu.reg .rsp + 16)).setSegment .cs selector descriptor).goto target)

/-- Loading the stack segment. A null selector is taken in ring 0 to 2 for its own ring. -/
def Cpu.loadStack (cpu : Cpu) (selector : Nat) : Except Fault Cpu := do
  if selector / 4 = 0 then
    if cpu.privilege = 3 || decide (requested selector ≠ cpu.privilege) then
      .error (.generalProtection 0)
    else .ok (cpu.clearSegment .ss selector)
  else
    let descriptor ← cpu.lookup selector
    if decide (requested selector ≠ cpu.privilege) || !descriptor.segment || descriptor.code ||
        !descriptor.rights || decide (descriptor.privilege ≠ cpu.privilege) then
      .error (.generalProtection (selector / 4 * 4))
    else if !descriptor.present then .error (.stackSegment (selector / 4 * 4))
    else .ok (cpu.setSegment .ss selector descriptor)

/-- Loading one of the other data segment registers. -/
def Cpu.loadData (cpu : Cpu) (register : SegmentRegister) (selector : Nat) : Except Fault Cpu := do
  if selector / 4 = 0 then .ok (cpu.clearSegment register selector)
  else
    let descriptor ← cpu.lookup selector
    if !descriptor.segment || (descriptor.code && !descriptor.rights) then
      .error (.generalProtection (selector / 4 * 4))
    else if (!descriptor.code || !descriptor.conforming) &&
        decide (descriptor.privilege < requested selector ∨ descriptor.privilege < cpu.privilege) then
      .error (.generalProtection (selector / 4 * 4))
    else if !descriptor.present then .error (.notPresent (selector / 4 * 4))
    else .ok (cpu.setSegment register selector descriptor)

/-- One instruction; the instruction pointer is at the next one already. -/
def execute (cpu : Cpu) : Instruction → Except Fault Cpu
  | .lgdt address =>
      if cpu.privilege ≠ 0 then .error (.generalProtection 0)
      else .ok { cpu with gdtLimit := load cpu.mem address 2, gdtBase := load cpu.mem (address + 2) 8 }
  | .lea address dest => .ok (cpu.setReg dest address)
  | .pushImmediate value => .ok (cpu.pushed value)
  | .push source => .ok (cpu.pushed (cpu.reg source))
  | .lret => cpu.returnFar
  | .moveWord value dest => .ok (cpu.setWord dest value)
  | .moveSegment _ .cs => .error .invalidOpcode
  | .moveSegment source .ss => cpu.loadStack (cpu.reg source % 2 ^ 16)
  | .moveSegment source dest => cpu.loadData dest (cpu.reg source % 2 ^ 16)
  | .xorWord source dest => .ok (cpu.setWord dest ((cpu.reg source % 2 ^ 16) ^^^ (cpu.reg dest % 2 ^ 16)))
  | .cli =>
      if cpu.ioPrivilege < cpu.privilege then .error (.generalProtection 0)
      else .ok { cpu with interrupts := false }
  | .move source dest => .ok (cpu.setReg dest (cpu.reg source))
  | .jump target => .ok (cpu.goto (cpu.reg target))

/-! ### Runs -/

/-- What is at each address: an instruction and how long it is. -/
abbrev Text := Nat → Option (Instruction × Nat)

def step (text : Text) (cpu : Cpu) : Except Fault Cpu :=
  match text cpu.rip with
  | none => .error (.noCode cpu.rip)
  | some (instruction, length) => execute (cpu.goto (cpu.rip + length)) instruction

def run (text : Text) : Nat → Cpu → Except Fault Cpu
  | 0, cpu => .ok cpu
  | steps + 1, cpu => step text cpu >>= run text steps

/-- A listing, one instruction after the other from an address on. -/
def Laid (text : Text) (address : Nat) : List (Instruction × Nat) → Prop
  | [] => True
  | item :: rest => text address = some item ∧ Laid text (address + item.2) rest

section Rules
variable {text : Text} {cpu next last : Cpu}

theorem run_one {item : Instruction × Nat} {rest : List (Instruction × Nat)}
    (laid : Laid text cpu.rip (item :: rest))
    (executes : execute (cpu.goto (cpu.rip + item.2)) item.1 = .ok next) :
    run text 1 cpu = .ok next := by
  have first : step text cpu = .ok next := by
    unfold step
    rw [laid.1]
    exact executes
  rw [run, first]
  rfl

/-- An instruction that falls through to the next one of its listing. -/
theorem run_next {item : Instruction × Nat} {rest : List (Instruction × Nat)} {steps : Nat}
    (laid : Laid text cpu.rip (item :: rest))
    (executes : execute (cpu.goto (cpu.rip + item.2)) item.1 = .ok next)
    (falls : next.rip = cpu.rip + item.2)
    (continues : Laid text next.rip rest → run text steps next = .ok last) :
    run text (steps + 1) cpu = .ok last := by
  have first : step text cpu = .ok next := by
    unfold step
    rw [laid.1]
    exact executes
  rw [run, first]
  exact continues (falls ▸ laid.2)

theorem run_append {steps more : Nat} (first : run text steps cpu = .ok next)
    (rest : run text more next = .ok last) : run text (steps + more) cpu = .ok last := by
  induction steps generalizing cpu with
  | zero =>
      cases first
      rwa [Nat.zero_add]
  | succ steps ih =>
      rw [run] at first
      rw [Nat.add_right_comm, run]
      cases here : step text cpu with
      | error fault =>
          rw [here] at first
          cases first
      | ok middle =>
          rw [here] at first
          exact ih first

end Rules

/-! ### Loading flat segments -/

section Loads
variable {cpu : Cpu} {selector : Nat} {descriptor : Descriptor}

theorem lgdt_ok {address limit base : Nat} (ring : cpu.privilege = 0)
    (holds : load cpu.mem address 2 = limit ∧ load cpu.mem (address + 2) 8 = base) :
    execute cpu (.lgdt address) = .ok { cpu with gdtLimit := limit, gdtBase := base } := by
  have allowed : ¬ cpu.privilege ≠ 0 := fun outer => outer ring
  rw [execute, if_neg allowed, holds.1, holds.2]

theorem cli_ok (ring : cpu.privilege = 0) :
    execute cpu .cli = .ok { cpu with interrupts := false } := by
  have allowed : ¬ cpu.ioPrivilege < cpu.privilege := by omega
  rw [execute, if_neg allowed]

theorem lookup_ok (table : selector / 4 % 2 = 0) (within : selector / 8 * 8 + 7 ≤ cpu.gdtLimit) :
    cpu.lookup selector = .ok (descriptorAt cpu.mem cpu.gdtBase selector) := by
  have inGlobal : ¬ selector / 4 % 2 = 1 := by omega
  rw [Cpu.lookup, if_neg inGlobal, if_neg (by omega)]

/-- A far return to a 64-bit code segment of the same ring. -/
theorem returnFar_ok (cpu : Cpu) (selector : Nat) (descriptor : Descriptor)
    (selects : load cpu.mem (cpu.reg .rsp + 8) 2 = selector)
    (named : selector / 4 ≠ 0) (looked : cpu.lookup selector = .ok descriptor)
    (code : descriptor.segment = true ∧ descriptor.code = true ∧ descriptor.conforming = false)
    (ring : requested selector = cpu.privilege ∧ descriptor.privilege = cpu.privilege)
    (usable : descriptor.present = true ∧ descriptor.long = true ∧ descriptor.big = false) :
    cpu.returnFar = .ok (((cpu.setReg .rsp (cpu.reg .rsp + 16)).setSegment .cs selector descriptor).goto
      (load cpu.mem (cpu.reg .rsp) 8)) := by
  obtain ⟨segment, code, strict⟩ := code
  obtain ⟨present, long, small⟩ := usable
  simp only [Cpu.returnFar, selects, if_neg named, looked, bind, Except.bind]
  simp [segment, code, strict, present, long, small, ring]

theorem loadStack_ok (named : selector / 4 ≠ 0) (looked : cpu.lookup selector = .ok descriptor)
    (data : descriptor.segment = true ∧ descriptor.code = false ∧ descriptor.rights = true)
    (ring : requested selector = cpu.privilege ∧ descriptor.privilege = cpu.privilege)
    (present : descriptor.present = true) :
    cpu.loadStack selector = .ok (cpu.setSegment .ss selector descriptor) := by
  obtain ⟨segment, plain, writable⟩ := data
  simp only [Cpu.loadStack, if_neg named, looked, bind, Except.bind]
  simp [segment, plain, writable, present, ring]

theorem loadData_ok (register : SegmentRegister) (named : selector / 4 ≠ 0)
    (looked : cpu.lookup selector = .ok descriptor)
    (data : descriptor.segment = true ∧ descriptor.code = false)
    (ring : requested selector ≤ descriptor.privilege ∧ cpu.privilege ≤ descriptor.privilege)
    (present : descriptor.present = true) :
    cpu.loadData register selector = .ok (cpu.setSegment register selector descriptor) := by
  obtain ⟨segment, plain⟩ := data
  obtain ⟨rpl, cpl⟩ := ring
  have allowed : ¬ (descriptor.privilege < requested selector ∨
      descriptor.privilege < cpu.privilege) := by omega
  simp only [Cpu.loadData, if_neg named, looked, bind, Except.bind]
  simp [segment, plain, present, allowed]

theorem pushed_mem (value : Nat) (room : 8 ≤ cpu.reg .rsp) (word : cpu.reg .rsp < 2 ^ 64) :
    (cpu.pushed value).mem = store cpu.mem (cpu.reg .rsp - 8) 8 value := by
  have top : (cpu.reg .rsp + 2 ^ 64 - 8) % 2 ^ 64 = cpu.reg .rsp - 8 := by omega
  simp only [Cpu.pushed, top]

theorem pushed_top (value : Nat) (room : 8 ≤ cpu.reg .rsp) (word : cpu.reg .rsp < 2 ^ 64) :
    (cpu.pushed value).reg .rsp = cpu.reg .rsp - 8 := by
  have top : (cpu.reg .rsp + 2 ^ 64 - 8) % 2 ^ 64 % 2 ^ 64 = cpu.reg .rsp - 8 := by omega
  simp only [Cpu.pushed, setReg_reg, Function.update_self, top]

theorem pushed_other (value : Nat) {register : Register} (other : register ≠ .rsp) :
    (cpu.pushed value).reg register = cpu.reg register := by
  simp only [Cpu.pushed, setReg_reg, Function.update_of_ne other]

theorem load_store_low (mem : Memory) (address width narrow value : Nat) (low : narrow ≤ width) :
    load (store mem address width value) address narrow = value % 256 ^ narrow := by
  apply load_digits
  intro i bound
  have inside : address ≤ address + i ∧ address + i < address + width := by omega
  rw [store, if_pos inside, Nat.add_sub_cancel_left]

theorem byte_of_load (mem : Memory) (address width i : Nat) (bound : i < width) :
    (mem (address + i)).toNat = load mem address width / 256 ^ i % 256 := by
  induction width generalizing address i with
  | zero => omega
  | succ width ih =>
      have low := (mem address).toNat_lt
      rw [load]
      cases i with
      | zero =>
          rw [Nat.pow_zero, Nat.div_one, Nat.add_mul_mod_self_left, Nat.mod_eq_of_lt low]
          rfl
      | succ i =>
          have rest := ih (address + 1) i (by omega)
          rw [Nat.pow_succ', ← Nat.div_div_eq_div_mul, Nat.add_mul_div_left _ _ (by decide),
            Nat.div_eq_of_lt low, Nat.zero_add, ← rest, Nat.add_assoc, Nat.add_comm 1 i]

theorem descriptorAt_of_load {mem : Memory} {table selector quad : Nat}
    (loaded : load mem (table + selector / 8 * 8) 8 = quad) :
    descriptorAt mem table selector = decode fun i => quad / 256 ^ i % 256 := by
  have byte (i : Nat) (bound : i < 8) := byte_of_load mem (table + selector / 8 * 8) 8 i bound
  rw [loaded] at byte
  simp only [descriptorAt, decode]
  rw [byte 0 (by decide), byte 1 (by decide), byte 2 (by decide), byte 3 (by decide),
    byte 4 (by decide), byte 5 (by decide), byte 6 (by decide), byte 7 (by decide)]

end Loads

end SegmentedCpu
