import Wboot.SegmentedCpu

/-! src/phase3/wboot_handoff.s: the jump into the kernel, instruction by instruction,
with its own descriptor table. How long the assembler makes each instruction and where
the image is loaded are not in the source, so they are a parameter. -/

namespace Wboot.HandoffCode
open ByteMemory SegmentedCpu

/-- The first instruction, the length of each one, and the table behind them. -/
structure Layout where
  start : Nat
  length : Nat → Nat
  gdt : Nat

def Layout.gdtr (layout : Layout) : Nat := layout.gdt + 32

/-- `.Lreload_cs`, behind the far return. -/
def Layout.reloadCs (layout : Layout) : Nat :=
  layout.start + layout.length 0 + layout.length 1 + layout.length 2 + layout.length 3 +
    layout.length 4

def bootCs : Nat := 0x10
def bootDs : Nat := 0x18

def gdtEntries : List Nat := [0, 0, 0x00AF9A000000FFFF, 0x00CF92000000FFFF]

/-- Up to the far return, which reloads `cs`. -/
def reload (layout : Layout) : List (Instruction × Nat) :=
  [(.lgdt layout.gdtr, layout.length 0),
    (.lea layout.reloadCs .rax, layout.length 1),
    (.pushImmediate bootCs, layout.length 2),
    (.push .rax, layout.length 3),
    (.lret, layout.length 4)]

/-- From `.Lreload_cs` on. -/
def enter (layout : Layout) : List (Instruction × Nat) :=
  [(.moveWord bootDs .rax, layout.length 5),
    (.moveSegment .rax .ds, layout.length 6),
    (.moveSegment .rax .es, layout.length 7),
    (.moveSegment .rax .ss, layout.length 8),
    (.xorWord .rax .rax, layout.length 9),
    (.moveSegment .rax .fs, layout.length 10),
    (.moveSegment .rax .gs, layout.length 11),
    (.cli, layout.length 12),
    (.move .rcx .rsi, layout.length 13),
    (.jump .rdx, layout.length 14)]

/-- The instructions and the data are where the layout has them, and the loader has
relocated the address of the table. -/
structure Assembled (layout : Layout) (text : Text) (mem : Memory) : Prop where
  reload : Laid text layout.start (HandoffCode.reload layout)
  enter : Laid text layout.reloadCs (HandoffCode.enter layout)
  entries : ∀ i, i < 4 → load mem (layout.gdt + 8 * i) 8 = gdtEntries.getD i 0
  limit : load mem layout.gdtr 2 = layout.gdtr - layout.gdt - 1
  base : load mem (layout.gdtr + 2) 8 = layout.gdt

/-- A call in ring 0, with room on a stack that is not the table. -/
structure Called (layout : Layout) (cpu : Cpu) : Prop where
  rip : cpu.rip = layout.start
  ring : cpu.privilege = 0
  words : ∀ register, cpu.reg register < 2 ^ 64
  address : layout.reloadCs < 2 ^ 64
  room : 16 ≤ cpu.reg .rsp
  stack : Apart (cpu.reg .rsp - 16) 16 layout.gdt 32

/-- What `__BOOT_CS` and `__BOOT_DS` must name: flat segments of the whole address space. -/
def flatCode : Descriptor :=
  { base := 0, limit := 2 ^ 32 - 1, rights := true, conforming := false, code := true
    segment := true, privilege := 0, present := true, long := true, big := false }

def flatData : Descriptor :=
  { base := 0, limit := 2 ^ 32 - 1, rights := true, conforming := false, code := false
    segment := true, privilege := 0, present := true, long := false, big := true }

/-- The 64-bit boot protocol at the kernel's entry point. -/
structure BootProtocol (cpu : Cpu) (params entry : Nat) : Prop where
  entry : cpu.rip = entry
  params : cpu.reg .rsi = params
  quiet : cpu.interrupts = false
  code : cpu.lookup bootCs = .ok flatCode
  data : cpu.lookup bootDs = .ok flatData
  cs : cpu.selector .cs = bootCs ∧ cpu.cached .cs = some flatCode
  segments : ∀ register ∈ [SegmentRegister.ds, .es, .ss],
    cpu.selector register = bootDs ∧ cpu.cached register = some flatData
  cleared : ∀ register ∈ [SegmentRegister.fs, .gs],
    cpu.selector register = 0 ∧ cpu.cached register = none

/-- The bytes that the code writes: two slots of the stack for the far pointer, and the
accessed bits of the two descriptors. -/
def Own (layout : Layout) (cpu : Cpu) (x : Nat) : Prop :=
  (cpu.reg .rsp - 16 ≤ x ∧ x < cpu.reg .rsp) ∨ x = layout.gdt + 0x15 ∨ x = layout.gdt + 0x1D

/-- What the kernel finds as the loader left it. -/
structure Untouched (layout : Layout) (before after : Cpu) : Prop where
  registers : ∀ register, register ≠ .rax → register ≠ .rsi → after.reg register = before.reg register
  memory : ∀ x, ¬ Own layout before x → after.mem x = before.mem x

/-- Behind the far return: the new table is in force and `cs` is from it. -/
structure Reloaded (layout : Layout) (before after : Cpu) : Prop where
  rip : after.rip = layout.reloadCs
  registers : ∀ register, register ≠ .rax → after.reg register = before.reg register
  gdtBase : after.gdtBase = layout.gdt
  gdtLimit : after.gdtLimit = 31
  cs : after.selector .cs = bootCs ∧ after.cached .cs = some flatCode
  table : SameTable after.mem before.mem layout.gdt 31
  memory : ∀ x, ¬ (before.reg .rsp - 16 ≤ x ∧ x < before.reg .rsp) → x ≠ layout.gdt + 0x15 →
    after.mem x = before.mem x

/-- Between the far return and the jump: `ax` holds a word, some segments have been
loaded from the table and others cleared. -/
structure Entering (layout : Layout) (before cpu : Cpu) (word : Nat)
    (loaded cleared : List SegmentRegister) : Prop where
  registers : ∀ register, register ≠ .rax → register ≠ .rsi → cpu.reg register = before.reg register
  word : cpu.reg .rax % 2 ^ 16 = word
  gdtBase : cpu.gdtBase = layout.gdt
  gdtLimit : cpu.gdtLimit = 31
  cs : cpu.selector .cs = bootCs ∧ cpu.cached .cs = some flatCode
  table : SameTable cpu.mem before.mem layout.gdt 31
  memory : ∀ x, ¬ (before.reg .rsp - 16 ≤ x ∧ x < before.reg .rsp) → x ≠ layout.gdt + 0x15 →
    x ≠ layout.gdt + 0x1D → cpu.mem x = before.mem x
  segments : ∀ register ∈ loaded, cpu.selector register = bootDs ∧ cpu.cached register = some flatData
  cleared : ∀ register ∈ cleared, cpu.selector register = 0 ∧ cpu.cached register = none

section Handoff
variable {layout : Layout} {text : Text} {cpu before : Cpu} {word next : Nat}
  {loaded cleared : List SegmentRegister}

theorem table_code (assembled : Assembled layout text cpu.mem) :
    descriptorAt cpu.mem layout.gdt bootCs = flatCode := by
  have entry : load cpu.mem (layout.gdt + bootCs / 8 * 8) 8 = 0x00AF9A000000FFFF :=
    assembled.entries 2 (by decide)
  rw [descriptorAt_of_load entry]
  decide +kernel

theorem table_data (assembled : Assembled layout text cpu.mem) :
    descriptorAt cpu.mem layout.gdt bootDs = flatData := by
  have entry : load cpu.mem (layout.gdt + bootDs / 8 * 8) 8 = 0x00CF92000000FFFF :=
    assembled.entries 3 (by decide)
  rw [descriptorAt_of_load entry]
  decide +kernel

/-- The far pointer is on the stack, below what the caller had there. -/
theorem far_pointer {cpu : Cpu} {target push pop : Nat} (room : 16 ≤ cpu.reg .rsp)
    (word : cpu.reg .rsp < 2 ^ 64) (address : target < 2 ^ 64) :
    let far := (((cpu.pushed bootCs).goto push).pushed target).goto pop
    far.reg .rsp = cpu.reg .rsp - 16 ∧ load far.mem (far.reg .rsp) 8 = target ∧
      load far.mem (far.reg .rsp + 8) 2 = bootCs ∧
      WritesIn cpu.mem far.mem (cpu.reg .rsp - 16) 16 := by
  have first := pushed_top bootCs (by omega) word
  have upper := pushed_mem bootCs (by omega) word
  have second := @pushed_top ((cpu.pushed bootCs).goto push) target (by simp; omega) (by simp; omega)
  have lower := @pushed_mem ((cpu.pushed bootCs).goto push) target (by simp; omega) (by simp; omega)
  have top : (cpu.pushed bootCs).reg .rsp - 8 = cpu.reg .rsp - 16 := by omega
  rw [goto_reg, top] at second lower
  dsimp only
  have next : cpu.reg .rsp - 16 + 8 = cpu.reg .rsp - 8 := by omega
  rw [goto_reg, goto_mem, second, lower, goto_mem, upper, next]
  refine ⟨rfl, ?_, ?_, ?_⟩
  · rw [load_store_same]
    exact Nat.mod_eq_of_lt address
  · rw [load_store_apart _ _ _ _ _ _ (Or.inl (by omega)), load_store_low _ _ _ _ _ (by decide)]
    rfl
  · intro x outside
    rw [store_frame _ _ _ _ _ (by omega), store_frame _ _ _ _ _ (by omega)]

/-- The far return from a state that has only its far pointer on the stack. -/
theorem far_reloads {far : Cpu} (called : Called layout cpu)
    (top : far.reg .rsp = cpu.reg .rsp - 16)
    (kept : ∀ register, register ≠ .rax → register ≠ .rsp → far.reg register = cpu.reg register)
    (base : far.gdtBase = layout.gdt) (limit : far.gdtLimit = 31)
    (writes : WritesIn cpu.mem far.mem (cpu.reg .rsp - 16) 16)
    (table : SameTable far.mem cpu.mem layout.gdt 31) :
    Reloaded layout cpu
      (((far.setReg .rsp (far.reg .rsp + 16)).setSegment .cs bootCs flatCode).goto layout.reloadCs) := by
  have word := called.words .rsp
  have room := called.room
  refine ⟨rfl, fun register spared => ?_, base, limit, by simp, ?_, fun x outside elsewhere => ?_⟩
  · simp only [goto_reg, setSegment_reg, setReg_reg]
    by_cases stack : register = .rsp
    · rw [stack, Function.update_self]
      omega
    · rw [Function.update_of_ne stack, kept register spared stack]
  · simp only [goto_mem, setSegment_mem, setReg_mem, setReg_gdtBase, base]
    exact (markAccessed_sameTable far.mem layout.gdt 31 bootCs).trans table
  · simp only [goto_mem, setSegment_mem, setReg_mem, setReg_gdtBase, base]
    rw [markAccessed_frame far.mem layout.gdt bootCs x elsewhere]
    exact writes x (by omega)

theorem reload_runs (assembled : Assembled layout text cpu.mem) (called : Called layout cpu) :
    ∃ middle, run text 5 cpu = .ok middle ∧ Reloaded layout cpu middle := by
  have word := called.words .rsp
  have room := called.room
  have laid : Laid text cpu.rip (reload layout) := called.rip ▸ assembled.reload
  have limit : load cpu.mem layout.gdtr 2 = 31 := by
    rw [assembled.limit, Layout.gdtr]
    omega
  -- the states between the instructions, the last one with the far return fetched
  let armed : Cpu :=
    { cpu.goto (cpu.rip + layout.length 0) with gdtLimit := 31, gdtBase := layout.gdt }
  let aimed : Cpu := (armed.goto (armed.rip + layout.length 1)).setReg .rax layout.reloadCs
  let selected : Cpu := (aimed.goto (aimed.rip + layout.length 2)).pushed bootCs
  let pushed : Cpu := (selected.goto (selected.rip + layout.length 3)).pushed layout.reloadCs
  let far : Cpu := pushed.goto (pushed.rip + layout.length 4)
  have kept : aimed.reg .rsp = cpu.reg .rsp := by
    rw [setReg_reg, Function.update_of_ne (by decide)]
    rfl
  obtain ⟨top, target, selects, writes⟩ : far.reg .rsp = cpu.reg .rsp - 16 ∧
      load far.mem (far.reg .rsp) 8 = layout.reloadCs ∧ load far.mem (far.reg .rsp + 8) 2 = bootCs ∧
      WritesIn cpu.mem far.mem (cpu.reg .rsp - 16) 16 := by
    have pointer := @far_pointer (aimed.goto (aimed.rip + layout.length 2)) layout.reloadCs
      (selected.rip + layout.length 3) (pushed.rip + layout.length 4) (kept ▸ called.room) (kept ▸ word)
      called.address
    rw [goto_reg, kept] at pointer
    exact pointer
  have base : far.gdtBase = layout.gdt := rfl
  have table : SameTable far.mem cpu.mem layout.gdt 31 :=
    sameTable_of_sameOn (writes.sameOn called.stack)
  have looked : far.lookup bootCs = .ok flatCode := by
    have within : bootCs / 8 * 8 + 7 ≤ 31 := by decide
    have entry : descriptorAt far.mem far.gdtBase bootCs = flatCode :=
      (table bootCs within).trans (table_code assembled)
    rw [lookup_ok (by decide) within, entry]
  have pointed : execute (selected.goto (selected.rip + layout.length 3)) (.push .rax) = .ok pushed := by
    have pushes : selected.reg .rax = layout.reloadCs := by
      rw [pushed_other _ (by decide), goto_reg, setReg_reg, Function.update_self]
      exact Nat.mod_eq_of_lt called.address
    rw [execute, goto_reg, pushes]
  have returns := returnFar_ok far bootCs flatCode selects (by decide) looked (by decide)
    ⟨called.ring.symm, called.ring.symm⟩ (by decide)
  have arms : execute (cpu.goto (cpu.rip + layout.length 0)) (.lgdt layout.gdtr) = .ok armed :=
    lgdt_ok called.ring ⟨limit, assembled.base⟩
  have aims : execute (armed.goto (armed.rip + layout.length 1)) (.lea layout.reloadCs .rax) =
      .ok aimed := rfl
  have pushes : execute (aimed.goto (aimed.rip + layout.length 2)) (.pushImmediate bootCs) =
      .ok selected := rfl
  refine ⟨_, run_next laid arms rfl fun laid => run_next laid aims rfl fun laid =>
    run_next laid pushes rfl fun laid => run_next laid pointed rfl fun laid =>
    run_one laid returns, ?_⟩
  have returned : Reloaded layout cpu _ :=
    far_reloads called top (fun register spared stack => by
      rw [goto_reg, pushed_other _ stack, goto_reg, pushed_other _ stack, goto_reg, setReg_reg,
        Function.update_of_ne spared]
      rfl) base rfl writes table
  rwa [target]

theorem Reloaded.entering (reloaded : Reloaded layout before cpu) :
    Entering layout before cpu (cpu.reg .rax % 2 ^ 16) [] [] where
  registers := fun register spared _ => reloaded.registers register spared
  word := rfl
  gdtBase := reloaded.gdtBase
  gdtLimit := reloaded.gdtLimit
  cs := reloaded.cs
  table := reloaded.table
  memory := fun x unstacked uncode _ => reloaded.memory x unstacked uncode
  segments := fun _ member => absurd member List.not_mem_nil
  cleared := fun _ member => absurd member List.not_mem_nil

theorem Entering.ring (entering : Entering layout before cpu word loaded cleared) :
    cpu.privilege = 0 := by
  rw [Cpu.privilege, entering.cs.1]
  rfl

theorem Entering.setWord (entering : Entering layout before cpu word loaded cleared) (value : Nat)
    (small : value < 2 ^ 16) :
    Entering layout before ((cpu.goto next).setWord .rax value) value loaded cleared where
  registers := fun register spared unaimed => by
    rw [Cpu.setWord, setReg_reg, Function.update_of_ne spared]
    exact entering.registers register spared unaimed
  word := by
    rw [Cpu.setWord, setReg_reg, Function.update_self]
    omega
  gdtBase := entering.gdtBase
  gdtLimit := entering.gdtLimit
  cs := entering.cs
  table := entering.table
  memory := entering.memory
  segments := entering.segments
  cleared := entering.cleared

theorem Entering.names (entering : Entering layout before cpu word loaded cleared) (next value : Nat)
    (small : value < 2 ^ 16) :
    ∃ after, execute (cpu.goto next) (.moveWord value .rax) = .ok after ∧ after.rip = next ∧
      Entering layout before after value loaded cleared :=
  ⟨_, rfl, rfl, entering.setWord value small⟩

theorem Entering.zeroes (entering : Entering layout before cpu word loaded cleared) (next : Nat) :
    ∃ after, execute (cpu.goto next) (.xorWord .rax .rax) = .ok after ∧ after.rip = next ∧
      Entering layout before after 0 loaded cleared := by
  refine ⟨(cpu.goto next).setWord .rax 0, ?_, rfl, entering.setWord 0 (by decide)⟩
  rw [execute, Nat.xor_self]

/-- A data segment register from the table: nothing in ring 0 stands in the way. -/
theorem Entering.loads (assembled : Assembled layout text before.mem)
    (entering : Entering layout before cpu bootDs loaded cleared) (next : Nat)
    (register : SegmentRegister) (data : register ∈ [SegmentRegister.ds, .es, .ss])
    (apart : register ∉ cleared) :
    ∃ after, execute (cpu.goto next) (.moveSegment .rax register) = .ok after ∧ after.rip = next ∧
      Entering layout before after bootDs (register :: loaded) cleared := by
  have ring : (cpu.goto next).privilege = 0 := entering.ring
  have looked : (cpu.goto next).lookup bootDs = .ok flatData := by
    have within : bootDs / 8 * 8 + 7 ≤ 31 := by decide
    rw [lookup_ok (by decide) (by rw [goto_gdtLimit, entering.gdtLimit]; exact within), goto_mem,
      goto_gdtBase, entering.gdtBase, entering.table bootDs within, table_data assembled]
  have unfixed : SegmentRegister.cs ≠ register := by
    rintro rfl
    revert data
    decide
  have loads := loadData_ok register (by decide) looked (by decide)
    ⟨by decide, ring ▸ Nat.zero_le _⟩ (by decide)
  have stackLoads := loadStack_ok (by decide) looked (by decide) ⟨ring.symm, ring.symm⟩ (by decide)
  refine ⟨(cpu.goto next).setSegment register bootDs flatData, ?_, rfl, ?_⟩
  · cases register with
    | cs => exact absurd rfl unfixed
    | ss => rw [execute, goto_reg, entering.word, stackLoads]
    | ds | es | fs | gs => rw [execute, goto_reg, entering.word, loads] <;> simp
  · exact {
      registers := entering.registers
      word := entering.word
      gdtBase := entering.gdtBase
      gdtLimit := entering.gdtLimit
      cs := by
        rw [setSegment_selector, setSegment_cached, Function.update_of_ne unfixed,
          Function.update_of_ne unfixed]
        exact entering.cs
      table := by
        rw [setSegment_mem, goto_gdtBase, entering.gdtBase]
        exact (markAccessed_sameTable _ _ _ _).trans entering.table
      memory := fun x unstacked uncode undata => by
        rw [setSegment_mem, goto_gdtBase, entering.gdtBase, markAccessed_frame _ _ _ _ undata]
        exact entering.memory x unstacked uncode undata
      segments := fun other member => by
        rw [setSegment_selector, setSegment_cached]
        by_cases same : other = register
        · rw [same, Function.update_self, Function.update_self]
          exact ⟨rfl, rfl⟩
        · rw [Function.update_of_ne same, Function.update_of_ne same]
          exact entering.segments other ((List.mem_cons.mp member).resolve_left same)
      cleared := fun other member => by
        have different : other ≠ register := fun same => apart (same ▸ member)
        rw [setSegment_selector, setSegment_cached, Function.update_of_ne different,
          Function.update_of_ne different]
        exact entering.cleared other member }

theorem Entering.clears (entering : Entering layout before cpu 0 loaded cleared) (next : Nat)
    (register : SegmentRegister) (extra : register ∈ [SegmentRegister.fs, .gs])
    (apart : register ∉ loaded) :
    ∃ after, execute (cpu.goto next) (.moveSegment .rax register) = .ok after ∧ after.rip = next ∧
      Entering layout before after 0 loaded (register :: cleared) := by
  have unfixed : SegmentRegister.cs ≠ register := by
    rintro rfl
    revert extra
    decide
  refine ⟨(cpu.goto next).clearSegment register 0, ?_, rfl, ?_⟩
  · cases register with
    | cs => exact absurd rfl unfixed
    | ss => exact absurd extra (by decide)
    | ds | es | fs | gs => rw [execute, goto_reg, entering.word] <;> first | rfl | simp
  · exact {
      registers := entering.registers
      word := entering.word
      gdtBase := entering.gdtBase
      gdtLimit := entering.gdtLimit
      cs := by
        rw [clearSegment_selector, clearSegment_cached, Function.update_of_ne unfixed,
          Function.update_of_ne unfixed]
        exact entering.cs
      table := entering.table
      memory := entering.memory
      segments := fun other member => by
        have different : other ≠ register := fun same => apart (same ▸ member)
        rw [clearSegment_selector, clearSegment_cached, Function.update_of_ne different,
          Function.update_of_ne different]
        exact entering.segments other member
      cleared := fun other member => by
        rw [clearSegment_selector, clearSegment_cached]
        by_cases same : other = register
        · rw [same, Function.update_self, Function.update_self]
          exact ⟨rfl, rfl⟩
        · rw [Function.update_of_ne same, Function.update_of_ne same]
          exact entering.cleared other ((List.mem_cons.mp member).resolve_left same) }

theorem Entering.silences (entering : Entering layout before cpu word loaded cleared) (next : Nat) :
    ∃ after, execute (cpu.goto next) .cli = .ok after ∧ after.rip = next ∧
      after.interrupts = false ∧ Entering layout before after word loaded cleared :=
  ⟨_, cli_ok entering.ring, rfl, rfl, entering.registers, entering.word, entering.gdtBase,
    entering.gdtLimit, entering.cs, entering.table, entering.memory, entering.segments,
    entering.cleared⟩

theorem Entering.aims (entering : Entering layout before cpu word loaded cleared) (next : Nat)
    (quiet : cpu.interrupts = false) (small : before.reg .rcx < 2 ^ 64) :
    ∃ after, execute (cpu.goto next) (.move .rcx .rsi) = .ok after ∧ after.rip = next ∧
      after.reg .rsi = before.reg .rcx ∧ after.interrupts = false ∧
      Entering layout before after word loaded cleared := by
  have pointer : cpu.reg .rcx = before.reg .rcx := entering.registers .rcx (by decide) (by decide)
  refine ⟨(cpu.goto next).setReg .rsi (cpu.reg .rcx), rfl, rfl, ?_, quiet, ?_⟩
  · rw [setReg_reg, Function.update_self, pointer]
    exact Nat.mod_eq_of_lt small
  · exact { entering with
      registers := fun register spared unaimed => by
        rw [setReg_reg, Function.update_of_ne unaimed]
        exact entering.registers register spared unaimed
      word := by
        rw [setReg_reg, Function.update_of_ne (by decide)]
        exact entering.word }

/-- What the last two instructions make of a state with all segments set. -/
theorem Entering.arrives (assembled : Assembled layout text before.mem) {entry : Nat}
    (entering : Entering layout before cpu 0 [.ss, .es, .ds] [.gs, .fs])
    (quiet : cpu.interrupts = false) (aims : cpu.reg .rsi = before.reg .rcx)
    (target : entry = before.reg .rdx) :
    BootProtocol (cpu.goto entry) (before.reg .rcx) (before.reg .rdx) ∧
      Untouched layout before (cpu.goto entry) := by
  have looked (selector : Nat) (within : selector / 8 * 8 + 7 ≤ 31) (table : selector / 4 % 2 = 0) :
      (cpu.goto entry).lookup selector = .ok (descriptorAt before.mem layout.gdt selector) := by
    rw [lookup_ok table (by rw [goto_gdtLimit, entering.gdtLimit]; exact within), goto_gdtBase,
      goto_mem, entering.gdtBase, entering.table selector within]
  exact ⟨{
      entry := target
      params := aims
      quiet
      code := by rw [looked bootCs (by decide) (by decide), table_code assembled]
      data := by rw [looked bootDs (by decide) (by decide), table_data assembled]
      cs := entering.cs
      segments := fun register member => entering.segments register (by revert member; simp; tauto)
      cleared := fun register member => entering.cleared register (by revert member; simp; tauto) },
    ⟨entering.registers, fun x free => by
      simp only [Own, not_or] at free
      exact entering.memory x free.1 free.2.1 free.2.2⟩⟩

theorem enter_runs (assembled : Assembled layout text before.mem)
    (called : Called layout before) (reloaded : Reloaded layout before cpu) :
    ∃ last, run text 10 cpu = .ok last ∧
      BootProtocol last (before.reg .rcx) (before.reg .rdx) ∧ Untouched layout before last := by
  have laid : Laid text cpu.rip (enter layout) := reloaded.rip ▸ assembled.enter
  obtain ⟨named, names, namedAt, entering⟩ :=
    reloaded.entering.names (cpu.rip + layout.length 5) bootDs (by decide)
  obtain ⟨withData, dataLoads, dataAt, entering⟩ :=
    entering.loads assembled (named.rip + layout.length 6) .ds (by decide) (by decide)
  obtain ⟨withExtra, extraLoads, extraAt, entering⟩ :=
    entering.loads assembled (withData.rip + layout.length 7) .es (by decide) (by decide)
  obtain ⟨withStack, stackLoads, stackAt, entering⟩ :=
    entering.loads assembled (withExtra.rip + layout.length 8) .ss (by decide) (by decide)
  obtain ⟨zeroed, zeroes, zeroedAt, entering⟩ := entering.zeroes (withStack.rip + layout.length 9)
  obtain ⟨withoutFs, fsClears, fsAt, entering⟩ :=
    entering.clears (zeroed.rip + layout.length 10) .fs (by decide) (by decide)
  obtain ⟨withoutGs, gsClears, gsAt, entering⟩ :=
    entering.clears (withoutFs.rip + layout.length 11) .gs (by decide) (by decide)
  obtain ⟨silent, silences, silentAt, quiet, entering⟩ := entering.silences (withoutGs.rip + layout.length 12)
  obtain ⟨aimed, aims, aimedAt, points, quiet, entering⟩ :=
    entering.aims (silent.rip + layout.length 13) quiet (called.words .rcx)
  have target : aimed.reg .rdx = before.reg .rdx := entering.registers .rdx (by decide) (by decide)
  refine ⟨aimed.goto (aimed.reg .rdx), ?_, entering.arrives assembled quiet points target⟩
  exact run_next laid names namedAt fun laid => run_next laid dataLoads dataAt fun laid =>
    run_next laid extraLoads extraAt fun laid => run_next laid stackLoads stackAt fun laid =>
    run_next laid zeroes zeroedAt fun laid => run_next laid fsClears fsAt fun laid =>
    run_next laid gsClears gsAt fun laid => run_next laid silences silentAt fun laid =>
    run_next laid aims aimedAt fun laid => run_one laid rfl

/-- From the call, fifteen instructions lead to the kernel as its boot protocol wants it. -/
theorem handoff_runs (assembled : Assembled layout text cpu.mem) (called : Called layout cpu) :
    ∃ last, run text 15 cpu = .ok last ∧ BootProtocol last (cpu.reg .rcx) (cpu.reg .rdx) ∧
      Untouched layout cpu last := by
  obtain ⟨middle, reloads, reloaded⟩ := reload_runs assembled called
  obtain ⟨last, enters, arrives⟩ := enter_runs assembled called reloaded
  exact ⟨last, run_append reloads enters, arrives⟩

end Handoff

end Wboot.HandoffCode
