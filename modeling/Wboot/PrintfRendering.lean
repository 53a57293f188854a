import Wboot.Blocks
import Wboot.PrintfElements

/-! What printf prints, against what it should print. The scan prints most elements as
documented, but drops the sign of an unknown `%-`, cuts the string of `%-s` at 255
characters, reads on behind a format that ends in a conversion, and sends what is left
of a character that is larger than a byte. -/

namespace Wboot.PrintfRendering
open StateProgram ByteMemory CString Machine Wstdlib PrintfPieces Effects PrintfOutput PrintfElements Blocks

/-! ### Arguments -/

/-- A live block holds these bytes. -/
def LiesIn (world : World) (address count : Nat) : Prop :=
  ∃ block ∈ live world.history, block.start ≤ address ∧ address + count ≤ block.start + block.size

/-- A wide string: a literal, or in a live block with its terminator. -/
inductive Wide (world : World) : Arg → List UInt16 → Prop
  | literal (text : List UInt16) (nonzero : ∀ c ∈ text, c ≠ 0) : Wide world (.wideText text) text
  | pointer (p : Nat) (text : List UInt16) (nonzero : ∀ c ∈ text, c ≠ 0)
      (here : TextAt world.mem p (wideBytes (text ++ [0]))) (lies : LiesIn world p (2 * (text.length + 1))) :
      Wide world (.widePointer p) text

inductive Narrow (world : World) : Arg → List UInt8 → Prop
  | literal (text : List UInt8) (nonzero : ∀ c ∈ text, c ≠ 0) : Narrow world (.narrowText text) text
  | pointer (p : Nat) (text : List UInt8) (here : StringAt world.mem p text)
      (lies : LiesIn world p (text.length + 1)) : Narrow world (.narrowPointer p) text

/-- The arguments match the format: strings of less than 1024 characters and 64-bit numbers. -/
def Matched (world : World) : Element → Prop
  | .conversion c arg =>
      (c = letterS → ∃ text, Wide world arg text ∧ text.length < printfBufferSize) ∧
        (c ≠ letterS → ∃ num, arg = .num num ∧ num < 2 ^ 64)
  | .narrow arg => ∃ text, Narrow world arg text ∧ text.length < printfBufferSize
  | _ => True

/-- Live blocks stay, with their bytes. -/
def SparesAll (before after : World) : Prop := ∀ block, Blocks.Spares block before after

instance : IsPreorder World SparesAll where
  refl := fun _ _ => Std.Refl.refl _
  trans := fun _ _ _ left right block => IsTrans.trans _ _ _ (left block) (right block)

section Matching
variable {before after : World} {arg : Arg}

theorem LiesIn.same {address count : Nat} (lies : LiesIn before address count) (spares : SparesAll before after) :
    LiesIn after address count ∧ SameOn after.mem before.mem address count := by
  obtain ⟨block, member, lower, upper⟩ := lies
  obtain ⟨still, same⟩ := spares block member
  exact ⟨⟨block, still, lower, upper⟩, fun x below above => same x (by omega) (by omega)⟩

theorem Wide.read {text : List UInt16} (reads : Wide before arg text) (short : text.length < printfBufferSize) :
    readText before.mem arg = text := by
  cases reads with
  | literal => rfl
  | pointer p text nonzero here lies =>
      have bounded : text.length < addressSpace := Nat.lt_trans short (by decide +kernel)
      exact wideString_at bounded nonzero here

theorem Wide.kept {text : List UInt16} (reads : Wide before arg text) (spares : SparesAll before after) :
    Wide after arg text := by
  cases reads with
  | literal text nonzero => exact .literal text nonzero
  | pointer p text nonzero here lies =>
      obtain ⟨still, same⟩ := lies.same spares
      refine .pointer p text nonzero ((textAt_congr ?_).mpr here) still
      rwa [wideBytes_length, List.length_append]

theorem Narrow.read {text : List UInt8} (reads : Narrow before arg text)
    (short : text.length < printfBufferSize) : readNarrow before.mem arg = text := by
  cases reads with
  | literal => rfl
  | pointer p text here lies => exact cstring_at (Nat.lt_trans short (by decide +kernel)) here

theorem Narrow.kept {text : List UInt8} (reads : Narrow before arg text) (spares : SparesAll before after) :
    Narrow after arg text := by
  cases reads with
  | literal text nonzero => exact .literal text nonzero
  | pointer p text here lies =>
      obtain ⟨still, same⟩ := lies.same spares
      exact .pointer p text ((stringAt_congr same).mpr here) still

theorem Narrow.nonzero {text : List UInt8} (reads : Narrow before arg text) : ∀ c ∈ text, c ≠ 0 := by
  cases reads with
  | literal text nonzero => exact nonzero
  | pointer p text here lies => exact here.nonzero

theorem Matched.given {element : Element} (matched : Matched before element) : element.given before.mem := by
  cases element with
  | conversion c arg =>
      by_cases string : c = letterS
      · obtain ⟨text, reads, -⟩ := matched.1 string
        have zero : arg.value = 0 := by cases reads <;> rfl
        change arg.value < 2 ^ 64
        omega
      · obtain ⟨num, rfl, bounded⟩ := matched.2 string
        exact bounded
  | narrow arg =>
      obtain ⟨text, reads, short⟩ := matched
      change ∀ c ∈ readNarrow before.mem arg, c ≠ 0
      rw [reads.read short]
      exact reads.nonzero
  | verbatim | modifier | opened => trivial

/-- What is printed before does not change what is printed for an element. -/
theorem Matched.kept {element : Element} (matched : Matched before element)
    (spares : SparesAll before after) :
    Matched after element ∧ element.spoken after.mem = element.spoken before.mem := by
  cases element with
  | conversion c arg =>
      obtain ⟨string, number⟩ := matched
      have same : conversionText after.mem c arg = conversionText before.mem c arg := by
        unfold conversionText
        by_cases here : c = letterS
        · obtain ⟨text, reads, short⟩ := string here
          rw [if_pos here, if_pos here, reads.read short, (reads.kept spares).read short]
        · rw [if_neg here, if_neg here]
      refine ⟨⟨fun here => ?_, number⟩, same⟩
      obtain ⟨text, reads, short⟩ := string here
      exact ⟨text, reads.kept spares, short⟩
  | narrow arg =>
      obtain ⟨text, reads, short⟩ := matched
      have later := reads.kept spares
      simp only [Element.spoken, reads.read short, later.read short, and_true]
      exact ⟨text, later, short⟩
  | verbatim | modifier | opened => exact ⟨trivial, rfl⟩

end Matching

/-! ### One element -/

/-- Every pool allocation succeeds. -/
def granted : Event → Prop
  | .allocatePool _ status _ => efiError status = false
  | _ => True

structure Speaks (text : List UInt16) (opened : Bool) (before after : World) : Prop where
  flag : after.bsExited = before.bsExited
  said : output after.console = output before.console ++ narrowed text
  overran : after.console.overran = (before.console.overran || opened)

section Elements
variable {fw : Firmware} {before after : World}

theorem console_speaks {update : Console → Console} {text : List UInt16} {opened : Bool}
    (said : output (update before.console) = output before.console ++ narrowed text)
    (reads : (update before.console).overran = (before.console.overran || opened))
    (run : console update before = ((), after)) : Speaks text opened before after := by
  cases run
  exact ⟨rfl, said, reads⟩

theorem writeArg_speaks {arg : Arg} (run : printfWriteArg arg before = ((), after)) :
    Speaks (readText before.mem arg) false before after := by
  have effect : Prints before after := (printfWriteArg_prints arg).run run
  have text := output_writeArg arg before
  have kept : (printfWriteArg arg before).2.console.overran = before.console.overran := by
    have recorded : (recordRead arg before).2.console = before.console ∧
        (recordRead arg before).2.mem = before.mem := by
      cases arg <;> exact ⟨rfl, rfl⟩
    unfold printfWriteArg
    simp only [bind_apply, readState_apply, console, modifyState_apply, recorded]
    exact overran_write before.console _
  rw [run] at text kept
  exact ⟨effect.bsExited, text, by rw [kept, Bool.or_false]⟩

theorem convert_speaks {c : UInt16} {arg : Arg} (bounded : arg.value < 2 ^ 64)
    (run : convert c arg before = ((), after)) :
    Speaks (conversionText before.mem c arg) false before after := by
  by_cases string : c = letterS
  · rw [convert, if_pos string] at run
    rw [conversionText, if_pos string]
    exact writeArg_speaks run
  · rw [convert_number string] at run
    obtain ⟨said, kept⟩ := numberWriter_written string bounded before.mem before.console
    exact console_speaks said (by rw [kept, Bool.or_false]) run

theorem malloc_console {size ptr : Nat} (early : before.bsExited = false)
    (run : malloc fw size before = (ptr, after)) : after.console = before.console := by
  rw [malloc_apply fw size before early] at run
  split at run <;> cases run <;> rfl

theorem free_console {ptr : Nat} (early : before.bsExited = false) (run : free fw ptr before = ((), after)) :
    after.console = before.console := by
  rw [free_apply fw ptr before early] at run
  split at run <;> cases run <;> rfl

/-- The widened copy is read back from where it was put, if it was put anywhere. -/
theorem printfNarrow_speaks {arg : Arg} (early : before.bsExited = false)
    (nonzero : ∀ c ∈ readNarrow before.mem arg, c ≠ 0) (run : printfNarrow fw arg before = ((), after)) :
    Speaks (Element.spoken before.mem (.narrow arg)) false before after := by
  obtain ⟨recorded, buffer, allocated, stored, written, quiet, records, allocation, stores, writes, frees⟩ :=
    printfNarrow_parts run
  have started : recorded.console = before.console := by cases arg <;> cases records <;> rfl
  have running : recorded.bsExited = false := quiet.bsExited.trans early
  have calls : Absorbs fw (Calls fun _ => True) := calls_absorbs fw fun _ => trivial
  have allocating := ((calls.malloc _).run allocation).bsExited
  have screen : allocated.console = before.console := (malloc_console running allocation).trans started
  obtain ⟨memory, console, flag⟩ : stored.mem = storeBytes allocated.mem buffer
        (wideBytes (((readNarrow before.mem arg).take 255).map UInt8.toUInt16 ++ [0])) ∧
      stored.console = allocated.console ∧ stored.bsExited = allocated.bsExited := by
    cases stores
    exact ⟨rfl, rfl, rfl⟩
  have copy : readText stored.mem (.widePointer buffer) =
      ((readNarrow before.mem arg).take 255).map UInt8.toUInt16 := by
    have bounded : (((readNarrow before.mem arg).take 255).map UInt8.toUInt16).length < addressSpace := by
      rw [List.length_map, List.length_take, addressSpace_eq]
      omega
    refine wideString_at bounded (fun c member => ?_) (memory ▸ textAt_storeBytes _ _ _)
    obtain ⟨byte, inside, rfl⟩ := List.mem_map.mp member
    exact fun null => nonzero byte (List.mem_of_mem_take inside) (by simpa using congrArg UInt16.toUInt8 null)
  have said := writeArg_speaks writes
  rw [copy] at said
  have kept : written.bsExited = recorded.bsExited := said.flag.trans (flag.trans allocating)
  have ended := free_console (kept.trans running) frees
  exact
    { flag := (((calls.free buffer).run frees).bsExited.trans kept).trans quiet.bsExited
      said := by rw [ended, said.said, console, screen, Element.spoken]
      overran := by rw [ended, said.overran, console, screen] }

theorem element_speaks {element : Element} (early : element.allocates = true → before.bsExited = false)
    (given : element.given before.mem) (run : runPiece (printfNarrow fw) element.piece before = ((), after)) :
    Speaks (element.spoken before.mem) element.opens before after := by
  cases element with
  | verbatim text =>
      change console (fun old => text.foldl printfWriteChar old) before = ((), after) at run
      exact console_speaks (output_writeChars _ text) (by rw [overran_writeChars]; simp [Element.opens]) run
  | conversion c arg => exact convert_speaks given run
  | narrow arg => exact printfNarrow_speaks (early rfl) given run
  | modifier c =>
      change console (fun old => [percent, c].foldl printfWriteChar old) before = ((), after) at run
      refine console_speaks ?_ (by rw [overran_writeChars]; simp [Element.opens]) run
      exact output_writeChars before.console [percent, c]
  | opened text =>
      change cutOff before = ((), after) at run
      unfold cutOff at run
      refine console_speaks ?_ (by simp [Element.opens]) run
      exact output_writeChars before.console [percent, 0]

/-! ### The whole format -/

/-- An element, and the memory in which printf comes to it. -/
structure Turn where
  element : Element
  memory : Memory

def Turn.text (turn : Turn) : List UInt16 := turn.element.text turn.memory
def Turn.spoken (turn : Turn) : List UInt16 := turn.element.spoken turn.memory
def Turn.Sound (turn : Turn) : Prop := turn.element.Sound turn.memory

def turns (fw : Firmware) : List Element → World → List Turn
  | [], _ => []
  | element :: rest, world =>
      ⟨element, world.mem⟩ :: turns fw rest (runPiece (printfNarrow fw) element.piece world).2

theorem turns_element (found : List Element) (world : World) : (turns fw found world).map Turn.element = found := by
  induction found generalizing world with
  | nil => rfl
  | cons element rest ih => rw [turns, List.map_cons, ih]

theorem turns_closed (found : List Element) (world : World) :
    found.any Element.opens = false ↔ ∀ turn ∈ turns fw found world, turn.element.opens = false := by
  conv_lhs => rw [← @turns_element fw found world]
  simp [List.any_map, List.any_eq_false]

theorem turns_speak (found : List Element) {before after : World}
    (early : ∀ element ∈ found, element.allocates = true → before.bsExited = false)
    (given : ∀ turn ∈ turns fw found before, turn.element.given turn.memory)
    (run : runPieces (printfNarrow fw) (found.map Element.piece) before = ((), after)) :
    Speaks ((turns fw found before).flatMap Turn.spoken) (found.any Element.opens) before after := by
  induction found generalizing before with
  | nil =>
      cases run
      exact ⟨rfl, by simp [turns, narrowed], by simp⟩
  | cons element rest ih =>
      rw [List.map_cons, runPieces, run_bind] at run
      obtain ⟨⟨⟩, middle, head, tail⟩ := run
      rw [turns, head] at given
      obtain ⟨here, others⟩ := List.forall_mem_cons.mp given
      obtain ⟨now, later⟩ := List.forall_mem_cons.mp early
      have first := element_speaks now here head
      have last := ih (fun other member allocates => first.flag.trans (later other member allocates)) others tail
      rw [turns, head]
      exact
        { flag := last.flag.trans first.flag
          said := by
            rw [last.said, first.said, List.append_assoc, List.flatMap_cons]
            unfold narrowed
            rw [List.map_append]
            rfl
          overran := by rw [last.overran, first.overran, Bool.or_assoc, List.any_cons] }

/-- One call: everything is sent, and the buffer is empty again. -/
theorem printf_speaks {format : List UInt16} {args : List Arg}
    (early : ∀ element ∈ elements format args, element.allocates = true → before.bsExited = false)
    (given : ∀ turn ∈ turns fw (elements format args) before, turn.element.given turn.memory)
    (run : printf fw format args before = ((), after)) :
    after.console.serial.reverse =
        output before.console ++ narrowed ((turns fw (elements format args) before).flatMap Turn.spoken) ∧
      after.console.pos = 0 ∧
        after.console.overran = (before.console.overran || (elements format args).any Element.opens) := by
  rw [printf, printfWith, run_bind] at run
  obtain ⟨⟨⟩, scanned, scans, flushes⟩ := run
  rw [printfScan_pieces, pieces_elements] at scans
  have speaks := turns_speak _ early given scans
  cases flushes
  exact ⟨(sent_flush scanned.console).trans speaks.said, rfl, speaks.overran⟩

/-! ### The strings stay -/

/-- A granted allocation is not NULL. -/
theorem granted_present {size ptr : Nat} (allocates : Allocates size ptr before after)
    (grants : Calls granted before after) : ptr ≠ 0 := by
  intro null
  obtain ⟨status, pointer, call, refused⟩ := allocates.refused null
  obtain ⟨events, grown, kind⟩ := grants.history
  have same : events = [.allocatePool size status pointer] := List.append_cancel_right (grown.symm.trans call)
  have given : efiError status = false := kind (.allocatePool size status pointer) (by simp [same])
  exact Bool.false_ne_true (given.symm.trans refused)

/-- The copy is in a block of its own. -/
theorem printfNarrow_spares (sound : AllocatorSound fw) {arg : Arg} (early : before.bsExited = false)
    (matched : Matched before (.narrow arg)) (grants : Calls granted before after)
    (run : printfNarrow fw arg before = ((), after)) : SparesAll before after := by
  obtain ⟨text, reads, short⟩ := matched
  have read := reads.read short
  have size : u64 ((text.length + 1) * 2) = (text.length + 1) * 2 := by
    unfold printfBufferSize at short
    exact Nat.mod_eq_of_lt (by omega)
  obtain ⟨recorded, buffer, allocated, stored, written, quiet, -, allocation, stores, writes, frees⟩ :=
    printfNarrow_parts run
  rw [read, size] at allocation
  rw [read] at stores
  have allocates := malloc_allocates fw sound (quiet.bsExited.trans early) allocation
  have calls : Absorbs fw (Calls fun _ => True) := calls_absorbs fw fun _ => trivial
  have allocating := (calls.malloc _).run allocation
  have effect : Prints stored written := (printfWriteArg_prints _).run writes
  have storing := (calls.stores buffer _).run stores
  have rest : Calls (fun _ => True) allocated after :=
    IsTrans.trans _ _ _ storing (IsTrans.trans _ _ _ (effect.calls _) ((calls.free buffer).run frees))
  have grantsAllocating := ((Calls.split (quiet.calls _) (IsTrans.trans _ _ _ allocating rest)).mp grants).2
  have present := granted_present allocates ((Calls.split allocating rest).mp grantsAllocating).1
  have fresh := allocates.fresh present
  -- the copy is no longer than the string, so it fits into the block
  have copied : (wideBytes ((text.take 255).map UInt8.toUInt16 ++ [0])).length ≤ (text.length + 1) * 2 := by
    rw [wideBytes_length, List.length_append, List.length_map, List.length_take, List.length_singleton]
    omega
  obtain ⟨memory, history⟩ : stored.mem =
        storeBytes allocated.mem buffer (wideBytes ((text.take 255).map UInt8.toUInt16 ++ [0])) ∧
      stored.history = allocated.history := by
    cases stores
    exact ⟨rfl, rfl⟩
  have stays (block : Block) (member : block ∈ live recorded.history) : Blocks.Spares block recorded stored := by
    have apart := fresh.apart block member
    unfold Apart at apart
    dsimp only at apart
    refine fun _ => ⟨history ▸ allocates.keeps member, fun x lower upper => ?_⟩
    rw [memory, storeBytes_frame _ _ _ _ (by omega)]
    exact congrFun (congrArg Ram.mem allocates.ram) x
  have running : written.bsExited = false := by
    rw [effect.bsExited, storing.bsExited, allocating.bsExited, quiet.bsExited, early]
  intro block member
  have here : block ∈ live recorded.history := quiet.history ▸ member
  obtain ⟨freed, -⟩ := free_spares (allocates_harmless allocates here) running frees
  exact IsTrans.trans _ _ _ (prints_spares quiet)
    (IsTrans.trans _ _ _ (stays block here) (IsTrans.trans _ _ _ (prints_spares effect) freed)) member

theorem element_spares (sound : AllocatorSound fw) {element : Element}
    (early : element.allocates = true → before.bsExited = false) (matched : Matched before element)
    (grants : Calls granted before after)
    (run : runPiece (printfNarrow fw) element.piece before = ((), after)) : SparesAll before after := by
  cases element with
  | narrow arg => exact printfNarrow_spares sound (early rfl) matched grants run
  | conversion c arg => exact fun _ => prints_spares ((convert_prints c arg).run run)
  | verbatim | modifier | opened =>
      cases run
      exact fun _ member => ⟨member, fun _ _ _ => rfl⟩

/-- With arguments that match, every turn finds the strings as they were passed. -/
theorem turns_matched (sound : AllocatorSound fw) (found : List Element) {before after : World}
    (early : ∀ element ∈ found, element.allocates = true → before.bsExited = false)
    (matched : ∀ element ∈ found, Matched before element) (grants : Calls granted before after)
    (run : runPieces (printfNarrow fw) (found.map Element.piece) before = ((), after)) :
    (∀ turn ∈ turns fw found before, turn.element.given turn.memory) ∧
      (turns fw found before).flatMap Turn.spoken = found.flatMap (Element.spoken before.mem) := by
  have calls : Absorbs fw (Calls fun _ => True) := calls_absorbs fw fun _ => trivial
  induction found generalizing before with
  | nil => exact ⟨by simp [turns], rfl⟩
  | cons element rest ih =>
      rw [List.map_cons, runPieces, run_bind] at run
      obtain ⟨⟨⟩, middle, head, tail⟩ := run
      obtain ⟨here, others⟩ := List.forall_mem_cons.mp matched
      obtain ⟨now, later⟩ := List.forall_mem_cons.mp early
      have each := runPiece_relates calls.prints calls.narrow
      have first := (each _).run head
      have both := (Calls.split first ((runPieces_relates fun piece _ => each piece).run tail)).mp grants
      have spares := element_spares sound now here both.1 head
      have kept (other : Element) (member : other ∈ rest) := (others other member).kept spares
      obtain ⟨given, spoken⟩ :=
        ih (fun other member allocates => first.bsExited.trans (later other member allocates))
        (fun other member => (kept other member).1) both.2 tail
      rw [turns, head, List.flatMap_cons, List.flatMap_cons, spoken]
      refine ⟨List.forall_mem_cons.mpr ⟨here.given, given⟩, congrArg _ ?_⟩
      exact List.flatMap_congr fun other member => (kept other member).2

theorem printf_matched (sound : AllocatorSound fw) {format : List UInt16} {args : List Arg}
    (early : ∀ element ∈ elements format args, element.allocates = true → before.bsExited = false)
    (matched : ∀ element ∈ elements format args, Matched before element) (grants : Calls granted before after)
    (run : printf fw format args before = ((), after)) :
    (∀ turn ∈ turns fw (elements format args) before, turn.element.given turn.memory) ∧
      (turns fw (elements format args) before).flatMap Turn.spoken =
        (elements format args).flatMap (Element.spoken before.mem) := by
  rw [printf, printfWith, run_bind] at run
  obtain ⟨⟨⟩, scanned, scans, flushes⟩ := run
  rw [printfScan_pieces, pieces_elements] at scans
  refine @turns_matched fw sound _ before scanned early matched ?_ scans
  cases flushes
  exact ⟨grants.bsExited, grants.history⟩

end Elements

/-! ### The condition -/

theorem spoken_length (memory : Memory) (element : Element) (closed : element.opens = false) :
    (element.spoken memory).length ≤ (element.text memory).length ∧
      ((element.spoken memory).length = (element.text memory).length → element.whole memory) := by
  cases element with
  | narrow arg =>
      simp only [Element.spoken, Element.text, Element.whole, List.length_map, List.length_take]
      omega
  | modifier c => simp [Element.spoken, Element.text]
  | opened text => cases closed
  | verbatim | conversion => exact ⟨Nat.le_refl _, fun _ => trivial⟩

/-- What is dropped is missing in the length. -/
theorem flatMap_spoken_length (found : List Turn) (closed : ∀ turn ∈ found, turn.element.opens = false) :
    (found.flatMap Turn.spoken).length ≤ (found.flatMap Turn.text).length ∧
      ((found.flatMap Turn.spoken).length = (found.flatMap Turn.text).length →
        ∀ turn ∈ found, turn.element.whole turn.memory) := by
  induction found with
  | nil => simp
  | cons turn rest ih =>
      obtain ⟨first, others⟩ := List.forall_mem_cons.mp closed
      obtain ⟨shorter, here⟩ := spoken_length turn.memory turn.element first
      obtain ⟨less, later⟩ := ih others
      simp only [List.flatMap_cons, List.length_append, Turn.spoken, Turn.text] at less later ⊢
      refine ⟨by omega, fun same => List.forall_mem_cons.mpr ⟨here (by omega), later (by omega)⟩⟩

theorem flatMap_spoken_whole {found : List Turn} (whole : ∀ turn ∈ found, turn.element.whole turn.memory) :
    found.flatMap Turn.spoken = found.flatMap Turn.text :=
  List.flatMap_congr fun turn member => Element.spoken_whole (whole turn member)

theorem carried_flatMap {found : List Turn} (whole : ∀ turn ∈ found, turn.element.whole turn.memory) :
    Carried (found.flatMap Turn.text) ↔ ∀ turn ∈ found, turn.element.carried turn.memory := by
  unfold Carried
  rw [List.forall_mem_flatMap]
  exact forall₂_congr fun turn member => Element.text_carried (whole turn member)

/-- The line gives the documented text back exactly if nothing is dropped and every
character is a byte. -/
theorem turns_sound_iff {found : List Turn} (closed : ∀ turn ∈ found, turn.element.opens = false) :
    widened (narrowed (found.flatMap Turn.spoken)) = found.flatMap Turn.text ↔ ∀ turn ∈ found, turn.Sound := by
  constructor
  · intro same
    have lengths : (found.flatMap Turn.spoken).length = (found.flatMap Turn.text).length := by
      simpa [widened, narrowed] using congrArg List.length same
    have whole := (flatMap_spoken_length found closed).2 lengths
    rw [flatMap_spoken_whole whole, widened_narrowed, carried_flatMap whole] at same
    exact fun turn member => ⟨whole turn member, same turn member⟩
  · intro sound
    have whole (turn : Turn) (member : turn ∈ found) := (sound turn member).whole
    rw [flatMap_spoken_whole whole, widened_narrowed, carried_flatMap whole]
    exact fun turn member => (sound turn member).carried

/-- No conversion is left open, no `%-` is followed by anything but an s, every string of
`%-s` has at most 255 characters, and every character to be printed is a byte. -/
def Supported (memory : Memory) (format : List UInt16) (args : List Arg) : Prop :=
  ∀ element ∈ elements format args, element.Sound memory

/-- printf sends what its documentation says, character by character, and reads no
further than the format. -/
structure Renders (format : List UInt16) (args : List Arg) (before after : World) : Prop where
  sent : widened after.console.serial.reverse =
    widened (output before.console) ++ rendering before.mem format args
  emptied : after.console.pos = 0
  within : after.console.overran = false

theorem printf_renders_iff {fw : Firmware} (sound : AllocatorSound fw) {format : List UInt16} {args : List Arg}
    {before after : World} (unread : before.console.overran = false)
    (early : ∀ element ∈ elements format args, element.allocates = true → before.bsExited = false)
    (matched : ∀ element ∈ elements format args, Matched before element) (grants : Calls granted before after)
    (run : printf fw format args before = ((), after)) :
    Renders format args before after ↔ Supported before.mem format args := by
  obtain ⟨given, spoken⟩ := printf_matched sound early matched grants run
  obtain ⟨sent, emptied, overran⟩ := printf_speaks early given run
  rw [unread, Bool.false_or] at overran
  rw [spoken] at sent
  -- the elements as they stand in the memory before the call
  let found : List Turn := (elements format args).map fun element => ⟨element, before.mem⟩
  have printed : found.flatMap Turn.spoken = (elements format args).flatMap (Element.spoken before.mem) :=
    List.flatMap_map ..
  have documented : found.flatMap Turn.text = rendering before.mem format args := List.flatMap_map ..
  have every : (∀ turn ∈ found, turn.Sound) ↔ Supported before.mem format args := List.forall_mem_map
  have line : widened after.console.serial.reverse =
      widened (output before.console) ++ widened (narrowed (found.flatMap Turn.spoken)) := by
    rw [sent, widened_append, printed]
  have sound_iff (closed : (elements format args).any Element.opens = false) :=
    @turns_sound_iff found (List.forall_mem_map.mpr fun element member =>
      Bool.eq_false_iff.mpr (List.any_eq_false.mp closed element member))
  rw [documented, every] at sound_iff
  constructor
  · intro renders
    refine (sound_iff (overran.symm.trans renders.within)).mp ?_
    exact List.append_cancel_left (line.symm.trans renders.sent)
  · intro supported
    have closed : (elements format args).any Element.opens = false :=
      List.any_eq_false.mpr fun element member => Bool.eq_false_iff.mp (supported element member).closed
    exact ⟨by rw [line, (sound_iff closed).mpr supported], emptied, overran.trans closed⟩

/-! A message as documented, and one that loses its sign. -/

instance : DecidablePred granted := fun event => by
  unfold granted
  split <;> infer_instance

def statusArgs : List Arg := [.narrowText (ascii "load"), .num (2 ^ 64 - 5)]

theorem status_rendered :
    widened (printf idleFirmware (wide "%-s: %d") statusArgs bootWorld).2.console.serial.reverse =
      wide "load: -5" := by
  have found : elements (wide "%-s: %d") statusArgs =
      [.narrow (.narrowText (ascii "load")), .verbatim [58], .verbatim [32],
        .conversion (UInt16.ofNat 100) (.num (2 ^ 64 - 5))] := by decide +kernel
  have grants : Calls granted bootWorld (printf idleFirmware (wide "%-s: %d") statusArgs bootWorld).2 :=
    ⟨by decide +kernel, _, (List.append_nil _).symm, by decide +kernel⟩
  have renders : Renders (wide "%-s: %d") statusArgs bootWorld
      (printf idleFirmware (wide "%-s: %d") statusArgs bootWorld).2 := by
    refine (printf_renders_iff idleFirmware_sound rfl ?_ ?_ grants Prod.mk.eta.symm).mpr ?_
    · exact fun _ _ _ => rfl
    · rw [found]
      simp only [List.forall_mem_cons, List.not_mem_nil, false_implies, implies_true, and_true]
      refine ⟨⟨ascii "load", .literal _ (by decide +kernel), by decide +kernel⟩, trivial, trivial, ?_, ?_⟩
      · exact fun string => absurd string (by decide)
      · exact fun _ => ⟨_, rfl, by decide⟩
    · unfold Supported
      rw [found]
      simp only [List.forall_mem_cons, List.not_mem_nil, false_implies, implies_true, and_true]
      have short : (readNarrow bootWorld.mem (.narrowText (ascii "load"))).length ≤ 255 := by decide +kernel
      have text : Carried [58] ∧ Carried [32] := by decide
      exact ⟨⟨short, trivial⟩, ⟨trivial, text.1⟩, ⟨trivial, text.2⟩, trivial,
        fun other => absurd other (by decide)⟩
  exact renders.sent.trans (by decide +kernel)

def EveryFormatRenders : Prop :=
  ∀ (fw : Firmware), AllocatorSound fw → ∀ (format : List UInt16) (args : List Arg) (before after : World),
    before.console.overran = false →
    (∀ element ∈ elements format args, element.allocates = true → before.bsExited = false) →
    (∀ element ∈ elements format args, Matched before element) → Calls granted before after →
    printf fw format args before = ((), after) → Renders format args before after

theorem modifier_dropped : ¬ EveryFormatRenders := by
  intro every
  have found : elements (wide "%-u") [] = [.modifier (UInt16.ofNat 117)] := by decide +kernel
  have grants : Calls granted bootWorld (printf idleFirmware (wide "%-u") [] bootWorld).2 :=
    ⟨by decide +kernel, _, (List.append_nil _).symm, by decide +kernel⟩
  have renders := every idleFirmware idleFirmware_sound (wide "%-u") [] bootWorld _ rfl
    (fun _ _ _ => rfl) (by rw [found]; simp [Matched]) grants Prod.mk.eta.symm
  have sent := renders.sent
  revert sent
  decide +kernel

end Wboot.PrintfRendering
