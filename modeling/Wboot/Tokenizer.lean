import Wboot.Tokens
import Wboot.Wstdlib

/-! `strtok_r`, one call and a whole run of calls. Between two calls the caller may write
what it likes into the words it was given. -/

namespace Wboot.Tokenizer
open ByteMemory CString Tokens Wstdlib

section Scans
variable {delim : List UInt8} {memory : Memory} {cursor : Nat}

/-- Either loop also stops at the terminator, which is no character of the text. -/
theorem scan_separators {skipped right : List UInt8}
    (bounded : (skipped ++ right).length < addressSpace)
    (here : StringAt memory cursor (skipped ++ right))
    (separators : ∀ c ∈ skipped, strchr delim c = true)
    (stops : right.headD 0 = 0 ∨ strchr delim (right.headD 0) = false) :
    scan (fun c => c ≠ 0 && strchr delim c) memory cursor = cursor + skipped.length := by
  rw [List.length_append] at bounded
  refine scan_string (by omega) here (fun c member => ?_) ?_
  · have nonzero := here.nonzero c (List.mem_append_left right member)
    simp [separators c member, nonzero]
  · rcases stops with ended | other
    · simp only [ended, ne_eq, not_true_eq_false, decide_false, Bool.false_and]
    · simp only [other, Bool.and_false]

theorem scan_word {word right : List UInt8} (bounded : (word ++ right).length < addressSpace)
    (here : StringAt memory cursor (word ++ right)) (body : ∀ c ∈ word, strchr delim c = false)
    (stops : right.headD 0 = 0 ∨ strchr delim (right.headD 0) = true) :
    scan (fun c => c ≠ 0 && !strchr delim c) memory cursor = cursor + word.length := by
  rw [List.length_append] at bounded
  refine scan_string (by omega) here (fun c member => ?_) ?_
  · have nonzero := here.nonzero c (List.mem_append_left right member)
    simp [body c member, nonzero]
  · rcases stops with ended | other
    · simp only [ended, ne_eq, not_true_eq_false, decide_false, Bool.false_and]
    · simp only [other, Bool.not_true, Bool.and_false]

/-! The three ways a call ends, on the text that stands at the cursor. -/

variable {str saveptr : Nat} {text : List UInt8}

theorem strtokR_null (resume : (if str ≠ 0 then str else saveptr) = 0) :
    strtokR memory str delim saveptr = ⟨0, 0, memory⟩ := by
  unfold strtokR
  dsimp only
  rw [resume, if_pos rfl]

theorem strtokR_none (resume : (if str ≠ 0 then str else saveptr) = cursor) (present : cursor ≠ 0)
    (bounded : text.length < addressSpace) (here : StringAt memory cursor text)
    (separators : ∀ c ∈ text, strchr delim c = true) : strtokR memory str delim saveptr = ⟨0, 0, memory⟩ := by
  rw [← List.append_nil text] at here bounded
  unfold strtokR
  dsimp only
  rw [resume, if_neg present, scan_separators bounded here separators (Or.inl rfl),
    stringAt_head (stringAt_append.mp here).2.2]
  rfl

section Word
variable {skipped word : List UInt8} (resume : (if str ≠ 0 then str else saveptr) = cursor)
  (present : cursor ≠ 0) (separators : ∀ c ∈ skipped, strchr delim c = true) (some : word ≠ [])
  (body : ∀ c ∈ word, strchr delim c = false)
include resume present separators some body

/-- A call that finds a word is decided by what stands behind the word. -/
theorem strtokR_word {right : List UInt8} (bounded : (skipped ++ (word ++ right)).length < addressSpace)
    (here : StringAt memory cursor (skipped ++ (word ++ right)))
    (stops : right.headD 0 = 0 ∨ strchr delim (right.headD 0) = true) :
    strtokR memory str delim saveptr =
      if right.headD 0 ≠ 0 then
        ⟨cursor + skipped.length, cursor + skipped.length + word.length + 1,
          poke memory (cursor + skipped.length + word.length) 0⟩
      else ⟨cursor + skipped.length, 0, memory⟩ := by
  obtain ⟨first, later, rfl⟩ := List.exists_cons_of_ne_nil some
  have there := (stringAt_append.mp here).2.2
  have short : (first :: later ++ right).length < addressSpace := by
    rw [List.length_append] at bounded
    omega
  have starts : memory (cursor + skipped.length) ≠ 0 := by
    rw [stringAt_head there]
    exact there.nonzero first (by simp)
  unfold strtokR
  dsimp only
  rw [resume, if_neg present, scan_separators bounded here separators (Or.inr (body first List.mem_cons_self)),
    if_neg starts, scan_word short there body stops, stringAt_head (stringAt_append.mp there).2.2]

theorem strtokR_last (bounded : (skipped ++ word).length < addressSpace)
    (here : StringAt memory cursor (skipped ++ word)) :
    strtokR memory str delim saveptr = ⟨cursor + skipped.length, 0, memory⟩ := by
  rw [← List.append_nil word] at bounded here
  exact strtokR_word resume present separators some body bounded here (Or.inl rfl)

theorem strtokR_more {separator : UInt8} {rest : List UInt8}
    (bounded : (skipped ++ (word ++ separator :: rest)).length < addressSpace)
    (here : StringAt memory cursor (skipped ++ (word ++ separator :: rest)))
    (ends : strchr delim separator = true) :
    strtokR memory str delim saveptr =
      ⟨cursor + skipped.length, cursor + skipped.length + word.length + 1,
        poke memory (cursor + skipped.length + word.length) 0⟩ := by
  have nonzero : separator ≠ 0 := here.nonzero separator (by simp)
  rw [strtokR_word resume present separators some body bounded here (Or.inr ends)]
  exact if_pos nonzero

end Word

end Scans

/-! ### A run of calls -/

/-- One call, with the memory it found. -/
structure Turn where
  before : Memory
  token : Token

/-- A byte of the returned word, its terminator among them. -/
def Turn.covers (turn : Turn) (x : Nat) : Prop :=
  turn.token.start ≠ 0 ∧ turn.token.start ≤ x ∧ x ≤ turn.token.start + strlen8 turn.token.mem turn.token.start

/-- The calls so far, the last one first. The caller changes the words it has, and calls again. -/
inductive Run (delim : List UInt8) (str : Nat) (memory : Memory) : List Turn → Prop
  | first (saveptr : Nat) : Run delim str memory [⟨memory, strtokR memory str delim saveptr⟩]
  | again (turn : Turn) (earlier : List Turn) (edited : Memory) (run : Run delim str memory (turn :: earlier))
      (edits : ∀ x, (∀ past ∈ turn :: earlier, ¬ past.covers x) → edited x = turn.token.mem x) :
      Run delim str memory (⟨edited, strtokR edited 0 delim turn.token.saveptr⟩ :: turn :: earlier)

/-- The word at this place of the text was found, and the delimiter behind it, if there
is one, is the only byte written. -/
structure Found (delim : List UInt8) (str : Nat) (text word left right : List UInt8) (turn : Turn) : Prop where
  split : text = left ++ (word ++ right)
  start : turn.token.start = str + left.length
  stands : StringAt turn.token.mem turn.token.start word
  ends : match right with
    | [] => turn.token.saveptr = 0 ∧ turn.token.mem = turn.before
    | separator :: _ =>
        strchr delim separator = true ∧ turn.before (turn.token.start + word.length) = separator ∧
          turn.token.saveptr = turn.token.start + word.length + 1 ∧
            turn.token.mem = poke turn.before (turn.token.start + word.length) 0

/-- What the call of this number yields: its word, or NULL when there are no more. -/
def Yields (delim : List UInt8) (str : Nat) (text : List UInt8) (count : Nat) (turn : Turn) : Prop :=
  match (tokens (strchr delim) text)[count]? with
  | none => turn.token = ⟨0, 0, turn.before⟩
  | some word => ∃ left right, tokens (strchr delim) left = (tokens (strchr delim) text).take count ∧
      tokens (strchr delim) right = (tokens (strchr delim) text).drop (count + 1) ∧
        Found delim str text word left right turn

/-- Before the call of this number: all words are out, or the rest of the text is
untouched behind a boundary. -/
inductive Progress (delim : List UInt8) (str : Nat) (text : List UInt8) (count : Nat) (memory : Memory)
    (cursor : Nat) : Prop
  | ended (null : cursor = 0) (all : (tokens (strchr delim) text).length ≤ count)
  | resting (done rest : List UInt8) (present : cursor ≠ 0) (split : text = done ++ rest)
      (boundary : Boundary (strchr delim) done) (counted : (tokens (strchr delim) done).length = count)
      (place : cursor = str + done.length) (stands : StringAt memory cursor rest)

section Progresses
variable {delim : List UInt8} {str cursor count : Nat} {text : List UInt8} {memory : Memory}

theorem Progress.edited {edited : Memory} (progress : Progress delim str text count memory cursor)
    (same : cursor ≠ 0 → ∀ x, cursor ≤ x → edited x = memory x) :
    Progress delim str text count edited cursor := by
  cases progress with
  | ended null all => exact .ended null all
  | resting done rest present split boundary counted place stands =>
      have later := (stringAt_congr fun x lower _ => same present x lower).mpr stands
      exact .resting done rest present split boundary counted place later

theorem Progress.inside (progress : Progress delim str text count memory cursor) :
    cursor = 0 ∨ (str ≤ cursor ∧ cursor ≤ str + text.length) := by
  cases progress with
  | ended null all => exact Or.inl null
  | resting done rest present split boundary counted place stands =>
      right
      rw [split, List.length_append]
      omega

/-- One call. -/
structure Steps (delim : List UInt8) (str : Nat) (text : List UInt8) (count cursor : Nat) (turn : Turn) : Prop where
  yields : Yields delim str text count turn
  progress : Progress delim str text (count + 1) turn.token.mem turn.token.saveptr
  behind : turn.token.saveptr ≠ 0 → cursor ≠ 0 ∧ cursor ≤ turn.token.saveptr ∧
    ∀ x, turn.covers x → x < turn.token.saveptr

theorem yields_over {turn : Turn} (all : (tokens (strchr delim) text).length ≤ count)
    (nothing : turn.token = ⟨0, 0, turn.before⟩) : Yields delim str text count turn := by
  unfold Yields
  rw [List.getElem?_eq_none all]
  exact nothing

theorem yields_found {turn : Turn} {word left right : List UInt8}
    (words : tokens (strchr delim) text =
      tokens (strchr delim) left ++ word :: tokens (strchr delim) right)
    (counted : (tokens (strchr delim) left).length = count) (found : Found delim str text word left right turn) :
    Yields delim str text count turn := by
  unfold Yields
  rw [words, ← counted, List.getElem?_append_right (Nat.le_refl _), Nat.sub_self, List.getElem?_cons_zero]
  refine ⟨left, right, List.take_left.symm, ?_, found⟩
  rw [List.drop_append, List.drop_of_length_le (Nat.le_succ _), Nat.add_sub_cancel_left]
  rfl

section Resting
variable {argument saveptr : Nat} {done skipped word : List UInt8}
  (resume : (if argument ≠ 0 then argument else saveptr) = cursor) (present : cursor ≠ 0)
  (boundary : Boundary (strchr delim) done) (counted : (tokens (strchr delim) done).length = count)
  (place : cursor = str + done.length) (separators : ∀ c ∈ skipped, strchr delim c = true) (some : word ≠ [])
  (body : ∀ c ∈ word, strchr delim c = false)
include resume present boundary counted place separators some body

theorem strtokR_steps_last (bounded : (skipped ++ word).length < addressSpace)
    (stands : StringAt memory cursor (skipped ++ word)) :
    Steps delim str (done ++ (skipped ++ word)) count cursor ⟨memory, strtokR memory argument delim saveptr⟩ := by
  have words : tokens (strchr delim) (done ++ (skipped ++ word)) =
      tokens (strchr delim) (done ++ skipped) ++ word :: tokens (strchr delim) [] := by
    rw [boundary, tokens_skip separators, tokens_word some body, boundary.skip separators, tokens_nil]
  have before : (tokens (strchr delim) (done ++ skipped)).length = count := by
    rw [boundary.skip separators, counted]
  rw [strtokR_last resume present separators some body bounded stands]
  refine ⟨yields_found words before ?_, .ended rfl ?_, fun resumed => absurd rfl resumed⟩
  · exact
      { split := by rw [List.append_nil, List.append_assoc]
        start := by
          dsimp only
          rw [List.length_append]
          omega
        stands := (stringAt_append.mp stands).2.2
        ends := ⟨rfl, rfl⟩ }
  · rw [words, tokens_nil, List.length_append, before]
    exact Nat.le_refl _

theorem strtokR_steps_more {separator : UInt8} {later : List UInt8}
    (bounded : (skipped ++ (word ++ separator :: later)).length < addressSpace)
    (stands : StringAt memory cursor (skipped ++ (word ++ separator :: later)))
    (ends : strchr delim separator = true) :
    Steps delim str (done ++ (skipped ++ (word ++ separator :: later))) count cursor
      ⟨memory, strtokR memory argument delim saveptr⟩ := by
  have last := tokens_skip (List.forall_mem_singleton.mpr ends) later
  rw [List.singleton_append] at last
  -- the words already returned, this one, and those behind its separator
  have words : tokens (strchr delim) (done ++ (skipped ++ (word ++ separator :: later))) =
      tokens (strchr delim) (done ++ skipped) ++ word :: tokens (strchr delim) (separator :: later) := by
    rw [boundary.cut separators some body ends, boundary.skip separators, last, List.append_assoc,
      List.singleton_append]
  have before : (tokens (strchr delim) (done ++ skipped)).length = count := by
    rw [boundary.skip separators, counted]
  obtain ⟨next, advanced⟩ := boundary.advance separators some body ends
  have there := (stringAt_append.mp stands).2.2
  obtain ⟨here, tail⟩ := stringAt_cut there
  have size : strlen8 (poke memory (cursor + skipped.length + word.length) 0) (cursor + skipped.length) =
      word.length := by
    rw [List.length_append, List.length_append] at bounded
    rw [strlen8, cstring_at (by omega) here]
  rw [strtokR_more resume present separators some body bounded stands ends]
  refine ⟨yields_found words before ?_, ?_, fun _ => ⟨present, by dsimp only; omega, fun x covered => ?_⟩⟩
  · exact
      { split := by rw [List.append_assoc]
        start := by
          dsimp only
          rw [List.length_append]
          omega
        stands := here
        ends := ⟨ends, stringAt_head (stringAt_append.mp there).2.2, rfl, rfl⟩ }
  -- the saved pointer rests behind the separator, on text that the call left alone
  · refine .resting (done ++ (skipped ++ (word ++ [separator]))) later ?_ ?_ advanced ?_ ?_ tail
    · dsimp only
      omega
    · simp only [List.append_assoc, List.singleton_append]
    · rw [next, List.length_append, counted]
      rfl
    · simp only [List.length_append, List.length_singleton]
      omega
  · have upper := covered.2.2
    dsimp only at upper ⊢
    omega

end Resting

/-- The call of this number, from what the calls before it have left. -/
theorem strtokR_steps (argument saveptr : Nat) (bounded : text.length < addressSpace)
    (resume : (if argument ≠ 0 then argument else saveptr) = cursor)
    (progress : Progress delim str text count memory cursor) :
    Steps delim str text count cursor ⟨memory, strtokR memory argument delim saveptr⟩ := by
  cases progress with
  | ended null all =>
      rw [strtokR_null (resume.trans null)]
      exact ⟨yields_over all rfl, .ended rfl (Nat.le_succ_of_le all), fun resumed => absurd rfl resumed⟩
  | resting done rest present split boundary counted place stands =>
      subst split
      have short : rest.length < addressSpace := by
        rw [List.length_append] at bounded
        omega
      rcases cut (strchr delim) rest with
        ⟨separators⟩ | ⟨skipped, word, parts, separators, some, body⟩ |
        ⟨skipped, word, separator, later, parts, separators, some, body, ends⟩
      · have spent : (tokens (strchr delim) (done ++ rest)).length ≤ count := by
          rw [boundary.skip separators, counted]
        rw [strtokR_none resume present short stands separators]
        exact ⟨yields_over spent rfl, .ended rfl (Nat.le_succ_of_le spent), fun resumed => absurd rfl resumed⟩
      · subst parts
        exact strtokR_steps_last resume present boundary counted place separators some body short stands
      · subst parts
        exact strtokR_steps_more resume present boundary counted place separators some body short stands ends

end Progresses

section Runs
variable {delim : List UInt8} {str : Nat} {text : List UInt8} {memory : Memory}

/-- After a run: every call has yielded its word, and the words lie before the rest. -/
structure Ran (delim : List UInt8) (str : Nat) (text : List UInt8) (turn : Turn) (earlier : List Turn) : Prop where
  yielded : ∀ i past, (turn :: earlier).reverse[i]? = some past → Yields delim str text i past ∧
    (past.token.saveptr = 0 ∨ (str ≤ past.token.saveptr ∧ past.token.saveptr ≤ str + text.length))
  progress : Progress delim str text (earlier.length + 1) turn.token.mem turn.token.saveptr
  behind : turn.token.saveptr ≠ 0 → ∀ past ∈ turn :: earlier, ∀ x, past.covers x → x < turn.token.saveptr

theorem Steps.ran {turn : Turn} {earlier : List Turn} {cursor : Nat}
    (steps : Steps delim str text earlier.length cursor turn)
    (yielded : ∀ i past, earlier.reverse[i]? = some past → Yields delim str text i past ∧
      (past.token.saveptr = 0 ∨ (str ≤ past.token.saveptr ∧ past.token.saveptr ≤ str + text.length)))
    (behind : cursor ≠ 0 → ∀ past ∈ earlier, ∀ x, past.covers x → x < cursor) :
    Ran delim str text turn earlier where
  yielded := by
    intro i past nth
    rw [List.reverse_cons, List.getElem?_append] at nth
    split at nth
    · exact yielded i past nth
    · rename_i late
      rw [List.length_reverse] at nth late
      obtain ⟨last, rfl⟩ : i - earlier.length = 0 ∧ turn = past := by
        simpa [List.getElem?_singleton] using nth
      have here : i = earlier.length := by omega
      exact here ▸ ⟨steps.yields, steps.progress.inside⟩
  progress := steps.progress
  behind := by
    intro resumed past member x covered
    obtain ⟨present, grows, here⟩ := steps.behind resumed
    rcases List.mem_cons.mp member with rfl | older
    · exact here x covered
    · exact lt_of_lt_of_le (behind present past older x covered) grows

theorem run_ran (present : str ≠ 0) (bounded : text.length < addressSpace) (here : StringAt memory str text)
    {turns : List Turn} (run : Run delim str memory turns) :
    ∃ turn earlier, turns = turn :: earlier ∧ Ran delim str text turn earlier := by
  induction run with
  | first saveptr =>
      have start : Progress delim str text 0 memory str :=
        .resting [] text present rfl boundary_nil rfl rfl here
      have steps := strtokR_steps str saveptr bounded (if_pos present) start
      exact ⟨_, [], rfl, steps.ran (by simp) (by simp)⟩
  | again turn earlier edited run edits ih =>
      obtain ⟨_, _, same, ran⟩ := ih
      cases same
      have waits : Progress delim str text (earlier.length + 1) edited turn.token.saveptr :=
        ran.progress.edited fun resumed x lower =>
          edits x fun past member covered => absurd (ran.behind resumed past member x covered) (by omega)
      have steps := strtokR_steps 0 turn.token.saveptr bounded (if_neg (not_not.mpr rfl)) waits
      exact ⟨_, turn :: earlier, rfl, steps.ran ran.yielded ran.behind⟩

/-- Whatever the caller does to the words it has, the calls yield the words of the text
in order, and then NULL. -/
theorem strtok_r_splits (present : str ≠ 0) (bounded : text.length < addressSpace)
    (here : StringAt memory str text) {turns : List Turn} (run : Run delim str memory turns) (i : Nat)
    (turn : Turn) (nth : turns.reverse[i]? = some turn) :
    Yields delim str text i turn ∧
      (turn.token.saveptr = 0 ∨ (str ≤ turn.token.saveptr ∧ turn.token.saveptr ≤ str + text.length)) := by
  obtain ⟨last, earlier, rfl, ran⟩ := run_ran present bounded here run
  exact ran.yielded i turn nth

/-! A list whose first word is overwritten before the second call. -/

def listing : Memory := storeBytes (fun _ => 0) 0x1000 (ascii ",a,,b")

def firstTurn : Turn := ⟨listing, strtokR listing 0x1000 (ascii ",") 0⟩

def overwritten : Memory := poke firstTurn.token.mem 0x1001 0

def secondTurn : Turn := ⟨overwritten, strtokR overwritten 0 (ascii ",") firstTurn.token.saveptr⟩

theorem overwritten_word_passed :
    tokens (strchr (ascii ",")) (ascii ",a,,b") = [ascii "a", ascii "b"] ∧
      Yields (ascii ",") 0x1000 (ascii ",a,,b") 1 secondTurn := by
  have start : firstTurn.token.start = 0x1001 := by decide +kernel
  have run : Run (ascii ",") 0x1000 listing [secondTurn, firstTurn] := by
    refine .again firstTurn [] overwritten (.first 0) fun x apart => poke_other _ _ _ _ ?_
    rintro rfl
    exact apart firstTurn List.mem_cons_self ⟨by omega, by omega, by omega⟩
  have here : StringAt listing 0x1000 (ascii ",a,,b") :=
    (stringAt_iff _ _ _).mpr ⟨textAt_storeBytes _ _ _, by decide +kernel, by decide +kernel⟩
  exact ⟨by decide +kernel, (strtok_r_splits (by decide) (by decide +kernel) here run 1 secondTurn rfl).1⟩

end Runs

end Wboot.Tokenizer
