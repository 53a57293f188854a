import Wboot.Wstdlib

/-! A format taken apart: the scan of printf is a run over the pieces it finds, and
no piece depends on what the ones before it printed. -/

namespace Wboot.PrintfPieces
open StateProgram ByteMemory CString Machine Wstdlib

inductive Piece where
  | verbatim (text : List UInt16)
  | conversion (c : UInt16) (arg : Arg)
  | narrow (arg : Arg)
  | cut

/-- A conversion without an argument left for it takes 0, as the scan does. -/
def pieces : List UInt16 → List Arg → List Piece
  | [], _ => []
  | c :: rest, args =>
      if c ≠ percent then .verbatim [c] :: pieces rest args
      else match rest with
        | [] => [.cut]
        | d :: rest =>
            if takesArgument d then .conversion d (args.headD (.num 0)) :: pieces rest args.tail
            else if d = percent then .verbatim [percent] :: pieces rest args
            else if d = minus then
              match rest with
              | [] => [.cut]
              | e :: rest =>
                  if e = letterS then .narrow (args.headD (.num 0)) :: pieces rest args.tail
                  else .verbatim [percent, e] :: pieces rest args
            else .verbatim [percent, d] :: pieces rest args

def runPiece (narrow : Arg → Boot Unit) : Piece → Boot Unit
  | .verbatim text => console fun old => text.foldl printfWriteChar old
  | .conversion c arg => convert c arg
  | .narrow arg => narrow arg
  | .cut => cutOff

def runPieces (narrow : Arg → Boot Unit) : List Piece → Boot Unit
  | [] => pure ()
  | piece :: rest => do
      runPiece narrow piece
      runPieces narrow rest

theorem printfScan_pieces (narrow : Arg → Boot Unit) (format : List UInt16) (args : List Arg) :
    printfScan narrow format args = runPieces narrow (pieces format args) := by
  -- on the scan itself, which `pieces` follows branch by branch
  induction format, args using printfScan.induct with
  | case1 args => rfl
  | case2 c rest args ordinary ih =>
      rw [printfScan.eq_def, pieces.eq_def]
      simp only [ordinary, ne_eq, not_false_eq_true, ↓reduceIte, ih]
      rfl
  | case3 c args sign =>
      rw [printfScan.eq_def, pieces.eq_def]
      simp only [sign, ↓reduceIte]
      rfl
  | case4 c args sign d rest takes ih =>
      rw [printfScan.eq_def, pieces.eq_def]
      simp only [sign, takes, ↓reduceIte, ih]
      rfl
  | case5 c args sign rest none ih =>
      rw [printfScan.eq_def, pieces.eq_def]
      simp only [sign, none, ↓reduceIte, Bool.false_eq_true, ih]
      rfl
  | case6 c args sign none other =>
      rw [printfScan.eq_def, pieces.eq_def]
      simp only [sign, none, other, ↓reduceIte, Bool.false_eq_true]
      rfl
  | case7 c args sign rest none other ih =>
      rw [printfScan.eq_def, pieces.eq_def]
      simp only [sign, none, other, ↓reduceIte, Bool.false_eq_true, ih]
      rfl
  | case8 c args sign e rest different none other ih =>
      rw [printfScan.eq_def, pieces.eq_def]
      simp only [sign, none, other, different, ↓reduceIte, Bool.false_eq_true, ih]
      rfl
  | case9 c args sign d rest none other unsigned ih =>
      rw [printfScan.eq_def, pieces.eq_def]
      simp only [sign, none, other, unsigned, ↓reduceIte, Bool.false_eq_true, ih]
      rfl

theorem pieces_text {text : List UInt16} (ordinary : ∀ c ∈ text, c ≠ percent) (rest : List UInt16)
    (args : List Arg) :
    pieces (text ++ rest) args = text.map (fun c => .verbatim [c]) ++ pieces rest args := by
  induction text with
  | nil => rfl
  | cons c later ih =>
      obtain ⟨first, others⟩ := List.forall_mem_cons.mp ordinary
      rw [List.cons_append, pieces.eq_def]
      simp only [first, ne_eq, not_false_eq_true, ↓reduceIte, ih others, List.map_cons, List.cons_append]

theorem pieces_conversion {c : UInt16} (takes : takesArgument c = true) (rest : List UInt16) (arg : Arg)
    (args : List Arg) : pieces (percent :: c :: rest) (arg :: args) = .conversion c arg :: pieces rest args := by
  rw [pieces.eq_def]
  simp only [ne_eq, not_true_eq_false, ↓reduceIte, takes, List.headD_cons, List.tail_cons]

/-- A message with one string in it. -/
theorem pieces_string {before after : List UInt16} (first : ∀ c ∈ before, c ≠ percent)
    (second : ∀ c ∈ after, c ≠ percent) (arg : Arg) :
    pieces (before ++ percent :: letterS :: after) [arg] =
      before.map (fun c => .verbatim [c]) ++ .conversion letterS arg :: after.map (fun c => .verbatim [c]) := by
  have tail := pieces_text second [] []
  rw [List.append_nil] at tail
  rw [pieces_text first, pieces_conversion rfl, tail]
  exact congrArg _ (congrArg _ (List.append_nil _))

/-- And with one that has to be widened. -/
theorem pieces_narrow {before after : List UInt16} (first : ∀ c ∈ before, c ≠ percent)
    (second : ∀ c ∈ after, c ≠ percent) (arg : Arg) :
    pieces (before ++ percent :: minus :: letterS :: after) [arg] =
      before.map (fun c => .verbatim [c]) ++ .narrow arg :: after.map (fun c => .verbatim [c]) := by
  have tail := pieces_text second [] []
  rw [List.append_nil] at tail
  rw [pieces_text first, pieces.eq_def]
  have unsigned : takesArgument minus = false := rfl
  have other : minus ≠ percent := by decide
  simp only [ne_eq, not_true_eq_false, ↓reduceIte, unsigned, other, Bool.false_eq_true, List.headD_cons,
    List.tail_cons, tail]
  exact congrArg _ (congrArg _ (List.append_nil _))

/-- A piece without its argument. -/
def Piece.bare : Piece → Piece
  | .conversion c _ => .conversion c (.num 0)
  | .narrow _ => .narrow (.num 0)
  | piece => piece

/-- The arguments change nothing about where the pieces are. -/
theorem pieces_bare (format : List UInt16) (args : List Arg) :
    (pieces format args).map Piece.bare = pieces format [] := by
  -- on the scan: no branch looks at the arguments
  induction format, args using pieces.induct with
  | case1 args => rfl
  | case2 c rest args ordinary ih =>
      rw [pieces.eq_def, pieces.eq_def (c :: rest) []]
      simp only [ordinary, ne_eq, not_false_eq_true, ↓reduceIte, List.map_cons, ih]
      rfl
  | case3 c args sign =>
      rw [pieces.eq_def, pieces.eq_def [c] []]
      simp only [sign, ↓reduceIte]
      rfl
  | case4 c args sign d rest takes ih =>
      rw [pieces.eq_def, pieces.eq_def (c :: d :: rest) []]
      simp only [sign, takes, ↓reduceIte, List.map_cons, ih]
      rfl
  | case5 c args sign rest none ih =>
      rw [pieces.eq_def, pieces.eq_def (c :: percent :: rest) []]
      simp only [sign, none, ↓reduceIte, Bool.false_eq_true, List.map_cons, ih]
      rfl
  | case6 c args sign none other =>
      rw [pieces.eq_def, pieces.eq_def [c, minus] []]
      simp only [sign, none, other, ↓reduceIte, Bool.false_eq_true]
      rfl
  | case7 c args sign rest none other ih =>
      rw [pieces.eq_def, pieces.eq_def (c :: minus :: letterS :: rest) []]
      simp only [sign, none, other, ↓reduceIte, Bool.false_eq_true, List.map_cons, ih]
      rfl
  | case8 c args sign e rest different none other ih =>
      rw [pieces.eq_def, pieces.eq_def (c :: minus :: e :: rest) []]
      simp only [sign, none, other, different, ↓reduceIte, Bool.false_eq_true, List.map_cons, ih]
      rfl
  | case9 c args sign d rest none other unsigned ih =>
      rw [pieces.eq_def, pieces.eq_def (c :: d :: rest) []]
      simp only [sign, none, other, unsigned, ↓reduceIte, Bool.false_eq_true, List.map_cons, ih]
      rfl

def Piece.argument : Piece → Option Arg
  | .conversion _ arg | .narrow arg => some arg
  | .verbatim _ | .cut => none

/-- What a piece prints was passed, unless the arguments have run out. -/
theorem pieces_argument {format : List UInt16} {args : List Arg} {piece : Piece} {arg : Arg}
    (member : piece ∈ pieces format args) (printed : piece.argument = some arg) : arg ∈ args ∨ arg = .num 0 := by
  have head (args : List Arg) (first : args.headD (.num 0) = arg) : arg ∈ args ∨ arg = .num 0 := by
    cases args with
    | nil => exact Or.inr first.symm
    | cons given rest => exact Or.inl (first ▸ List.mem_cons_self)
  have tail (args : List Arg) (later : arg ∈ args.tail ∨ arg = .num 0) : arg ∈ args ∨ arg = .num 0 :=
    later.imp_left List.mem_of_mem_tail
  -- on the scan: case4 and case7 are the two that take an argument
  induction format, args using pieces.induct with
  | case1 args => exact absurd member List.not_mem_nil
  | case2 c rest args ordinary ih =>
      rw [pieces.eq_def] at member
      simp only [ordinary, ne_eq, not_false_eq_true, ↓reduceIte] at member
      rcases List.mem_cons.mp member with rfl | later
      · cases printed
      · exact ih later
  | case3 c args sign =>
      rw [pieces.eq_def] at member
      simp only [sign, ↓reduceIte] at member
      rcases List.mem_singleton.mp member with rfl
      cases printed
  | case4 c args sign d rest takes ih =>
      rw [pieces.eq_def] at member
      simp only [sign, takes, ↓reduceIte] at member
      rcases List.mem_cons.mp member with rfl | later
      · exact head args (Option.some.inj printed)
      · exact tail args (ih later)
  | case5 c args sign rest none ih =>
      rw [pieces.eq_def] at member
      simp only [sign, none, ↓reduceIte, Bool.false_eq_true] at member
      rcases List.mem_cons.mp member with rfl | later
      · cases printed
      · exact ih later
  | case6 c args sign none other =>
      rw [pieces.eq_def] at member
      simp only [sign, none, other, ↓reduceIte, Bool.false_eq_true] at member
      rcases List.mem_singleton.mp member with rfl
      cases printed
  | case7 c args sign rest none other ih =>
      rw [pieces.eq_def] at member
      simp only [sign, none, other, ↓reduceIte, Bool.false_eq_true] at member
      rcases List.mem_cons.mp member with rfl | later
      · exact head args (Option.some.inj printed)
      · exact tail args (ih later)
  | case8 c args sign e rest different none other ih =>
      rw [pieces.eq_def] at member
      simp only [sign, none, other, different, ↓reduceIte, Bool.false_eq_true] at member
      rcases List.mem_cons.mp member with rfl | later
      · cases printed
      · exact ih later
  | case9 c args sign d rest none other unsigned ih =>
      rw [pieces.eq_def] at member
      simp only [sign, none, other, unsigned, ↓reduceIte, Bool.false_eq_true] at member
      rcases List.mem_cons.mp member with rfl | later
      · cases printed
      · exact ih later

theorem pieces_pointer {format : List UInt16} {args : List Arg} {piece : Piece} {arg : Arg} {pointer : Nat}
    (member : piece ∈ pieces format args) (printed : piece.argument = some arg)
    (points : arg = .widePointer pointer ∨ arg = .narrowPointer pointer) :
    .widePointer pointer ∈ args ∨ .narrowPointer pointer ∈ args := by
  rcases pieces_argument member printed with given | rfl
  · rcases points with rfl | rfl
    · exact Or.inl given
    · exact Or.inr given
  · rcases points with same | same <;> cases same

/-- A message without conversions. -/
def onlyText (format : List UInt16) : Bool := (pieces format []).all (· matches .verbatim _)

/-- What writing characters one at a time does, a message without conversions does. -/
theorem bug_relates {step : World → World → Prop} [IsPreorder World step]
    (writes : ∀ text : List UInt16, Relates step (console fun old => text.foldl printfWriteChar old))
    (flushes : Relates step (console printfFlush)) {format : List UInt16} (text : onlyText format = true) :
    Relates step (bug format) := by
  unfold bug printfWith
  refine Relates.bind ?_ fun _ => flushes
  rw [printfScan_pieces]
  unfold onlyText at text
  generalize pieces format [] = found at text
  induction found with
  | nil => exact .pure ()
  | cons piece rest ih =>
      simp only [List.all_cons, Bool.and_eq_true] at text
      cases piece with
      | verbatim characters => exact (writes characters).bind fun _ => ih text.2
      | conversion | narrow | cut => simp at text

end Wboot.PrintfPieces
