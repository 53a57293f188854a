import Wboot.PrintfOutput

/-! A format, element by element: what the documentation of wstdlib makes of each, what
the code prints for it, and which of them the line carries. It takes the low byte of a
character, so it gives back only those that are no larger. -/

namespace Wboot.PrintfElements
open StateProgram ByteMemory CString Numerals Machine Wstdlib PrintfPieces Effects PrintfOutput

/-! ### The documentation -/

def digits (base num : Nat) : List UInt16 := (Nat.toDigits base num).map fun c => UInt16.ofNat c.toNat

/-- An INTN, from its bits. -/
def signedText (num : Nat) : List UInt16 :=
  if num < 2 ^ 63 then digits 10 num else minus :: digits 10 (2 ^ 64 - num)

def pointerText (num : Nat) : List UInt16 :=
  wide "0x" ++ ((Nat.toDigits 16 num).leftpad 16 '0').map fun c => UInt16.ofNat c.toNat

def conversionText (memory : Memory) (c : UInt16) (arg : Arg) : List UInt16 :=
  if c = letterS then readText memory arg
  else if c = UInt16.ofNat 117 then digits 10 arg.value
  else if c = UInt16.ofNat 100 then signedText arg.value
  else if c = UInt16.ofNat 120 then digits 16 arg.value
  else if c = UInt16.ofNat 112 then pointerText arg.value
  else [UInt16.ofNat arg.value]

deriving instance DecidableEq for Arg

/-- A part of a format: literal characters, a conversion, `%-s`, another `%-`, or a
conversion that the end of the format leaves open. -/
inductive Element where
  | verbatim (text : List UInt16)
  | conversion (c : UInt16) (arg : Arg)
  | narrow (arg : Arg)
  | modifier (c : UInt16)
  | opened (text : List UInt16)
  deriving DecidableEq

def elements : List UInt16 → List Arg → List Element
  | [], _ => []
  | c :: rest, args =>
      if c ≠ percent then .verbatim [c] :: elements rest args
      else match rest with
        | [] => [.opened [percent]]
        | d :: rest =>
            if takesArgument d then .conversion d (args.headD (.num 0)) :: elements rest args.tail
            else if d = percent then .verbatim [percent] :: elements rest args
            else if d = minus then
              match rest with
              | [] => [.opened [percent, minus]]
              | e :: rest =>
                  if e = letterS then .narrow (args.headD (.num 0)) :: elements rest args.tail
                  else .modifier e :: elements rest args
            else .verbatim [percent, d] :: elements rest args

/-- What is not supported stands for itself. -/
def Element.text (memory : Memory) : Element → List UInt16
  | .verbatim text => text
  | .conversion c arg => conversionText memory c arg
  | .narrow arg => (readNarrow memory arg).map UInt8.toUInt16
  | .modifier c => [percent, minus, c]
  | .opened text => text

def rendering (memory : Memory) (format : List UInt16) (args : List Arg) : List UInt16 :=
  (elements format args).flatMap (Element.text memory)

/-! ### The code -/

def Element.piece : Element → Piece
  | .verbatim text => .verbatim text
  | .conversion c arg => .conversion c arg
  | .narrow arg => .narrow arg
  | .modifier c => .verbatim [percent, c]
  | .opened _ => .cut

theorem pieces_elements (format : List UInt16) (args : List Arg) :
    pieces format args = (elements format args).map Element.piece := by
  -- on the scan, which `elements` follows branch by branch
  induction format, args using pieces.induct with
  | case1 args => rfl
  | case2 c rest args ordinary ih =>
      rw [pieces.eq_def, elements.eq_def]
      simp only [ordinary, ne_eq, not_false_eq_true, ↓reduceIte, List.map_cons, ih]
      rfl
  | case3 c args sign =>
      rw [pieces.eq_def, elements.eq_def]
      simp only [sign, ↓reduceIte]
      rfl
  | case4 c args sign d rest takes ih =>
      rw [pieces.eq_def, elements.eq_def]
      simp only [sign, takes, ↓reduceIte, List.map_cons, ih]
      rfl
  | case5 c args sign rest none ih =>
      rw [pieces.eq_def, elements.eq_def]
      simp only [sign, none, ↓reduceIte, Bool.false_eq_true, List.map_cons, ih]
      rfl
  | case6 c args sign none other =>
      rw [pieces.eq_def, elements.eq_def]
      simp only [sign, none, other, ↓reduceIte, Bool.false_eq_true]
      rfl
  | case7 c args sign rest none other ih =>
      rw [pieces.eq_def, elements.eq_def]
      simp only [sign, none, other, ↓reduceIte, Bool.false_eq_true, List.map_cons, ih]
      rfl
  | case8 c args sign e rest different none other ih =>
      rw [pieces.eq_def, elements.eq_def]
      simp only [sign, none, other, different, ↓reduceIte, Bool.false_eq_true, List.map_cons, ih]
      rfl
  | case9 c args sign d rest none other unsigned ih =>
      rw [pieces.eq_def, elements.eq_def]
      simp only [sign, none, other, unsigned, ↓reduceIte, Bool.false_eq_true, List.map_cons, ih]
      rfl

/-- What the code prints for an element. -/
def Element.spoken (memory : Memory) : Element → List UInt16
  | .narrow arg => ((readNarrow memory arg).take 255).map UInt8.toUInt16
  | .modifier c => [percent, c]
  | .opened _ => [percent, 0]
  | element => element.text memory

/-- Nothing of it is dropped. -/
def Element.whole (memory : Memory) : Element → Prop
  | .narrow arg => (readNarrow memory arg).length ≤ 255
  | .modifier _ | .opened _ => False
  | _ => True

theorem Element.spoken_whole {memory : Memory} {element : Element} (whole : element.whole memory) :
    element.spoken memory = element.text memory := by
  cases element with
  | narrow arg => rw [spoken, text, List.take_of_length_le whole]
  | modifier | opened => exact absurd whole id
  | verbatim | conversion => rfl

def Element.opens : Element → Bool
  | .opened _ => true
  | _ => false

/-- Whether a buffer is needed. -/
def Element.allocates : Element → Bool
  | .narrow _ => true
  | _ => false

/-- A 64-bit number, and a narrow string without a NUL in it. -/
def Element.given (memory : Memory) : Element → Prop
  | .conversion _ arg => arg.value < 2 ^ 64
  | .narrow arg => ∀ c ∈ readNarrow memory arg, c ≠ 0
  | _ => True

/-! ### The line -/

/-- The bytes that were sent, as characters. -/
def widened (line : List UInt8) : List UInt16 := line.map UInt8.toUInt16

/-- Every character is a byte. -/
def Carried (text : List UInt16) : Prop := ∀ c ∈ text, c.toNat < 256

instance : DecidablePred Carried := fun text => inferInstanceAs (Decidable (∀ c ∈ text, _))

theorem widened_byte (c : UInt16) : c.toUInt8.toUInt16 = c ↔ c.toNat < 256 := by
  rw [← UInt16.toNat_inj, UInt8.toNat_toUInt16, UInt16.toNat_toUInt8]
  omega

theorem widened_append (left right : List UInt8) : widened (left ++ right) = widened left ++ widened right :=
  List.map_append

theorem widened_narrowed (text : List UInt16) : widened (narrowed text) = text ↔ Carried text := by
  have same := @List.map_inj_left _ _ text (UInt8.toUInt16 ∘ UInt16.toUInt8) id
  rw [List.map_id, ← List.map_map] at same
  exact same.trans (forall₂_congr fun c _ => widened_byte c)

theorem carried_widened (line : List UInt8) : Carried (widened line) := by
  intro c member
  obtain ⟨byte, -, rfl⟩ := List.mem_map.mp member
  rw [UInt8.toNat_toUInt16]
  exact byte.toNat_lt

theorem carried_append {left right : List UInt16} : Carried (left ++ right) ↔ Carried left ∧ Carried right :=
  List.forall_mem_append

/-- The conversions that write digits. -/
def numeric (c : UInt16) : Bool := [117, 100, 120, 112].contains c.toNat

/-- The line carries it. -/
def Element.carried (memory : Memory) : Element → Prop
  | .verbatim text => Carried text
  | .conversion c arg => numeric c = false → Carried (conversionText memory c arg)
  | _ => True

/-- Printed as documented. -/
structure Element.Sound (memory : Memory) (element : Element) : Prop where
  whole : element.whole memory
  carried : element.carried memory

theorem Element.Sound.closed {memory : Memory} {element : Element} (sound : element.Sound memory) :
    element.opens = false := by
  cases element with
  | opened text => exact absurd sound.whole id
  | _ => rfl

/-! ### Numbers -/

theorem digitChar_usual {digit : Nat} (small : digit < 16) :
    (digitChar digit).toUInt8 = (UInt16.ofNat (Nat.digitChar digit).toNat).toUInt8 := by
  revert digit
  decide

theorem digitChar_carried {digit : Nat} (small : digit < 16) :
    (UInt16.ofNat (Nat.digitChar digit).toNat).toNat < 256 := by
  revert digit
  decide

theorem digits_written {base num : Nat} (large : 1 < base) (small : base ≤ 16) :
    numberText base num = narrowed (digits base num) := by
  unfold numberText narrowed digits
  rw [← numeral_toDigits large, List.map_map, List.map_map]
  refine List.map_congr_left fun digit member => ?_
  have below : digit < base := places_lt (by omega) num _ digit member
  exact digitChar_usual (by omega)

theorem pointer_written {num : Nat} (bounded : num < 2 ^ 64) :
    (places 16 num 16).map (fun digit => (digitChar digit).toUInt8) =
      narrowed (((Nat.toDigits 16 num).leftpad 16 '0').map fun c => UInt16.ofNat c.toNat) := by
  have width : num < 16 ^ 16 := Nat.lt_of_lt_of_le bounded (by norm_num)
  rw [← places_leftpad (by omega) width (by omega), narrowed, List.map_map, List.map_map]
  exact List.map_congr_left fun digit member => digitChar_usual (places_lt (by omega) num _ digit member)

/-! Digits are bytes. -/

theorem digits_carried {base : Nat} (num : Nat) (large : 1 < base) (small : base ≤ 16) :
    Carried (digits base num) := by
  intro c member
  obtain ⟨character, inside, rfl⟩ := List.mem_map.mp member
  rw [← numeral_toDigits large] at inside
  obtain ⟨digit, place, rfl⟩ := List.mem_map.mp inside
  have below : digit < base := places_lt (by omega) num _ digit place
  exact digitChar_carried (by omega)

theorem signedText_carried (num : Nat) : Carried (signedText num) := by
  unfold signedText
  split
  · exact digits_carried num (by omega) (by omega)
  · exact List.forall_mem_cons.mpr ⟨by decide, digits_carried _ (by omega) (by omega)⟩

theorem pointerText_carried (num : Nat) : Carried (pointerText num) := by
  refine carried_append.mpr ⟨by decide +kernel, ?_⟩
  rw [List.leftpad, List.map_append]
  refine carried_append.mpr ⟨fun c member => ?_, digits_carried num (by omega) (by omega)⟩
  obtain ⟨character, inside, rfl⟩ := List.mem_map.mp member
  obtain rfl := List.eq_of_mem_replicate inside
  decide

theorem conversionText_carried {c : UInt16} (number : numeric c = true) (memory : Memory) (arg : Arg) :
    Carried (conversionText memory c arg) := by
  have string : c ≠ letterS := by
    rintro rfl
    exact absurd number (by decide)
  unfold conversionText
  rw [if_neg string]
  split_ifs with unsigned signed hex pointer
  · exact digits_carried _ (by omega) (by omega)
  · exact signedText_carried _
  · exact digits_carried _ (by omega) (by omega)
  · exact pointerText_carried _
  · -- none of the four that `numeric` lists is left
    simp only [numeric, List.contains_cons, List.contains_nil, Bool.or_false, Bool.or_eq_true, beq_iff_eq] at number
    simp only [← UInt16.toNat_inj, UInt16.toNat_ofNat'] at unsigned signed hex pointer
    omega

theorem Element.text_carried {memory : Memory} {element : Element} (whole : element.whole memory) :
    Carried (element.text memory) ↔ element.carried memory := by
  cases element with
  | verbatim text => exact Iff.rfl
  | conversion c arg =>
      refine ⟨fun all _ => all, fun all => ?_⟩
      cases number : numeric c with
      | true => exact conversionText_carried number memory arg
      | false => exact all number
  | narrow arg => exact iff_of_true (carried_widened _) trivial
  | modifier | opened => exact absurd whole id

section Writers
variable (console : Console)

theorem output_number {base num : Nat} (large : 1 < base) (small : base ≤ 16) (bounded : num < 2 ^ 64) :
    output (printfWriteNumber base num console) = output console ++ narrowed (digits base num) := by
  rw [output_writeNumber console large bounded, digits_written large small]

theorem output_signed {num : Nat} (bounded : num < 2 ^ 64) :
    output (writeSigned num console) = output console ++ narrowed (signedText num) := by
  unfold writeSigned signedText
  by_cases negative : 2 ^ 63 ≤ num
  · have magnitude : u64 (2 ^ 64 - num) = 2 ^ 64 - num := Nat.mod_eq_of_lt (by omega)
    rw [if_pos negative, if_neg (by omega), magnitude, printfWriteUintn,
      output_number _ (by omega) (by omega) (by omega), output_writeChar, List.append_assoc]
    rfl
  · rw [if_neg negative, if_pos (by omega)]
    exact output_number console (by omega) (by omega) bounded

theorem output_pointer {num : Nat} (bounded : num < 2 ^ 64) :
    output (printfWritePointer num console) = output console ++ narrowed (pointerText num) := by
  have full : (2 : Nat) ^ 60 = 16 ^ 15 := by norm_num
  unfold printfWritePointer pointerText
  rw [full, output_writeDigits _ (by omega) num 17 15 (by omega), output_write, pointer_written bounded,
    List.append_assoc]
  unfold narrowed
  rw [List.map_append]

end Writers

/-! ### The end of the format -/

/-! No writer reads the format. -/
section Overran
variable (old : Console)

theorem overran_putAll (text : List UInt16) : (printfPutAll old text).overran = old.overran := by
  induction text generalizing old with
  | nil => rfl
  | cons c rest ih => exact ih (printfPut old c)

theorem overran_write (text : List UInt16) : (printfWrite old text).overran = old.overran := by
  unfold printfWrite
  rw [overran_putAll]
  split <;> rfl

theorem overran_writeChar (c : UInt16) : (printfWriteChar old c).overran = old.overran := by
  unfold printfWriteChar
  split <;> rfl

theorem overran_writeChars (text : List UInt16) : (text.foldl printfWriteChar old).overran = old.overran := by
  induction text generalizing old with
  | nil => rfl
  | cons c rest ih => rw [List.foldl_cons, ih, overran_writeChar]

theorem overran_writeDigits (base num fuel divisor : Nat) :
    (writeDigits base num fuel divisor old).overran = old.overran := by
  induction fuel generalizing divisor old with
  | zero => rfl
  | succ fuel ih =>
      unfold writeDigits
      split
      · rw [ih, overran_writeChar]
      · rfl

theorem overran_writeNumber (base num : Nat) : (printfWriteNumber base num old).overran = old.overran := by
  unfold printfWriteNumber
  split
  · exact overran_writeChar old _
  · exact overran_writeDigits old _ _ _ _

theorem overran_writeSigned (num : Nat) : (writeSigned num old).overran = old.overran := by
  unfold writeSigned
  split
  · rw [printfWriteUintn, overran_writeNumber, overran_writeChar]
  · exact overran_writeNumber old 10 num

theorem overran_writePointer (num : Nat) : (printfWritePointer num old).overran = old.overran := by
  rw [printfWritePointer, overran_writeDigits, overran_write]

end Overran

/-- Every conversion but `%s` writes a number. -/
def numberWriter (c : UInt16) (num : Nat) : Console → Console :=
  if c = UInt16.ofNat 117 then printfWriteUintn num
  else if c = UInt16.ofNat 100 then writeSigned num
  else if c = UInt16.ofNat 120 then printfWriteHex num
  else if c = UInt16.ofNat 112 then printfWritePointer num
  else fun old => printfWriteChar old (UInt16.ofNat num)

theorem convert_number {c : UInt16} (other : c ≠ letterS) (arg : Arg) :
    convert c arg = console (numberWriter c arg.value) := by
  unfold convert numberWriter
  rw [if_neg other]
  split_ifs <;> rfl

theorem numberWriter_written {c : UInt16} (other : c ≠ letterS) {arg : Arg} (bounded : arg.value < 2 ^ 64)
    (memory : Memory) (old : Console) :
    output (numberWriter c arg.value old) = output old ++ narrowed (conversionText memory c arg) ∧
      (numberWriter c arg.value old).overran = old.overran := by
  unfold numberWriter conversionText
  rw [if_neg other]
  split_ifs
  · exact ⟨output_number old (by omega) (by omega) bounded, overran_writeNumber old _ _⟩
  · exact ⟨output_signed old bounded, overran_writeSigned old _⟩
  · exact ⟨output_number old (by omega) (by omega) bounded, overran_writeNumber old _ _⟩
  · exact ⟨output_pointer old bounded, overran_writePointer old _⟩
  · exact ⟨output_writeChar old _, overran_writeChar old _⟩

end Wboot.PrintfElements
