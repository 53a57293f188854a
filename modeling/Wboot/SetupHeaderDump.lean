import Wboot.Phase2

/-! What phase 2 prints of the setup header loses nothing: each field of `setup_header_t`
has a line of its own, so the header can be read off the serial line byte for byte. -/

namespace Wboot.SetupHeaderDump
open StateProgram ByteMemory Numerals Machine LinuxBoot Wstdlib PrintfPieces PrintfOutput PrintfElements Strtoul
  NumberRoundTrip KernelImage Phase2

/-! ### Messages of numbers -/

/-- What a piece prints that reads no string. -/
def said : Piece → List UInt16
  | .verbatim text => text
  | .conversion c arg => conversionText (fun _ => 0) c arg
  | .narrow _ | .cut => []

def Numeric : Piece → Prop
  | .verbatim _ => True
  | .conversion c arg => c ≠ letterS ∧ ∃ num, arg = .num num ∧ num < 2 ^ 64
  | .narrow _ | .cut => False

theorem text_said (text : List UInt16) : (text.map fun c => Piece.verbatim [c]).flatMap said = text := by
  rw [List.flatMap_map]
  exact List.flatMap_singleton' text

section Messages
variable (fw : Firmware)

theorem piece_said {piece : Piece} (numeric : Numeric piece) (world : World) :
    output (runPiece (printfNarrow fw) piece world).2.console =
      output world.console ++ narrowed (said piece) := by
  cases piece with
  | verbatim text => exact output_writeChars world.console text
  | conversion c arg =>
      obtain ⟨other, num, rfl, bounded⟩ := numeric
      rw [runPiece, convert_number other]
      exact (@numberWriter_written c other (.num num) bounded (fun _ => 0) world.console).1
  | narrow | cut => exact numeric.elim

theorem pieces_said {found : List Piece} (numeric : ∀ piece ∈ found, Numeric piece) (world : World) :
    output (runPieces (printfNarrow fw) found world).2.console =
      output world.console ++ narrowed (found.flatMap said) := by
  induction found generalizing world with
  | nil => exact (List.append_nil _).symm
  | cons piece rest ih =>
      obtain ⟨first, others⟩ := List.forall_mem_cons.mp numeric
      rw [runPieces, bind_apply, ih others, piece_said fw first, List.flatMap_cons, List.append_assoc, narrowed,
        narrowed, narrowed, List.map_append]

/-- Whatever waits in the buffer is sent first, and nothing waits afterwards. -/
theorem printf_said {format : List UInt16} {args : List Arg} (numeric : ∀ piece ∈ pieces format args, Numeric piece)
    (world : World) :
    output (printf fw format args world).2.console =
      output world.console ++ narrowed ((pieces format args).flatMap said) := by
  have flushed : output (printf fw format args world).2.console =
      output (printfScan (printfNarrow fw) format args world).2.console :=
    output_flush _
  rw [flushed, printfScan_pieces, pieces_said fw numeric]

end Messages

/-! ### The lines -/

def DumpLine.base (line : DumpLine) : Nat := if line.conversion = letterU then 10 else 16

/-- The label is text, and the field is printed as a number of at most 64 bits. -/
structure Shown (line : DumpLine) : Prop where
  label : ∀ c ∈ line.label, c ≠ percent
  number : line.conversion = letterU ∨ line.conversion = letterX
  width : line.field.width ≤ 8

def lineText (header : SetupHeader) (line : DumpLine) : List UInt8 :=
  narrowed line.label ++ numeralBytes (DumpLine.base line) (header.get line.field) ++ narrowed lineEnd

section Lines
variable {fw : Firmware} {header other : SetupHeader} {line : DumpLine} {lines : List DumpLine}

theorem get_bounded (field : Field) (width : field.width ≤ 8) : header.get field < 2 ^ 64 := by
  have below : header.get field < 256 ^ field.width := load_lt _ _ _
  exact below.trans_le (Nat.pow_le_pow_right (by decide) width |>.trans (by decide))

theorem line_printed (shown : Shown line) (world : World) :
    output (line.print fw header world).2.console = output world.console ++ lineText header line := by
  have bounded : header.get line.field < 2 ^ 64 := get_bounded line.field shown.width
  have plainEnd : ∀ c ∈ lineEnd, c ≠ percent := by decide
  have other : line.conversion ≠ letterS := by
    rcases shown.number with same | same <;> rw [same] <;> decide
  have takes : takesArgument line.conversion = true := by
    rcases shown.number with same | same <;> rw [same] <;> rfl
  have scan : pieces (line.label ++ percent :: line.conversion :: lineEnd) [.num (header.get line.field)] =
      line.label.map (fun c => .verbatim [c]) ++ .conversion line.conversion (.num (header.get line.field)) ::
        lineEnd.map fun c => .verbatim [c] := by
    have tail := pieces_text plainEnd [] []
    rw [List.append_nil] at tail
    rw [pieces_text shown.label, pieces_conversion takes, tail]
    exact congrArg _ (congrArg _ (List.append_nil _))
  have number : conversionText (fun _ => 0) line.conversion (.num (header.get line.field)) =
      digits (DumpLine.base line) (header.get line.field) := by
    rcases shown.number with same | same <;> rw [DumpLine.base, same] <;> rfl
  rw [DumpLine.print, printf_said fw _ world, scan]
  · simp only [List.flatMap_append, List.flatMap_cons, text_said, said, number, lineText, numeralBytes, narrowed,
      List.map_append, List.append_assoc]
  · rw [scan]
    simp only [List.mem_append, List.mem_cons, List.mem_map]
    rintro piece (⟨c, -, rfl⟩ | rfl | ⟨c, -, rfl⟩)
    · trivial
    · exact ⟨other, _, rfl, bounded⟩
    · trivial

theorem lines_printed (shown : ∀ line ∈ lines, Shown line) (world : World) :
    output (printLines fw header lines world).2.console =
      output world.console ++ lines.flatMap (lineText header) := by
  induction lines generalizing world with
  | nil => exact (List.append_nil _).symm
  | cons line rest ih =>
      obtain ⟨first, others⟩ := List.forall_mem_cons.mp shown
      rw [printLines, bind_apply, ih others, line_printed first, List.flatMap_cons, List.append_assoc]

/-- What comes before the first separator, and what comes after it. -/
theorem separator_splits {separator : UInt8} {left right rest tail : List UInt8} (first : separator ∉ left)
    (second : separator ∉ right) (same : left ++ separator :: rest = right ++ separator :: tail) :
    left = right ∧ rest = tail := by
  induction left generalizing right with
  | nil =>
      cases right with
      | nil => exact ⟨rfl, (List.cons.inj same).2⟩
      | cons c right => exact absurd (List.cons.inj same).1 fun here => second (here ▸ List.mem_cons_self)
  | cons c left ih =>
      cases right with
      | nil => exact absurd (List.cons.inj same).1.symm fun here => first (here ▸ List.mem_cons_self)
      | cons d right =>
          obtain ⟨rfl, later⟩ := List.cons.inj same
          obtain ⟨rfl, ends⟩ := ih (fun member => first (List.mem_cons_of_mem _ member))
            (fun member => second (List.mem_cons_of_mem _ member)) later
          exact ⟨rfl, ends⟩

theorem base_range (line : DumpLine) : 1 < DumpLine.base line ∧ DumpLine.base line ≤ 16 := by
  unfold DumpLine.base
  split <;> decide

/-- A carriage return is no digit. -/
theorem numeral_unbroken {base num : Nat} (large : 1 < base) (small : base ≤ 16) : 13 ∉ numeralBytes base num := by
  have spells := @numeralBytes_spells base num large small
  generalize numeralBytes base num = text at spells
  generalize numeral base num = places at spells
  induction spells with
  | nil => exact List.not_mem_nil
  | cons first _ ih =>
      intro member
      rcases List.mem_cons.mp member with rfl | later
      · exact absurd first.1 (by simp [digitOf])
      · exact ih later

theorem numeral_unique {base left right : Nat} (large : 1 < base) (small : base ≤ 16)
    (same : numeralBytes base left = numeralBytes base right) : left = right := by
  have first := @numeralBytes_spells base left large small
  have second := @numeralBytes_spells base right large small
  rw [same] at first
  have places : numeral base left = numeral base right := by
    generalize numeralBytes base right = text at first second
    generalize numeral base left = some at first
    generalize numeral base right = others at second
    induction first generalizing others with
    | nil => exact (List.forall₂_nil_left_iff.mp second).symm
    | cons here _ ih =>
        cases second with
        | cons there later =>
            obtain rfl := Option.some.inj (here.1.symm.trans there.1)
            rw [ih _ later]
  rw [← valueOf_numeral large left, places, valueOf_numeral large right]

theorem line_tells {rest tail : List UInt8} (same : lineText header line ++ rest = lineText other line ++ tail) :
    header.get line.field = other.get line.field ∧ rest = tail := by
  obtain ⟨large, small⟩ := base_range line
  have ending : narrowed lineEnd = [13, 10] := by decide
  simp only [lineText, List.append_assoc, ending, List.cons_append, List.nil_append] at same
  obtain ⟨number, ends⟩ := separator_splits (numeral_unbroken large small) (numeral_unbroken large small)
    (List.append_cancel_left same)
  exact ⟨numeral_unique large small number, (List.cons.inj ends).2⟩

theorem lines_tell {rest tail : List UInt8}
    (same : lines.flatMap (lineText header) ++ rest = lines.flatMap (lineText other) ++ tail) :
    (∀ line ∈ lines, header.get line.field = other.get line.field) ∧ rest = tail := by
  induction lines with
  | nil => exact ⟨List.forall_mem_nil _, same⟩
  | cons line later ih =>
      rw [List.flatMap_cons, List.flatMap_cons, List.append_assoc, List.append_assoc] at same
      obtain ⟨here, others⟩ := line_tells same
      obtain ⟨each, ends⟩ := ih others
      exact ⟨List.forall_mem_cons.mpr ⟨here, each⟩, ends⟩

end Lines

/-! ### The dump -/

def letterC : UInt16 := UInt16.ofNat 99

def dumpText (header : SetupHeader) : List UInt8 :=
  narrowed (wide "Kernel header:\r\n") ++ linesBefore.flatMap (lineText header) ++
    (narrowed (wide "  header: ") ++ headerMagic header ++ narrowed lineEnd) ++
    linesAfter.flatMap (lineText header)

instance (line : DumpLine) : Decidable (Shown line) :=
  decidable_of_iff ((∀ c ∈ line.label, c ≠ percent) ∧ (line.conversion = letterU ∨ line.conversion = letterX) ∧
    line.field.width ≤ 8) ⟨fun ⟨label, number, width⟩ => ⟨label, number, width⟩,
      fun shown => ⟨shown.label, shown.number, shown.width⟩⟩

theorem lines_shown : ∀ line ∈ linesBefore ++ linesAfter, Shown line := by decide +kernel

/-- Every byte of the header is part of the magic or of a field with a line. -/
theorem lines_cover : ∀ i < sizeofSetupHeader, (17 ≤ i ∧ i < 21) ∨
    ∃ line ∈ linesBefore ++ linesAfter, line.field.offset ≤ i ∧ i < line.field.offset + line.field.width := by
  decide +kernel

section Dump
variable {fw : Firmware} {header other : SetupHeader}

theorem headerMagic_length (header : SetupHeader) : (headerMagic header).length = 4 := by
  have whole := header.length_eq
  simp only [headerMagic, Hdr.header, List.length_take, List.length_drop, whole, sizeofSetupHeader]
  omega

theorem magic_printed (header : SetupHeader) (world : World) :
    output (printf fw (wide "  header: %c%c%c%c\r\n") ((headerMagic header).map fun c => .num c.toNat)
      world).2.console =
      output world.console ++ (narrowed (wide "  header: ") ++ headerMagic header ++ narrowed lineEnd) := by
  have format : wide "  header: %c%c%c%c\r\n" = wide "  header: " ++ (percent :: letterC :: percent :: letterC ::
      percent :: letterC :: percent :: letterC :: (lineEnd ++ [])) := by decide +kernel
  have length := headerMagic_length header
  generalize headerMagic header = magic at length
  obtain ⟨a, b, c, d, rfl⟩ : ∃ a b c d, magic = [a, b, c, d] := by
    match magic, length with
    | [a, b, c, d], _ => exact ⟨a, b, c, d, rfl⟩
  have scan : pieces (wide "  header: %c%c%c%c\r\n") ([a, b, c, d].map fun c => .num c.toNat) =
      (wide "  header: ").map (fun c => .verbatim [c]) ++
        ([a, b, c, d].map fun c => .conversion letterC (.num c.toNat)) ++ lineEnd.map fun c => .verbatim [c] := by
    rw [format, pieces_text (by decide)]
    simp only [List.map_cons, List.map_nil, pieces_conversion (show takesArgument letterC = true from rfl)]
    rw [pieces_text (by decide)]
    simp [pieces]
  have chars : narrowed (([a, b, c, d].map fun c => Piece.conversion letterC (.num c.toNat)).flatMap said) =
      [a, b, c, d] := by
    have each (c : UInt8) : said (.conversion letterC (.num c.toNat)) = [UInt16.ofNat c.toNat] := rfl
    simp [each, narrowed]
  rw [printf_said fw _ world, scan, List.flatMap_append, List.flatMap_append, text_said, text_said, narrowed, List.map_append,
    List.map_append]
  · exact congrArg (fun text => output world.console ++ (narrowed (wide "  header: ") ++ text ++ narrowed lineEnd)) chars
  · rw [scan]
    simp only [List.mem_append, List.mem_map]
    rintro piece ((⟨c, -, rfl⟩ | ⟨c, -, rfl⟩) | ⟨c, -, rfl⟩)
    · trivial
    · exact ⟨by decide, _, rfl, c.toNat_lt.trans (by decide)⟩
    · trivial

theorem title_printed (world : World) : output (printf fw (wide "Kernel header:\r\n") [] world).2.console =
    output world.console ++ narrowed (wide "Kernel header:\r\n") := by
  have scan : pieces (wide "Kernel header:\r\n") [] = (wide "Kernel header:\r\n").map fun c => .verbatim [c] := by
    have whole := pieces_text (by decide : ∀ c ∈ wide "Kernel header:\r\n", c ≠ percent) [] []
    rw [List.append_nil] at whole
    exact whole.trans (List.append_nil _)
  rw [printf_said fw _ world, scan, text_said]
  rw [scan]
  intro piece member
  obtain ⟨c, -, rfl⟩ := List.mem_map.mp member
  trivial

theorem dump_printed (header : SetupHeader) (world : World) :
    output (wbootDumpSetupHeader fw header world).2.console = output world.console ++ dumpText header := by
  obtain ⟨before, after⟩ := List.forall_mem_append.mp lines_shown
  unfold wbootDumpSetupHeader dumpText
  rw [bind_apply, bind_apply, bind_apply, lines_printed after, magic_printed, lines_printed before, title_printed]
  simp only [List.append_assoc]

/-- Equal fields and an equal magic are equal bytes. -/
theorem header_unique (magic : headerMagic header = headerMagic other)
    (fields : ∀ line ∈ linesBefore ++ linesAfter, header.get line.field = other.get line.field) : header = other := by
  have bytes : header.bytes = other.bytes := by
    refine List.ext_getElem (header.length_eq.trans other.length_eq.symm) fun i left right => ?_
    have first : header.bytes[i] = header.bytes.getD i 0 := by simp [List.getD_eq_getElem?_getD, left]
    have second : other.bytes[i] = other.bytes.getD i 0 := by simp [List.getD_eq_getElem?_getD, right]
    rw [first, second]
    rcases lines_cover i (header.length_eq ▸ left) with ⟨lower, upper⟩ | ⟨line, member, lower, upper⟩
    · have same := congrArg (fun text => text.getD (i - 17) 0) magic
      simp only [headerMagic, Hdr.header, List.getD_eq_getElem?_getD, List.getElem?_take, List.getElem?_drop,
        if_pos (show i - 17 < 4 by omega), show 17 + (i - 17) = i by omega] at same
      simpa only [List.getD_eq_getElem?_getD] using same
    · exact sameOn_of_load (fields line member) i (by omega) (by omega)
  cases header
  cases other
  cases bytes
  rfl

theorem dumpText_injective : Function.Injective dumpText := by
  intro header other same
  unfold dumpText at same
  simp only [List.append_assoc] at same
  obtain ⟨before, same⟩ := lines_tell (List.append_cancel_left same)
  obtain ⟨magic, same⟩ := List.append_inj (List.append_cancel_left same)
    ((headerMagic_length header).trans (headerMagic_length other).symm)
  have last : linesAfter.flatMap (lineText header) ++ [] = linesAfter.flatMap (lineText other) ++ [] := by
    rw [List.append_nil, List.append_nil]
    exact List.append_cancel_left same
  exact header_unique magic (List.forall_mem_append.mpr ⟨before, (lines_tell last).1⟩)

end Dump

/-- What is added to the output is a text from which the whole header can be told. -/
theorem dump_tells_header : Function.Injective dumpText ∧ ∀ (fw : Firmware) (header : SetupHeader) (world : World),
    output (wbootDumpSetupHeader fw header world).2.console = output world.console ++ dumpText header :=
  ⟨dumpText_injective, fun _ header world => dump_printed header world⟩

end Wboot.SetupHeaderDump
