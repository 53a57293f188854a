import Wboot.ConfigLoad

/-! A file whose lines end in CR LF. Every line but the last gets a CR at its end,
which the reading of a line takes for white space; a line that was empty becomes a
line of one CR, which is ignored as well. -/

namespace Wboot.LineEndings
open StateProgram ByteMemory CString Tokens Machine Wstdlib Effects ConfigParser ConfigGrammar ConfigHeap
  ConfigLoad ServiceEnd

/-- Every LF replaced by CR LF. -/
def crlf (content : List UInt8) : List UInt8 :=
  content.flatMap fun c => if isLf c then [13, c] else [c]

theorem crlf_length_le (content : List UInt8) : content.length ≤ (crlf content).length := by
  unfold crlf
  induction content with
  | nil => exact Nat.le_refl 0
  | cons c rest ih =>
      rw [List.flatMap_cons, List.length_append, List.length_cons]
      split <;> simp only [List.length_cons, List.length_nil] <;> omega

theorem crlf_nonzero {content : List UInt8} (text : ∀ c ∈ content, c ≠ 0) : ∀ c ∈ crlf content, c ≠ 0 := by
  intro c member
  obtain ⟨d, inside, piece⟩ := List.mem_flatMap.mp member
  split at piece
  · rcases List.mem_cons.mp piece with rfl | same
    · decide
    · exact List.mem_singleton.mp same ▸ text d inside
  · exact List.mem_singleton.mp piece ▸ text d inside

/-- The lines of a text beside those of the text with CR LF. -/
inductive Ended : List (List UInt8) → List (List UInt8) → Prop
  | last (line : List UInt8) : Ended [line] [line]
  | more (line : List UInt8) {rest other : List (List UInt8)} (later : Ended rest other) :
      Ended (line :: rest) ((line ++ [13]) :: other)

theorem Ended.prepend {left right : List (List UInt8)} (ended : Ended left right) (c : UInt8) :
    Ended (left.modifyHead (c :: ·)) (right.modifyHead (c :: ·)) := by
  cases ended with
  | last line => exact .last (c :: line)
  | more line later => exact .more (c :: line) later

theorem lines_crlf (content : List UInt8) : Ended (lines content) (lines (crlf content)) := by
  unfold lines
  induction content with
  | nil => exact .last []
  | cons c rest ih =>
      rw [List.splitOnP_cons_eq_if_modifyHead]
      by_cases ends : isLf c = true
      · have cr : ¬ isLf 13 = true := by decide
        have split : (crlf (c :: rest)).splitOnP isLf = [13] :: (crlf rest).splitOnP isLf := by
          simp only [crlf, List.flatMap_cons, ends, ↓reduceIte, List.cons_append, List.nil_append]
          rw [List.splitOnP_cons_eq_if_modifyHead, if_neg cr, List.splitOnP_cons_eq_if_modifyHead, if_pos ends]
          rfl
        rw [if_pos ends, split]
        exact .more [] ih
      · have split : (crlf (c :: rest)).splitOnP isLf =
            ((crlf rest).splitOnP isLf).modifyHead (c :: ·) := by
          simp only [crlf, List.flatMap_cons, ends, Bool.false_eq_true, ↓reduceIte, List.cons_append,
            List.nil_append]
          rw [List.splitOnP_cons_eq_if_modifyHead, if_neg ends]
        rw [if_neg ends, split]
        exact ih.prepend c

/-! ### One line -/

section Line
variable (line : List UInt8)

theorem body_cr : body (line ++ [13]) = if body line = [] then [] else body line ++ [13] := by
  have blank : [(13 : UInt8)].dropWhile isWs = [] := by decide
  unfold body
  rw [List.dropWhile_append, blank]
  simp only [List.isEmpty_iff]

theorem ignored_cr : Ignored (line ++ [13]) ↔ Ignored line := by
  unfold Ignored
  rw [body_cr]
  cases body line with
  | nil => simp
  | cons c rest => simp

theorem keyText_cr : keyText (line ++ [13]) = keyText line := by
  have stops : [(13 : UInt8)].takeWhile (!isWs ·) = [] := by decide
  unfold keyText
  rw [body_cr]
  split
  · next none => rw [none]
  · rw [List.takeWhile_append, stops, List.append_nil]
    split
    · next whole => exact ((List.takeWhile_prefix _).eq_of_length whole).symm
    · rfl

/-- The value is trimmed at its end, so the CR is gone with the other blanks. -/
theorem valueText_cr : valueText (line ++ [13]) = valueText line := by
  have stays : [(13 : UInt8)].dropWhile (!isWs ·) = [13] := by decide
  have goes : [(13 : UInt8)].dropWhile isWs = [] := by decide
  unfold valueText
  rw [body_cr]
  split
  · next none => rw [none]
  · have behind : (body line ++ [13]).dropWhile (!isWs ·) = (body line).dropWhile (!isWs ·) ++ [13] := by
      rw [List.dropWhile_append, stays]
      split
      · next none => rw [List.isEmpty_iff.mp none, List.nil_append]
      · rfl
    rw [behind, List.dropWhile_append, goes]
    split
    · next none => rw [List.isEmpty_iff.mp none]
    · exact List.rdropWhile_concat_pos _ _ _ (by decide)

theorem readLine_cr (settings : Settings) : readLine settings (line ++ [13]) = readLine settings line := by
  unfold readLine
  simp only [ignored_cr, keyText_cr, valueText_cr]

end Line

theorem readLines_ended {left right : List (List UInt8)} (ended : Ended left right) (settings : Settings) :
    readLines settings right = readLines settings left := by
  induction ended generalizing settings with
  | last line => rfl
  | more line later ih =>
      simp only [readLines, readLine_cr]
      cases readLine settings line with
      | none => rfl
      | some next => exact ih next

theorem readLines_crlf (settings : Settings) (content : List UInt8) :
    readLines settings (lines (crlf content)) = readLines settings (lines content) :=
  readLines_ended (lines_crlf content) settings

theorem grammar_crlf (content : List UInt8) : Grammar (crlf content) ↔ Grammar content := by
  rw [grammar_iff, grammar_iff, readLines_crlf]

/-! ### The configurations -/

/-- What a configuration says: its three strings and its mode. -/
structure SameConfig (left right : WbootConfig) (leftMem rightMem : Memory) : Prop where
  kernelPath : wideString leftMem left.kernelPath = wideString rightMem right.kernelPath
  initrdPath : wideString leftMem left.initrdPath = wideString rightMem right.initrdPath
  cmdline : cstring leftMem left.cmdline = cstring rightMem right.cmdline
  mode : configMode left = configMode right

theorem valueText_subset (line : List UInt8) : ∀ c ∈ valueText line, c ∈ line := by
  intro c member
  have first := (List.rdropWhile_prefix isWs _).subset member
  have second := (List.dropWhile_suffix isWs).subset first
  have third := (List.dropWhile_suffix (!isWs ·)).subset second
  exact (List.dropWhile_suffix isWs).subset third

theorem valueText_length_le (line : List UInt8) : (valueText line).length ≤ line.length := by
  have first := (List.rdropWhile_prefix isWs (((body line).dropWhile (!isWs ·)).dropWhile isWs)).length_le
  have second : (((body line).dropWhile (!isWs ·)).dropWhile isWs).length ≤
      ((body line).dropWhile (!isWs ·)).length := (List.dropWhile_suffix isWs).length_le
  have third : ((body line).dropWhile (!isWs ·)).length ≤ (body line).length :=
    (List.dropWhile_suffix _).length_le
  have fourth : (body line).length ≤ line.length := (List.dropWhile_suffix isWs).length_le
  unfold valueText
  omega

theorem lastValue_text {content value : List UInt8} {field : TextKey}
    (last : (lastLine (.text field) content).map valueText = some value) (text : ∀ c ∈ content, c ≠ 0)
    (bounded : content.length + 1 < 2 ^ 63) : value.length < addressSpace ∧ ∀ c ∈ value, c ≠ 0 := by
  obtain ⟨line, found, rfl⟩ := Option.map_eq_some_iff.mp last
  have member := (lastLine_sets found).1
  have short := splitOnP_length_le content line member
  have shorter := valueText_length_le line
  constructor
  · rw [addressSpace_eq]
    omega
  · exact fun c inside => text c (splitOnP_subset content line member c (valueText_subset line c inside))

/-- A string of the configuration, read back from its block. -/
theorem strings_read {memory : Memory} {config : WbootConfig} {value : List UInt8}
    (bounded : value.length < addressSpace) (nonzero : ∀ c ∈ value, c ≠ 0) :
    (TextAt memory config.kernelPath (encoded .kernel value) →
      wideString memory config.kernelPath = value.map UInt8.toUInt16) ∧
    (TextAt memory config.initrdPath (encoded .initrd value) →
      wideString memory config.initrdPath = value.map UInt8.toUInt16) ∧
    (TextAt memory config.cmdline (encoded .cmdline value) → cstring memory config.cmdline = value) := by
  have wide : ∀ c ∈ value.map UInt8.toUInt16, c ≠ 0 := by
    intro c member
    obtain ⟨d, inside, rfl⟩ := List.mem_map.mp member
    intro null
    exact nonzero d inside (UInt8.toNat_inj.mp (by simpa using congrArg UInt16.toNat null))
  refine ⟨fun here => wideString_at (by simpa using bounded) wide here,
    fun here => wideString_at (by simpa using bounded) wide here, fun here => ?_⟩
  obtain ⟨body, ended, -⟩ := (textAt_append _ _ _ _).mp here
  exact cstring_at bounded ((stringAt_iff _ _ _).mpr ⟨body, nonzero, ended⟩)

theorem holdsLast_same {content other : List UInt8} {left right : WbootConfig} {leftMem rightMem : Memory}
    (values : ∀ field, (lastLine (.text field) other).map valueText =
      (lastLine (.text field) content).map valueText)
    (modes : (lastLine .mode other).bind (fun line => modeOf (valueText line)) =
      (lastLine .mode content).bind fun line => modeOf (valueText line))
    (text : ∀ c ∈ content, c ≠ 0) (bounded : content.length + 1 < 2 ^ 63)
    (here : HoldsLast content left leftMem) (there : HoldsLast other right rightMem) :
    SameConfig left right leftMem rightMem := by
  have both (field : TextKey) : ∃ value : List UInt8, value.length < addressSpace ∧ (∀ c ∈ value, c ≠ 0) ∧
      TextAt leftMem (pointer left field) (encoded field value) ∧
        TextAt rightMem (pointer right field) (encoded field value) := by
    obtain ⟨line, last, stands⟩ := here.text field
    obtain ⟨second, found, also⟩ := there.text field
    have same := values field
    rw [last, found] at same
    have value : valueText second = valueText line := Option.some.inj same
    obtain ⟨short, nonzero⟩ := lastValue_text (by rw [last]; rfl) text bounded
    exact ⟨valueText line, short, nonzero, stands, value ▸ also⟩
  constructor
  case kernelPath =>
    obtain ⟨value, short, nonzero, stands, also⟩ := both .kernel
    exact ((strings_read short nonzero).1 stands).trans ((strings_read short nonzero).1 also).symm
  case initrdPath =>
    obtain ⟨value, short, nonzero, stands, also⟩ := both .initrd
    exact ((strings_read short nonzero).2.1 stands).trans ((strings_read short nonzero).2.1 also).symm
  case cmdline =>
    obtain ⟨value, short, nonzero, stands, also⟩ := both .cmdline
    exact ((strings_read short nonzero).2.2 stands).trans ((strings_read short nonzero).2.2 also).symm
  case mode =>
    obtain ⟨line, last, mode⟩ := here.mode
    obtain ⟨second, found, other⟩ := there.mode
    rw [last, found] at modes
    exact Option.some.inj (mode.symm.trans (modes.symm.trans other))

/-- Loading the file and loading it with CR LF line ends both fail, or both give
configurations that say the same. The runs may be on different machines. -/
theorem line_endings_same (fw other : Firmware) (root otherRoot : Nat) (content : List UInt8)
    (world second : World) (sound : AllocatorSound fw) (otherSound : AllocatorSound other)
    (early : world.bsExited = false) (otherEarly : second.bsExited = false) (text : ∀ c ∈ content, c ≠ 0)
    (bounded : (crlf content).length + 1 < 2 ^ 63) (serves : ServesConfig fw root content)
    (otherServes : ServesConfig other otherRoot (crlf content))
    (served : Served world (wbootLoadConfig fw root world).2)
    (otherServed : Served second (wbootLoadConfig other otherRoot second).2) :
    ((wbootLoadConfig fw root world).1 = none ∧ (wbootLoadConfig other otherRoot second).1 = none) ∨
      ∃ left right, (wbootLoadConfig fw root world).1 = some left ∧
        (wbootLoadConfig other otherRoot second).1 = some right ∧
          SameConfig left right (wbootLoadConfig fw root world).2.mem
            (wbootLoadConfig other otherRoot second).2.mem := by
  have grows := crlf_length_le content
  have otherText := crlf_nonzero text
  obtain ⟨accepts, holds⟩ :=
    (wbootLoadConfig_whole sound early text (by omega) serves Prod.mk.eta.symm).served served
  obtain ⟨otherAccepts, otherHolds⟩ :=
    (wbootLoadConfig_whole otherSound otherEarly otherText bounded otherServes Prod.mk.eta.symm).served otherServed
  rw [grammar_crlf] at otherAccepts
  by_cases grammar : Grammar content
  · right
    obtain ⟨left, found⟩ := Option.ne_none_iff_exists'.mp (accepts.mpr grammar)
    obtain ⟨right, also⟩ := Option.ne_none_iff_exists'.mp (otherAccepts.mpr grammar)
    obtain ⟨final, read, -⟩ := (grammar_iff content).mp grammar
    have otherRead := (readLines_crlf noSettings content).trans read
    refine ⟨left, right, found, also, holdsLast_same (fun field => ?_) ?_ text (by omega) (holds left found)
      (otherHolds right also)⟩
    · exact (readLines_text otherRead field).symm.trans (readLines_text read field)
    · exact (readLines_mode otherRead).symm.trans (readLines_mode read)
  · left
    exact ⟨not_ne_iff.mp (mt accepts.mp grammar), not_ne_iff.mp (mt otherAccepts.mp grammar)⟩

theorem disk_line_endings_same :
    ∃ left right, (wbootLoadConfig diskFirmware 1 bootWorld).1 = some left ∧
      (wbootLoadConfig (confDisk (crlf confText)) 1 bootWorld).1 = some right ∧
        SameConfig left right (wbootLoadConfig diskFirmware 1 bootWorld).2.mem
          (wbootLoadConfig (confDisk (crlf confText)) 1 bootWorld).2.mem := by
  have served : Served bootWorld (wbootLoadConfig diskFirmware 1 bootWorld).2 :=
    ⟨by decide +kernel, _, (List.append_nil _).symm, by decide +kernel⟩
  have otherServed : Served bootWorld (wbootLoadConfig (confDisk (crlf confText)) 1 bootWorld).2 :=
    ⟨by decide +kernel, _, (List.append_nil _).symm, by decide +kernel⟩
  have accepted : (wbootLoadConfig diskFirmware 1 bootWorld).1.isSome = true := by decide +kernel
  rcases line_endings_same diskFirmware (confDisk (crlf confText)) 1 1 confText bootWorld bootWorld diskFirmware_sound
    (confDisk_sound _) rfl rfl (by decide) (by decide) diskFirmware_serves (confDisk_serves (by decide)) served
    otherServed with ⟨none, -⟩ | same
  · simp [none] at accepted
  · exact same

end Wboot.LineEndings
