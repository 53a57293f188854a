import Wboot.ConfigNumbers
import Wboot.LineEndings
import Wboot.NumberRoundTrip

/-! Configurations written out. A line of wboot.conf cannot carry every string: the blanks
at both ends of a value are trimmed, and a line feed ends it. A value without these is
read back as it was written, and no other value is ever read. -/

namespace Wboot.ConfigWriting
open ByteMemory CString Tokens Numerals Machine Wstdlib Strtoul ConfigParser ConfigGrammar ConfigHeap ConfigLoad
  ConfigNumbers LineEndings NumberRoundTrip ServiceEnd

/-- What can stand behind a key. -/
structure Carriable (value : List UInt8) : Prop where
  present : value ≠ []
  line : ∀ c ∈ value, isLf c = false
  text : ∀ c ∈ value, c ≠ 0
  head : ∀ c ∈ value.head?, isWs c = false
  last : ∀ c ∈ value.getLast?, isWs c = false

/-- Three UINT32, and an INT32 that is no less than -1. -/
structure Representable (mode : Mode) : Prop where
  width : mode.width ≤ 0xFFFFFFFF
  height : mode.height ≤ 0xFFFFFFFF
  depth : mode.depth ≤ 0xFFFFFFFF
  format : -1 ≤ mode.format ∧ mode.format ≤ 0x7FFFFFFF

def keyName : Key → List UInt8
  | .text .kernel => ascii "kernel"
  | .text .initrd => ascii "initrd"
  | .text .cmdline => ascii "cmdline"
  | .mode => ascii "mode"

def keyLine (key : Key) (value : List UInt8) : List UInt8 := keyName key ++ 32 :: value

def formatText (format : Int) : List UInt8 :=
  if format = -1 then ascii "-1" else numeralBytes 10 format.toNat

def modeText (mode : Mode) : List UInt8 :=
  numeralBytes 10 mode.width ++ 32 :: (numeralBytes 10 mode.height ++
    32 :: (formatText mode.format ++ 32 :: numeralBytes 10 mode.depth))

def valueFor (text : TextKey → List UInt8) (mode : Mode) : Key → List UInt8
  | .text field => text field
  | .mode => modeText mode

def lineFor (text : TextKey → List UInt8) (mode : Mode) (key : Key) : List UInt8 :=
  keyLine key (valueFor text mode key)

/-- A file with a line for each key. -/
def written (text : TextKey → List UInt8) (mode : Mode) : List UInt8 :=
  lineFor text mode (.text .kernel) ++ 10 :: (lineFor text mode (.text .initrd) ++
    10 :: (lineFor text mode (.text .cmdline) ++ 10 :: lineFor text mode .mode))

/-! ### A line -/

section Line
variable {key : Key} {value : List UInt8}

/-- The names of the keys are words that do not start a comment. -/
structure Word (name : List UInt8) : Prop where
  present : name ≠ []
  plain : ∀ c ∈ name, isWs c = false ∧ isLf c = false ∧ c ≠ 0
  head : name.head? ≠ some 35

theorem keyName_word (key : Key) : Word (keyName key) := by
  rcases key with (_ | _ | _) | _ <;> exact ⟨by decide, by decide, by decide⟩

theorem keyNamed_keyName (key : Key) : keyNamed (keyName key) = some key := by
  rcases key with (_ | _ | _) | _ <;> decide

theorem body_keyLine : body (keyLine key value) = keyLine key value := by
  have word := keyName_word key
  obtain ⟨c, rest, name⟩ := List.exists_cons_of_ne_nil word.present
  have first : isWs c = false := (word.plain c (name ▸ List.mem_cons_self)).1
  rw [body, keyLine, name, List.cons_append, List.dropWhile_cons_of_neg (by simp [first])]

theorem keyText_keyLine : keyText (keyLine key value) = keyName key := by
  have word : ∀ c ∈ keyName key, (!isWs c) = true := fun c member => by simp [((keyName_word key).plain c member).1]
  have blank : (!isWs 32) = false := by decide
  rw [keyText, body_keyLine, keyLine, List.takeWhile_append_of_pos word,
    List.takeWhile_cons_of_neg (by simp [blank]), List.append_nil]

theorem valueText_keyLine (carriable : Carriable value) : valueText (keyLine key value) = value := by
  have word : ∀ c ∈ keyName key, (!isWs c) = true := fun c member => by simp [((keyName_word key).plain c member).1]
  have blank : isWs 32 = true := by decide
  have front : value.dropWhile isWs = value := by
    obtain ⟨c, rest, same⟩ := List.exists_cons_of_ne_nil carriable.present
    have first : isWs c = false := carriable.head c (by rw [same]; rfl)
    rw [same, List.dropWhile_cons_of_neg (by simp [first])]
  have back : value.rdropWhile isWs = value := by
    rw [List.rdropWhile_eq_self_iff]
    intro present
    simp [carriable.last _ (List.getLast?_eq_some_getLast present)]
  rw [valueText, body_keyLine, keyLine, List.dropWhile_append_of_pos word,
    List.dropWhile_cons_of_neg (by simp [blank]), List.dropWhile_cons_of_pos blank, front, back]

theorem keyLine_heeded : ¬ Ignored (keyLine key value) := by
  have word := keyName_word key
  obtain ⟨c, rest, name⟩ := List.exists_cons_of_ne_nil word.present
  have head : (body (keyLine key value)).head? = some c := by rw [body_keyLine, keyLine, name]; rfl
  rintro (empty | comment)
  · rw [empty] at head
    cases head
  · exact word.head (by rw [name, ← comment, head]; rfl)

theorem sets_keyLine {other : Key} : Sets other (keyLine key value) ↔ other = key :=
  sets_unique ⟨keyLine_heeded, by rw [keyText_keyLine, keyNamed_keyName]⟩

theorem keyLine_accepted (carriable : Carriable value) (mode : key = .mode → (modeOf value).isSome) :
    Accepts (keyLine key value) := by
  refine Or.inr ⟨key, by rw [keyText_keyLine, keyNamed_keyName], ?_⟩
  rw [valueText_keyLine carriable]
  exact ⟨carriable.present, mode⟩

theorem keyLine_line (carriable : Carriable value) : ∀ c ∈ keyLine key value, isLf c = false ∧ c ≠ 0 := by
  intro c member
  rcases List.mem_append.mp member with member | member
  · exact ((keyName_word key).plain c member).2
  · rcases List.mem_cons.mp member with same | member
    · subst same
      decide
    · exact ⟨carriable.line c member, carriable.text c member⟩

end Line

/-! ### The mode -/

section Mode
variable {num : Nat} {mode : Mode}

theorem numeral_digits (num : Nat) : ∀ c ∈ numeralBytes 10 num, 48 ≤ c.toNat ∧ c.toNat ≤ 57 := by
  have spells : Spells 10 (numeralBytes 10 num) (numeral 10 num) := numeralBytes_spells (by decide) (by decide)
  generalize numeralBytes 10 num = text at spells
  generalize numeral 10 num = digits at spells
  induction spells with
  | nil => simp
  | cons first _ ih => exact List.forall_mem_cons.mpr ⟨((digitOf_decimal _ _).mp first).1, ih⟩

theorem numeral_present (num : Nat) : numeralBytes 10 num ≠ [] := by
  have spells : Spells 10 (numeralBytes 10 num) (numeral 10 num) := numeralBytes_spells (by decide) (by decide)
  have long := numeral_length 10 num
  rw [← spells.length_eq] at long
  intro empty
  rw [empty] at long
  cases long

theorem parseU32_numeral (small : num ≤ 0xFFFFFFFF) : parseU32 (numeralBytes 10 num) = some num := by
  have spells : Spells 10 (numeralBytes 10 num) (numeral 10 num) := numeralBytes_spells (by decide) (by decide)
  have read := strtoulLoop_digits spells 0 []
  have value : valueFrom 10 0 (numeral 10 num) = num := valueOf_numeral (by decide) num
  have kept : u64 num = num := Nat.mod_eq_of_lt (by omega)
  have short : u32 num = num := Nat.mod_eq_of_lt (by omega)
  rw [List.append_nil, value, kept] at read
  have scanned : strtoul (numeralBytes 10 num) 10 = (num, []) := read
  rw [parseU32, scanned]
  dsimp only
  rw [if_neg (numeral_present num), if_neg (by simp; omega), short]

theorem parseModeFormat_text (low : -1 ≤ mode.format) (high : mode.format ≤ 0x7FFFFFFF) :
    parseModeFormat (formatText mode.format) = some mode.format := by
  unfold formatText
  by_cases unset : mode.format = -1
  · rw [if_pos unset, unset]
    decide
  obtain ⟨format, same⟩ := Int.eq_ofNat_of_zero_le (show 0 ≤ mode.format by omega)
  rw [if_neg unset, same, Int.toNat_natCast]
  -- a numeral does not begin with a minus
  have other : strcmp8 (numeralBytes 10 format) (ascii "-1") ≠ 0 := by
    obtain ⟨c, rest, text⟩ := List.exists_cons_of_ne_nil (numeral_present format)
    have digit := numeral_digits format c (text ▸ List.mem_cons_self)
    have minus : ascii "-1" = [45, 49] := by decide
    have differs : c ≠ 45 := by
      rintro rfl
      exact absurd digit.1 (by decide)
    rw [text, minus, strcmp8, if_pos differs]
    have value : ((45 : UInt8).toNat : Int) = 45 := rfl
    omega
  have parsed := parseU32_numeral (show format ≤ 0xFFFFFFFF by omega)
  rw [parseModeFormat, if_neg (numeral_present format), if_neg other, parsed]
  exact if_neg (by omega)

theorem formatText_word (format : Int) :
    formatText format ≠ [] ∧ ∀ c ∈ formatText format, 45 ≤ c.toNat ∧ c.toNat ≤ 57 := by
  unfold formatText
  split
  · decide
  · refine ⟨numeral_present _, fun c member => ?_⟩
    have digit := numeral_digits _ c member
    omega

/-- No character of a mode but the blanks is one. -/
theorem blank_low {c : UInt8} (printed : 45 ≤ c.toNat) :
    isBlank c = false ∧ isWs c = false ∧ isLf c = false ∧ c ≠ 0 := by
  have nonzero : c ≠ 0 := by
    rintro rfl
    cases printed
  refine ⟨?_, ?_, ?_, nonzero⟩
  all_goals
    simp only [isBlank, isWs, isLf, Bool.or_eq_false_iff, decide_eq_false_iff_not]
    omega

theorem modeOf_modeText (fits : Representable mode) : modeOf (modeText mode) = some mode := by
  have blank : isBlank 32 = true := by decide
  have word (num : Nat) : ∀ c ∈ numeralBytes 10 num, isBlank c = false := fun c member =>
    (blank_low (by have := numeral_digits num c member; omega)).1
  have format : ∀ c ∈ formatText mode.format, isBlank c = false := fun c member =>
    (blank_low ((formatText_word _).2 c member).1).1
  have split : tokens isBlank (modeText mode) =
      [numeralBytes 10 mode.width, numeralBytes 10 mode.height, formatText mode.format, numeralBytes 10 mode.depth] := by
    rw [modeText, tokens_cut (numeral_present _) (word _) blank, tokens_cut (numeral_present _) (word _) blank,
      tokens_cut (formatText_word _).1 format blank, tokens_word (numeral_present _) (word _)]
  simp only [modeOf, split, modeFrom, Option.elim_some, parseU32_numeral fits.width, parseU32_numeral fits.height,
    parseU32_numeral fits.depth, parseModeFormat_text fits.format.1 fits.format.2]

theorem modeText_chars (mode : Mode) : ∀ c ∈ modeText mode, c = 32 ∨ 45 ≤ c.toNat := by
  have word (num : Nat) : ∀ c ∈ numeralBytes 10 num, c = 32 ∨ 45 ≤ c.toNat := fun c member => by
    have := numeral_digits num c member
    omega
  have format : ∀ c ∈ formatText mode.format, c = 32 ∨ 45 ≤ c.toNat := fun c member =>
    Or.inr ((formatText_word _).2 c member).1
  simp only [modeText, List.forall_mem_append, List.forall_mem_cons, true_or, true_and]
  exact ⟨word _, word _, format, word _⟩

theorem modeText_carriable (mode : Mode) : Carriable (modeText mode) := by
  obtain ⟨c, rest, width⟩ := List.exists_cons_of_ne_nil (numeral_present mode.width)
  constructor
  case present => simp [modeText]
  case line =>
    intro c member
    rcases modeText_chars mode c member with rfl | printed
    · decide
    · exact (blank_low printed).2.2.1
  case text =>
    intro c member
    rcases modeText_chars mode c member with rfl | printed
    · decide
    · exact (blank_low printed).2.2.2
  case head =>
    intro d first
    have digit := numeral_digits mode.width c (width ▸ List.mem_cons_self)
    rw [modeText, width, List.cons_append, List.head?_cons, Option.mem_some_iff] at first
    subst first
    exact (blank_low (by omega)).2.1
  case last =>
    intro d last
    have depth : (modeText mode).getLast? = (numeralBytes 10 mode.depth).getLast? := by
      obtain ⟨e, more, same⟩ := List.exists_cons_of_ne_nil (numeral_present mode.depth)
      simp [modeText, List.getLast?_append, List.getLast?_cons, same]
    rw [depth] at last
    have digit := numeral_digits mode.depth d (List.mem_of_getLast? last)
    exact (blank_low (by omega)).2.1

end Mode

/-! ### The file -/

section File
variable {text : TextKey → List UInt8} {mode : Mode}

theorem valueFor_carriable (carriable : ∀ field, Carriable (text field)) (key : Key) :
    Carriable (valueFor text mode key) := by
  cases key with
  | text field => exact carriable field
  | mode => exact modeText_carriable mode

theorem lines_written (carriable : ∀ field, Carriable (text field)) :
    lines (written text mode) =
      [Key.text .kernel, .text .initrd, .text .cmdline, .mode].map (lineFor text mode) := by
  have lf : isLf 10 = true := by decide
  have line (key : Key) : ∀ c ∈ lineFor text mode key, isLf c = false := fun c member =>
    (keyLine_line (valueFor_carriable carriable key) c member).1
  unfold lines written
  rw [List.splitOnP_append_cons_of_forall_mem (line (.text .kernel)) 10 lf,
    List.splitOnP_append_cons_of_forall_mem (line (.text .initrd)) 10 lf,
    List.splitOnP_append_cons_of_forall_mem (line (.text .cmdline)) 10 lf, List.splitOnP_eq_singleton (line .mode)]
  rfl

theorem written_nonzero (carriable : ∀ field, Carriable (text field)) : ∀ c ∈ written text mode, c ≠ 0 := by
  have line (key : Key) : ∀ c ∈ lineFor text mode key, c ≠ 0 := fun c member =>
    (keyLine_line (valueFor_carriable carriable key) c member).2
  have lf : (10 : UInt8) ≠ 0 := by decide
  simp only [written, List.forall_mem_append, List.forall_mem_cons]
  exact ⟨line (.text .kernel), lf, line (.text .initrd), lf, line (.text .cmdline), lf, line .mode⟩

theorem lastLine_written (carriable : ∀ field, Carriable (text field)) (key : Key) :
    lastLine key (written text mode) = some (lineFor text mode key) := by
  rw [lastLine, lines_written carriable]
  rcases key with (_ | _ | _) | _ <;> simp [lineFor, sets_keyLine]

theorem written_grammar (carriable : ∀ field, Carriable (text field)) (fits : Representable mode) :
    Grammar (written text mode) := by
  constructor
  · rw [lines_written carriable, List.forall_mem_map]
    intro key _
    refine keyLine_accepted (valueFor_carriable carriable key) ?_
    rintro rfl
    exact (modeOf_modeText fits).symm ▸ rfl
  · intro key
    have last : lastLine key (written text mode) = some (lineFor text mode key) := lastLine_written carriable key
    exact ⟨_, lastLine_sets last⟩

/-- The strings and the mode of a configuration, as they are in memory. -/
structure Holding (config : WbootConfig) (memory : Memory) (text : TextKey → List UInt8) (mode : Mode) : Prop where
  kernelPath : wideString memory config.kernelPath = (text .kernel).map UInt8.toUInt16
  initrdPath : wideString memory config.initrdPath = (text .initrd).map UInt8.toUInt16
  cmdline : cstring memory config.cmdline = text .cmdline
  mode : configMode config = mode

/-- What is written is loaded as it was meant. -/
theorem written_config_loads (fw : Firmware) (root : Nat) (text : TextKey → List UInt8) (mode : Mode) (world : World)
    (sound : AllocatorSound fw) (early : world.bsExited = false) (carriable : ∀ field, Carriable (text field))
    (fits : Representable mode) (bounded : (written text mode).length + 1 < 2 ^ 63)
    (serves : ServesConfig fw root (written text mode))
    (served : Served world (wbootLoadConfig fw root world).2) :
    ∃ config, (wbootLoadConfig fw root world).1 = some config ∧
      Holding config (wbootLoadConfig fw root world).2.mem text mode := by
  obtain ⟨accepts, holds⟩ := (wbootLoadConfig_whole sound early (written_nonzero carriable) bounded serves
    Prod.mk.eta.symm).served served
  obtain ⟨config, found⟩ := Option.ne_none_iff_exists'.mp (accepts.mpr (written_grammar carriable fits))
  have holding := holds config found
  refine ⟨config, found, ?_⟩
  have strings (field : TextKey) : (text field).length < addressSpace ∧ (∀ c ∈ text field, c ≠ 0) ∧
      TextAt (wbootLoadConfig fw root world).2.mem (pointer config field) (encoded field (text field)) := by
    have value : valueText (lineFor text mode (.text field)) = text field :=
      valueText_keyLine (carriable field)
    obtain ⟨line, last, here⟩ := holding.text field
    rw [lastLine_written carriable] at last
    cases last
    rw [value] at here
    have set : (lastLine (.text field) (written text mode)).map valueText = some (text field) := by
      rw [lastLine_written carriable, Option.map_some, value]
    exact ⟨(lastValue_text set (written_nonzero carriable) bounded).1, (carriable field).text, here⟩
  constructor
  case kernelPath =>
    obtain ⟨short, nonzero, here⟩ := strings .kernel
    exact (strings_read short nonzero).1 here
  case initrdPath =>
    obtain ⟨short, nonzero, here⟩ := strings .initrd
    exact (strings_read short nonzero).2.1 here
  case cmdline =>
    obtain ⟨short, nonzero, here⟩ := strings .cmdline
    exact (strings_read short nonzero).2.2 here
  case mode =>
    obtain ⟨line, last, parsed⟩ := holding.mode
    rw [lastLine_written carriable] at last
    cases last
    have value : valueText (lineFor text mode .mode) = modeText mode := valueText_keyLine (modeText_carriable mode)
    rw [value, modeOf_modeText fits] at parsed
    exact (Option.some.inj parsed).symm

/-! A command line with a blank in it, and a mode with every number. -/

def shortText : TextKey → List UInt8
  | .kernel => ascii "k"
  | .initrd => ascii "i"
  | .cmdline => ascii "rw quiet"

def shortMode : Mode := ⟨1024, 768, -1, 32⟩

theorem shortText_carriable (field : TextKey) : Carriable (shortText field) := by
  cases field <;> exact ⟨by decide, by decide, by decide, by rintro _ ⟨⟩; rfl, by rintro _ ⟨⟩; rfl⟩

theorem shortMode_representable : Representable shortMode := ⟨by decide, by decide, by decide, by decide⟩

theorem short_config_written : ∃ config,
    (wbootLoadConfig (confDisk (written shortText shortMode)) 1 bootWorld).1 = some config ∧
      Holding config (wbootLoadConfig (confDisk (written shortText shortMode)) 1 bootWorld).2.mem
        shortText shortMode := by
  have served : Served bootWorld (wbootLoadConfig (confDisk (written shortText shortMode)) 1 bootWorld).2 :=
    ⟨by decide +kernel, _, (List.append_nil _).symm, by decide +kernel⟩
  exact written_config_loads (confDisk (written shortText shortMode)) 1 shortText shortMode bootWorld (confDisk_sound _)
    rfl shortText_carriable shortMode_representable (by decide +kernel) (confDisk_serves (by decide +kernel)) served

end File

/-! ### What is read -/

section Reading

theorem parseU32_small {text : List UInt8} {parsed : Nat} (accepted : parseU32 text = some parsed) :
    parsed ≤ 0xFFFFFFFF := by
  rw [parseU32_eq] at accepted
  split_ifs at accepted with fits
  cases accepted
  exact fits.2

theorem parseModeFormat_range {text : List UInt8} {format : Int} (accepted : parseModeFormat text = some format) :
    -1 ≤ format ∧ format ≤ 0x7FFFFFFF := by
  unfold parseModeFormat at accepted
  split_ifs at accepted
  · cases accepted
    decide
  · split at accepted
    · split_ifs at accepted with large
      cases accepted
      omega
    · cases accepted

/-- Without a format there is -1, without a depth 0. -/
theorem modeFrom_representable {width height : List UInt8} {format depth : Option (List UInt8)} {mode : Mode}
    (found : modeFrom width height format depth = some mode) : Representable mode := by
  unfold modeFrom at found
  split at found
  · next readWidth readHeight readFormat readDepth =>
      cases found
      refine ⟨parseU32_small readWidth, parseU32_small readHeight, ?_, ?_⟩
      · cases depth with
        | none =>
            cases readDepth
            exact Nat.zero_le _
        | some word => exact parseU32_small readDepth
      · cases format with
        | none =>
            cases readFormat
            dsimp only
            decide
        | some word => exact parseModeFormat_range readFormat
  · cases found

theorem modeOf_representable {value : List UInt8} {mode : Mode} (found : modeOf value = some mode) :
    Representable mode := by
  unfold modeOf at found
  split at found
  · exact modeFrom_representable found
  · exact modeFrom_representable found
  · exact modeFrom_representable found
  · cases found

theorem value_carriable {content line : List UInt8} (nonzero : ∀ c ∈ content, c ≠ 0) (member : line ∈ lines content)
    (accepted : Accepts line) (heeded : ¬ Ignored line) : Carriable (valueText line) := by
  have present : valueText line ≠ [] := by
    rcases accepted with ignored | ⟨key, -, present, -⟩
    · exact absurd ignored heeded
    · exact present
  obtain ⟨rest, trimmed⟩ : valueText line <+: ((body line).dropWhile (!isWs ·)).dropWhile isWs :=
    List.rdropWhile_prefix isWs _
  constructor
  case present => exact present
  case line => exact fun c inside => splitOnP_pieces content line member c (valueText_subset line c inside)
  case text => exact fun c inside => nonzero c (splitOnP_subset content line member c (valueText_subset line c inside))
  case head =>
    intro c head
    have first := List.head?_dropWhile_not isWs ((body line).dropWhile (!isWs ·))
    rw [← trimmed, List.head?_append, head] at first
    simpa using first
  case last =>
    intro c last
    have ends : ¬ isWs ((valueText line).getLast present) = true := List.rdropWhile_last_not isWs _ present
    rw [List.getLast?_eq_some_getLast present, Option.mem_some_iff] at last
    subst last
    simpa using ends

/-- No loaded configuration holds anything that could not be written. -/
theorem loaded_config_writable (fw : Firmware) (root : Nat) (content : List UInt8) (config : WbootConfig)
    (world : World) (sound : AllocatorSound fw) (early : world.bsExited = false) (nonzero : ∀ c ∈ content, c ≠ 0)
    (bounded : content.length + 1 < 2 ^ 63) (serves : ServesConfig fw root content)
    (loaded : (wbootLoadConfig fw root world).1 = some config) :
    ∃ text mode, (∀ field, Carriable (text field)) ∧ Representable mode ∧
      Holding config (wbootLoadConfig fw root world).2.mem text mode := by
  have load := wbootLoadConfig_whole sound early nonzero bounded serves
    (Prod.mk.eta.symm : wbootLoadConfig fw root world = _)
  rw [loaded] at load
  cases load with
  | loaded _ grammar holds =>
      choose line last here using holds.text
      obtain ⟨modeLine, lastMode, mode⟩ := holds.mode
      have short (field : TextKey) : (valueText (line field)).length < addressSpace ∧
          ∀ c ∈ valueText (line field), c ≠ 0 :=
        lastValue_text (by rw [last field]; rfl) nonzero bounded
      refine ⟨fun field => valueText (line field), configMode config, fun field => ?_, modeOf_representable mode, ?_⟩
      · obtain ⟨member, sets⟩ := lastLine_sets (last field)
        exact value_carriable nonzero member (grammar.1 _ member) sets.1
      · exact ⟨(strings_read (short .kernel).1 (short .kernel).2).1 (here .kernel),
          (strings_read (short .initrd).1 (short .initrd).2).2.1 (here .initrd),
          (strings_read (short .cmdline).1 (short .cmdline).2).2.2 (here .cmdline), rfl⟩

theorem disk_config_writable :
    ∃ config text mode, (wbootLoadConfig diskFirmware 1 bootWorld).1 = some config ∧
      (∀ field, Carriable (text field)) ∧ Representable mode ∧
        Holding config (wbootLoadConfig diskFirmware 1 bootWorld).2.mem text mode := by
  have present : (wbootLoadConfig diskFirmware 1 bootWorld).1.isSome = true := by decide +kernel
  obtain ⟨config, same⟩ := Option.isSome_iff_exists.mp present
  obtain ⟨text, mode, writable⟩ := loaded_config_writable diskFirmware 1 confText config bootWorld diskFirmware_sound
    rfl (by decide) (by decide) diskFirmware_serves same
  exact ⟨config, text, mode, same, writable⟩

end Reading

end Wboot.ConfigWriting
