import Mathlib.Data.List.DropRight
import Wboot.ConfigParser
import Wboot.Tokens

/-! The language of wboot.conf, stated on whole texts: which lines are accepted
and what the last line of a key sets. Beside it, the reading of one line after
another; the grammar is what that reading accepts. -/

namespace Wboot.ConfigGrammar
open Tokens Machine Wstdlib ConfigParser

inductive TextKey where
  | kernel
  | initrd
  | cmdline
  deriving DecidableEq

inductive Key where
  | text (field : TextKey)
  | mode
  deriving DecidableEq

def keyNamed (name : List UInt8) : Option Key :=
  if name = ascii "kernel" then some (.text .kernel)
  else if name = ascii "initrd" then some (.text .initrd)
  else if name = ascii "cmdline" then some (.text .cmdline)
  else if name = ascii "mode" then some .mode
  else none

structure Mode where
  width : Nat
  height : Nat
  format : Int
  depth : Nat
  deriving DecidableEq

def isLf (c : UInt8) : Bool := c.toNat = 10
def isBlank (c : UInt8) : Bool := c.toNat = 32 || c.toNat = 9

def lines (content : List UInt8) : List (List UInt8) := content.splitOnP isLf

def body (line : List UInt8) : List UInt8 := line.dropWhile isWs

def Ignored (line : List UInt8) : Prop := body line = [] ∨ (body line).head? = some 35

instance (line : List UInt8) : Decidable (Ignored line) := inferInstanceAs (Decidable (_ ∨ _))

def keyText (line : List UInt8) : List UInt8 := (body line).takeWhile (!isWs ·)

/-- What follows the key, trimmed at both ends. -/
def valueText (line : List UInt8) : List UInt8 :=
  (((body line).dropWhile (!isWs ·)).dropWhile isWs).rdropWhile isWs

def modeFrom (width height : List UInt8) (format depth : Option (List UInt8)) : Option Mode :=
  match parseU32 width, parseU32 height, format.elim (some (-1)) parseModeFormat,
    depth.elim (some 0) parseU32 with
  | some width, some height, some format, some depth => some ⟨width, height, format, depth⟩
  | _, _, _, _ => none

def modeOf (value : List UInt8) : Option Mode :=
  match tokens isBlank value with
  | [width, height] => modeFrom width height none none
  | [width, height, format] => modeFrom width height (some format) none
  | [width, height, format, depth] => modeFrom width height (some format) (some depth)
  | _ => none

def Sets (key : Key) (line : List UInt8) : Prop := ¬ Ignored line ∧ keyNamed (keyText line) = some key

instance (key : Key) : DecidablePred (Sets key) := fun _ => inferInstanceAs (Decidable (_ ∧ _))

def Accepts (line : List UInt8) : Prop :=
  Ignored line ∨ ∃ key, keyNamed (keyText line) = some key ∧ valueText line ≠ [] ∧
    (key = .mode → (modeOf (valueText line)).isSome)

/-- Every line is accepted and no key is missing. -/
def Grammar (content : List UInt8) : Prop :=
  (∀ line ∈ lines content, Accepts line) ∧ ∀ key, ∃ line ∈ lines content, Sets key line

def lastLine (key : Key) (content : List UInt8) : Option (List UInt8) :=
  ((lines content).filter (Sets key ·)).getLast?

/-! ### Reading line after line -/

structure Settings where
  text : TextKey → Option (List UInt8)
  mode : Option Mode

def noSettings : Settings := ⟨fun _ => none, none⟩

def Settings.setText (settings : Settings) (field : TextKey) (value : List UInt8) : Settings :=
  { settings with text := fun other => if other = field then some value else settings.text other }

def Settings.setMode (settings : Settings) (mode : Mode) : Settings :=
  { settings with mode := some mode }

/-- What a line that is not ignored makes of the settings. -/
def Settings.apply (settings : Settings) (key value : List UInt8) : Option Settings :=
  match keyNamed key with
  | none => none
  | some (.text field) => some (settings.setText field value)
  | some .mode => (modeOf value).map settings.setMode

def readLine (settings : Settings) (line : List UInt8) : Option Settings :=
  if Ignored line then some settings
  else if valueText line = [] then none
  else settings.apply (keyText line) (valueText line)

def readLines : Settings → List (List UInt8) → Option Settings
  | settings, [] => some settings
  | settings, line :: rest => (readLine settings line).bind fun next => readLines next rest

def Settings.given (settings : Settings) : Key → Bool
  | .text field => (settings.text field).isSome
  | .mode => settings.mode.isSome

theorem readLine_accepts (settings : Settings) (line : List UInt8) :
    (readLine settings line).isSome ↔ Accepts line := by
  unfold readLine Accepts
  by_cases ignored : Ignored line
  · simp [ignored]
  rw [if_neg ignored]
  by_cases blank : valueText line = []
  · simp [ignored, blank]
  rw [if_neg blank]
  cases named : keyNamed (keyText line) with
  | none => simp [Settings.apply, named, ignored]
  | some key =>
      cases key with
      | text field => simp [Settings.apply, named, ignored, blank]
      | mode => simp [Settings.apply, named, ignored, blank]

theorem readLines_accepts (settings : Settings) (rest : List (List UInt8)) :
    (readLines settings rest).isSome ↔ ∀ line ∈ rest, Accepts line := by
  induction rest generalizing settings with
  | nil => simp [readLines]
  | cons line rest ih =>
      have first := readLine_accepts settings line
      cases read : readLine settings line with
      | none =>
          have refused : ¬ Accepts line := fun accepts => by simpa [read] using first.mpr accepts
          simp [readLines, read, refused]
      | some next =>
          have accepted : Accepts line := first.mp (by simp [read])
          simp [readLines, read, ih next, accepted]

/-- What reading a line can do. -/
theorem readLine_cases {settings next : Settings} {line : List UInt8}
    (read : readLine settings line = some next) :
    (Ignored line ∧ next = settings) ∨
      (∃ field, Sets (.text field) line ∧ next = settings.setText field (valueText line)) ∨
      ∃ mode, Sets .mode line ∧ modeOf (valueText line) = some mode ∧ next = settings.setMode mode := by
  unfold readLine at read
  by_cases ignored : Ignored line
  · rw [if_pos ignored] at read
    cases read
    exact Or.inl ⟨ignored, rfl⟩
  rw [if_neg ignored] at read
  split at read
  · cases read
  cases named : keyNamed (keyText line) with
  | none => simp [Settings.apply, named] at read
  | some key =>
      cases key with
      | text field =>
          simp only [Settings.apply, named, Option.some.injEq] at read
          exact Or.inr (Or.inl ⟨field, ⟨ignored, named⟩, read.symm⟩)
      | mode =>
          simp only [Settings.apply, named, Option.map_eq_some_iff] at read
          obtain ⟨mode, found, same⟩ := read
          exact Or.inr (Or.inr ⟨mode, ⟨ignored, named⟩, found, same.symm⟩)

theorem sets_unique {key other : Key} {line : List UInt8} (sets : Sets key line) :
    Sets other line ↔ other = key := by
  constructor
  · exact fun also => Option.some.inj (also.2.symm.trans sets.2)
  · rintro rfl
    exact sets

/-- A line changes the value of its own key only. -/
theorem readLine_text {settings next : Settings} {line : List UInt8}
    (read : readLine settings line = some next) (field : TextKey) :
    next.text field =
      if Sets (.text field) line then some (valueText line) else settings.text field := by
  rcases readLine_cases read with ⟨ignored, rfl⟩ | ⟨other, sets, rfl⟩ | ⟨mode, sets, -, rfl⟩
  · rw [if_neg fun sets => sets.1 ignored]
  · simp only [Settings.setText, sets_unique sets, Key.text.injEq]
  · simp [Settings.setMode, sets_unique sets]

theorem readLine_mode {settings next : Settings} {line : List UInt8}
    (read : readLine settings line = some next) :
    next.mode = if Sets .mode line then modeOf (valueText line) else settings.mode := by
  rcases readLine_cases read with ⟨ignored, rfl⟩ | ⟨other, sets, rfl⟩ | ⟨mode, sets, found, rfl⟩
  · rw [if_neg fun sets => sets.1 ignored]
  · simp [Settings.setText, sets_unique sets]
  · simp [Settings.setMode, sets, found]

/-- A value that every line keeps or replaces is that of the last line that replaces it. -/
theorem readLines_last {Value : Type} (view : Settings → Option Value) (key : Key)
    (new : List UInt8 → Option Value)
    (step : ∀ settings next line, readLine settings line = some next →
      view next = if Sets key line then new line else view settings)
    {settings final : Settings} {rest : List (List UInt8)} (read : readLines settings rest = some final) :
    view final = match (rest.filter (Sets key ·)).getLast? with
      | some line => new line
      | none => view settings := by
  induction rest generalizing settings with
  | nil =>
      cases read
      rfl
  | cons line rest ih =>
      simp only [readLines, Option.bind_eq_some_iff] at read
      obtain ⟨next, first, later⟩ := read
      rw [ih later, step settings next line first]
      by_cases sets : Sets key line
      · simp only [sets, ↓reduceIte, decide_true, List.filter_cons_of_pos, List.getLast?_cons]
        cases (rest.filter (Sets key ·)).getLast? <;> rfl
      · simp [sets]

theorem lastLine_sets {key : Key} {content line : List UInt8} (last : lastLine key content = some line) :
    line ∈ lines content ∧ Sets key line := by
  have member := List.mem_of_getLast? last
  simpa using member

theorem lastLine_none {key : Key} {content : List UInt8} :
    lastLine key content = none ↔ ¬ ∃ line ∈ lines content, Sets key line := by
  simp [lastLine]

theorem readLines_text {content : List UInt8} {final : Settings}
    (read : readLines noSettings (lines content) = some final) (field : TextKey) :
    final.text field = (lastLine (.text field) content).map valueText := by
  have last := readLines_last (fun settings => settings.text field) (.text field) (fun line => some (valueText line))
    (fun settings next line step => readLine_text step field) read
  unfold lastLine
  rw [last]
  cases ((lines content).filter (Sets (.text field) ·)).getLast? <;> rfl

theorem readLines_mode {content : List UInt8} {final : Settings}
    (read : readLines noSettings (lines content) = some final) :
    final.mode = (lastLine .mode content).bind fun line => modeOf (valueText line) := by
  have last := readLines_last Settings.mode .mode (fun line => modeOf (valueText line))
    (fun settings next line step => readLine_mode step) read
  unfold lastLine
  rw [last]
  cases ((lines content).filter (Sets .mode ·)).getLast? <;> rfl

/-- The grammar is what the reading accepts with every key given. -/
theorem grammar_iff (content : List UInt8) :
    Grammar content ↔
      ∃ final, readLines noSettings (lines content) = some final ∧ ∀ key, final.given key = true := by
  have accepts := readLines_accepts noSettings (lines content)
  have given {final : Settings} (read : readLines noSettings (lines content) = some final)
      (accepted : ∀ line ∈ lines content, Accepts line) (key : Key) :
      final.given key = true ↔ ∃ line ∈ lines content, Sets key line := by
    rw [← not_iff_not, ← lastLine_none]
    cases key with
    | text field => cases last : lastLine (.text field) content <;>
        simp [Settings.given, readLines_text read, last]
    | mode =>
        cases last : lastLine .mode content with
        | none => simp [Settings.given, readLines_mode read, last]
        | some line =>
            obtain ⟨member, sets⟩ := lastLine_sets last
            -- an accepted mode line has a mode
            have mode : (modeOf (valueText line)).isSome := by
              rcases accepted line member with ignored | ⟨key, named, -, present⟩
              · exact absurd ignored sets.1
              · exact present (Option.some.inj (named.symm.trans sets.2))
            simp [Settings.given, readLines_mode read, last, mode]
  constructor
  · rintro ⟨accepted, keys⟩
    obtain ⟨final, read⟩ := Option.isSome_iff_exists.mp (accepts.mpr accepted)
    exact ⟨final, read, fun key => (given read accepted key).mpr (keys key)⟩
  · rintro ⟨final, read, keys⟩
    have accepted := accepts.mp (by rw [read]; rfl)
    exact ⟨accepted, fun key => (given read accepted key).mp (keys key)⟩

/-- Empty lines say nothing, so runs of LF count as one. -/
theorem readLines_tokens (settings : Settings) (content : List UInt8) :
    readLines settings (tokens isLf content) = readLines settings (lines content) := by
  have empty (settings : Settings) : readLine settings [] = some settings := by
    simp [readLine, Ignored, body]
  unfold tokens lines
  generalize content.splitOnP isLf = rest
  induction rest generalizing settings with
  | nil => rfl
  | cons line rest ih =>
      cases line with
      | nil => simpa [readLines, empty] using ih settings
      | cons c line =>
          simp only [List.isEmpty_cons, Bool.not_false, List.filter_cons_of_pos, readLines]
          cases readLine settings (c :: line) with
          | none => rfl
          | some next => exact ih next

end Wboot.ConfigGrammar
