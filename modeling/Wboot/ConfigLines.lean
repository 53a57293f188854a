import Wboot.ConfigGrammar
import Wboot.ConfigMessages
import Wboot.Tokenizer

/-! The tokenizer and the trimming on the bytes of the buffer. Each works inside
the string it is given and leaves the pieces as strings of their own. -/

namespace Wboot.ConfigLines
open StateProgram ByteMemory CString Tokens Machine Wstdlib Tokenizer ConfigParser ConfigGrammar ConfigMessages

/-- What is left for the next call of the tokenizer: nothing, or a string that ends at `stop`. -/
def Pending (memory : Memory) (saveptr : Nat) (text : List UInt8) (stop : Nat) : Prop :=
  (saveptr = 0 ∧ text = []) ∨
    (saveptr ≠ 0 ∧ saveptr + text.length = stop ∧ StringAt memory saveptr text)

/-- One call on a text that stands at `cursor`. -/
structure TokenCut (delim : UInt8 → Bool) (memory : Memory) (cursor : Nat) (text : List UInt8)
    (token : Token) (word rest : List UInt8) : Prop where
  split : tokens delim text = word :: tokens delim rest
  present : word ≠ []
  start : token.start ≠ 0
  lower : cursor ≤ token.start
  stands : StringAt token.mem token.start word
  pending : Pending token.mem token.saveptr rest (cursor + text.length)
  behind : token.saveptr ≠ 0 → token.start + word.length + 1 = token.saveptr
  inside : token.start + word.length ≤ cursor + text.length
  writes : WritesIn memory token.mem cursor text.length

theorem strtokR_text {delim : List UInt8} {memory : Memory} {cursor str saveptr : Nat} {text : List UInt8}
    (resume : (if str ≠ 0 then str else saveptr) = cursor)
    (present : cursor ≠ 0) (bounded : text.length < addressSpace) (here : StringAt memory cursor text) :
    (tokens (strchr delim) text = [] ∧ strtokR memory str delim saveptr = ⟨0, 0, memory⟩) ∨
      ∃ word rest, TokenCut (strchr delim) memory cursor text (strtokR memory str delim saveptr)
        word rest := by
  -- only separators, a last word, or a word with a separator behind it
  rcases cut (strchr delim) text with
    ⟨separators⟩ | ⟨skipped, word, split, separators, some, body⟩ |
    ⟨skipped, word, separator, rest, split, separators, some, body, ends⟩
  · left
    have none := tokens_skip separators []
    rw [List.append_nil] at none
    exact ⟨none, strtokR_none resume present bounded here separators⟩
  · right
    subst split
    rw [strtokR_last resume present separators some body bounded here]
    exact ⟨word, [], {
      split := by rw [tokens_skip separators, tokens_word some body, tokens_nil]
      present := some
      start := by dsimp only; omega
      lower := Nat.le_add_right _ _
      stands := (stringAt_append.mp here).2.2
      pending := Or.inl ⟨rfl, rfl⟩
      behind := fun absent => absurd rfl absent
      inside := by simp only [List.length_append]; omega
      writes := WritesIn.refl _ _ _ }⟩
  · right
    subst split
    -- the separator becomes the terminator and the next call resumes behind it
    rw [strtokR_more resume present separators some body bounded here ends]
    obtain ⟨left, right⟩ := stringAt_cut (stringAt_append.mp here).2.2
    have room : cursor + skipped.length + word.length + 1 + rest.length =
        cursor + (skipped ++ (word ++ separator :: rest)).length := by
      simp only [List.length_append, List.length_cons]
      omega
    exact ⟨word, rest, {
      split := by rw [tokens_skip separators, tokens_cut some body ends]
      present := some
      start := by dsimp only; omega
      lower := Nat.le_add_right _ _
      stands := left
      pending := Or.inr ⟨by dsimp only; omega, room, right⟩
      behind := fun _ => rfl
      inside := by dsimp only; omega
      writes := (poke_writesIn _ _ _).mono (by omega) (by omega) }⟩

/-! One call of the tokenizer as a step of the loader. -/
section Steps

/-- A returned pointer: NULL, or a word that the calls after `saveptr` leave alone. -/
def Fetched (memory : Memory) (saveptr pointer : Nat) : Option (List UInt8) → Prop
  | none => pointer = 0
  | some word => pointer ≠ 0 ∧ word ≠ [] ∧ StringAt memory pointer word ∧
      (saveptr ≠ 0 → pointer + word.length < saveptr)

structure TokenStep (delim : UInt8 → Bool) (cursor : Nat) (text : List UInt8) (stop : Nat)
    (before : World) (token : Nat × Nat) (rest : List UInt8) (after : World) : Prop where
  state : after = { before with mem := after.mem }
  fetched : Fetched after.mem token.2 token.1 (tokens delim text).head?
  place : token.1 ≠ 0 → cursor ≤ token.1 ∧ ∀ word ∈ (tokens delim text).head?, token.1 + word.length ≤ stop
  tail : tokens delim rest = (tokens delim text).tail
  shorter : rest.length ≤ text.length
  pending : Pending after.mem token.2 rest stop
  low : token.2 ≠ 0 → cursor ≠ 0 ∧ cursor < token.2
  frame : ∀ x, cursor = 0 ∨ x < cursor ∨ stop ≤ x → after.mem x = before.mem x

variable {before after : World} {cursor stop : Nat} {text : List UInt8} {token : Nat × Nat}

theorem nextToken_apply (str : Nat) (delim : List UInt8) (saveptr : Nat) (world : World) :
    nextToken str delim saveptr world =
      (((strtokR world.mem str delim saveptr).start, (strtokR world.mem str delim saveptr).saveptr),
        { world with mem := (strtokR world.mem str delim saveptr).mem }) := rfl

theorem tokenStep_none {delim : UInt8 → Bool} (none : tokens delim text = []) :
    TokenStep delim cursor text stop before (0, 0) [] before where
  state := rfl
  fetched := by rw [none]; exact rfl
  place := fun absent => absurd rfl absent
  tail := by rw [none]; rfl
  shorter := Nat.zero_le _
  pending := Or.inl ⟨rfl, rfl⟩
  low := fun absent => absurd rfl absent
  frame := fun _ _ => rfl

theorem tokenStep_found {delim : UInt8 → Bool} {found : Token} {word rest : List UInt8}
    (present : cursor ≠ 0) (ends : cursor + text.length = stop)
    (cut : TokenCut delim before.mem cursor text found word rest) :
    TokenStep delim cursor text stop before (found.start, found.saveptr) rest
      { before with mem := found.mem } where
  state := rfl
  fetched := by
    rw [cut.split]
    refine ⟨cut.start, cut.present, cut.stands, fun resumed => ?_⟩
    have next := cut.behind resumed
    dsimp only
    omega
  place := fun _ => ⟨cut.lower, fun other same => by
    rw [cut.split] at same
    cases same
    exact ends ▸ cut.inside⟩
  tail := by rw [cut.split]; rfl
  shorter := by
    rcases cut.pending with ⟨-, ended⟩ | ⟨resumed, room, -⟩
    · simp [ended]
    · have next := cut.behind resumed
      have lower := cut.lower
      omega
  pending := ends ▸ cut.pending
  low := fun resumed => by
    have next := cut.behind resumed
    have lower := cut.lower
    dsimp only
    omega
  -- strtok_r writes at most the one separator inside the text
  frame := by
    rintro x (null | below | above)
    · exact absurd null present
    · exact cut.writes x (Or.inl below)
    · exact cut.writes x (Or.inr (by omega))

theorem nextToken_step {str saveptr : Nat} {delim : List UInt8}
    (resume : (if str ≠ 0 then str else saveptr) = cursor)
    (pending : Pending before.mem cursor text stop) (bounded : text.length < addressSpace)
    (run : nextToken str delim saveptr before = (token, after)) :
    ∃ rest, TokenStep (strchr delim) cursor text stop before token rest after := by
  rw [nextToken_apply] at run
  rcases pending with ⟨null, ended⟩ | ⟨present, ends, here⟩
  · rw [strtokR_null (resume.trans null)] at run
    cases run
    exact ⟨[], tokenStep_none (ended ▸ tokens_nil)⟩
  · rcases strtokR_text resume present bounded here with ⟨none, nothing⟩ | ⟨word, rest, found⟩
    · rw [nothing] at run
      cases run
      exact ⟨[], tokenStep_none none⟩
    · cases run
      exact ⟨rest, tokenStep_found present ends found⟩

/-- The words of the calls before stay. -/
theorem TokenStep.keeps {delim : UInt8 → Bool} {rest : List UInt8} {pointer : Nat}
    {word : Option (List UInt8)} (step : TokenStep delim cursor text stop before token rest after)
    (fetched : Fetched before.mem cursor pointer word) : Fetched after.mem token.2 pointer word := by
  cases word with
  | none => exact fetched
  | some word =>
      obtain ⟨present, some, here, ends⟩ := fetched
      refine ⟨present, some, (stringAt_congr ?_).mpr here, fun resumed => ?_⟩
      · refine fun x lower upper => step.frame x ?_
        by_cases null : cursor = 0
        · exact Or.inl null
        · have bound := ends null
          exact Or.inr (Or.inl (by omega))
      · obtain ⟨present, low⟩ := step.low resumed
        have bound := ends present
        omega

theorem TokenStep.writes {delim : UInt8 → Bool} {rest : List UInt8} {low : Nat}
    (step : TokenStep delim cursor text stop before token rest after)
    (above : cursor ≠ 0 → low ≤ cursor) (room : low ≤ stop) :
    WritesIn before.mem after.mem low (stop - low) := by
  refine fun x outside => step.frame x ?_
  by_cases null : cursor = 0
  · exact Or.inl null
  · have bound := above null
    exact Or.inr (by omega)

end Steps

/-! The mode line. -/
section Modes

def withMode (config : WbootConfig) (mode : Mode) : WbootConfig :=
  { config with
    modeWidth := mode.width, modeHeight := mode.height, modeFormat := mode.format, modeDepth := mode.depth }

variable {fw : Firmware} {before after : World}

theorem strchr_blank : strchr modeDelim = isBlank := by
  funext c
  simp only [strchr, modeDelim, isBlank, List.contains_cons, List.contains_nil, Bool.or_false,
    ← UInt8.toNat_inj, beq_eq_decide]
  rfl

theorem strchr_lf : strchr lineDelim = isLf := by
  funext c
  simp only [strchr, lineDelim, isLf, List.contains_cons, List.contains_nil, Bool.or_false,
    ← UInt8.toNat_inj, beq_eq_decide]
  rfl

/-- What the text of an optional token is read as. -/
theorem fetched_text {saveptr pointer : Nat} {word : Option (List UInt8)} {Value : Type}
    (fetched : Fetched before.mem saveptr pointer word)
    (bounded : ∀ text ∈ word, text.length < addressSpace) (absent : Option Value)
    (parse : List UInt8 → Option Value) :
    (if pointer = 0 then absent else parse (cstring before.mem pointer)) = word.elim absent parse := by
  cases word with
  | none => exact if_pos fetched
  | some text =>
      obtain ⟨present, -, here, -⟩ := fetched
      rw [if_neg present, cstring_at (bounded text rfl) here]
      rfl

theorem parseModeTokens_run {width height format depth lineNo saveptr : Nat} {w h : List UInt8}
    {f d : Option (List UInt8)} {outcome : Option (Nat × Nat × Int × Nat)}
    (widthHere : Fetched before.mem saveptr width (some w))
    (heightHere : Fetched before.mem saveptr height (some h))
    (formatHere : Fetched before.mem saveptr format f) (depthHere : Fetched before.mem saveptr depth d)
    (bounded : ∀ text, text = w ∨ text = h ∨ text ∈ f ∨ text ∈ d → text.length < addressSpace)
    (run : parseModeTokens fw width height format depth lineNo before = (outcome, after)) :
    (modeFrom w h f d = none ∧ outcome = none ∧ NamesLine lineNo before after) ∨
      ∃ mode, modeFrom w h f d = some mode ∧ after = before ∧
        outcome = some (mode.width, mode.height, mode.format, mode.depth) := by
  have readFormat := fetched_text formatHere (fun text member => bounded text (by simp [member]))
    (some (-1)) parseModeFormat
  have readDepth := fetched_text depthHere (fun text member => bounded text (by simp [member]))
    (some 0) parseU32
  unfold parseModeTokens stringAt at run
  simp only [run_bind, readState_apply, Prod.mk.injEq] at run
  obtain ⟨_, _, ⟨rfl, rfl⟩, _, _, ⟨rfl, rfl⟩, run⟩ := run
  rw [cstring_at (bounded w (Or.inl rfl)) widthHere.2.2.1,
    cstring_at (bounded h (Or.inr (Or.inl rfl))) heightHere.2.2.1] at run
  -- all four refusals print a message that starts with the line number
  have named {format : List UInt16} {args : List Arg} (starts : numberedStart <+: format)
      (told : (do
        printf fw format (.num lineNo :: args)
        return none : Boot (Option (Nat × Nat × Int × Nat))) before = (outcome, after)) :
      outcome = none ∧ NamesLine lineNo before after := by
    rw [run_bind] at told
    obtain ⟨_, printed, prints, told⟩ := told
    cases told
    exact ⟨rfl, (printf_names fw starts lineNo args).run prints⟩
  unfold modeFrom
  -- the source tests width, height, format and depth in this order
  cases widthValue : parseU32 w with
  | none =>
      simp only [widthValue] at run
      exact Or.inl ⟨rfl, named (by decide +kernel) run⟩
  | some widthValue' =>
      cases heightValue : parseU32 h with
      | none =>
          simp only [widthValue, heightValue] at run
          exact Or.inl ⟨rfl, named (by decide +kernel) run⟩
      | some heightValue' =>
          simp only [widthValue, heightValue, bind_apply, readState_apply, readFormat] at run
          cases formatValue : f.elim (some (-1)) parseModeFormat with
          | none =>
              simp only [formatValue] at run
              exact Or.inl ⟨rfl, named (by decide +kernel) run⟩
          | some formatValue' =>
              simp only [formatValue, bind_apply, readState_apply, readDepth] at run
              cases depthValue : d.elim (some 0) parseU32 with
              | none =>
                  simp only [depthValue] at run
                  exact Or.inl ⟨rfl, named (by decide +kernel) run⟩
              | some depthValue' =>
                  simp only [depthValue] at run
                  cases run
                  exact Or.inr ⟨_, rfl, rfl, rfl⟩

/-- The mode line works on its value alone and accepts what the grammar accepts. -/
theorem parseConfigMode_run {config : WbootConfig} {value lineNo : Nat} {text : List UInt8}
    {outcome : Option WbootConfig} (present : value ≠ 0) (bounded : text.length < addressSpace)
    (here : StringAt before.mem value text)
    (run : parseConfigMode fw config value lineNo before = (outcome, after)) :
    (modeOf text = none ∧ outcome = none ∧ NamesLine lineNo before after) ∨
      ∃ mode, modeOf text = some mode ∧ outcome = some (withMode config mode) ∧
        after = { before with mem := after.mem } ∧ WritesIn before.mem after.mem value text.length := by
  unfold parseConfigMode at run
  simp only [run_bind] at run
  obtain ⟨⟨width, saved₁⟩, world₁, call₁, ⟨height, saved₂⟩, world₂, call₂, ⟨format, saved₃⟩, world₃, call₃,
    ⟨depth, saved₄⟩, world₄, call₄, ⟨extra, saved₅⟩, world₅, call₅, run⟩ := run
  -- each call resumes on the rest that the call before it left
  obtain ⟨rest₁, step₁⟩ := nextToken_step (if_pos present) (Or.inr ⟨present, rfl, here⟩) bounded call₁
  have bounded₁ := Nat.lt_of_le_of_lt step₁.shorter bounded
  obtain ⟨rest₂, step₂⟩ := nextToken_step (if_neg (by simp)) step₁.pending bounded₁ call₂
  have bounded₂ := Nat.lt_of_le_of_lt step₂.shorter bounded₁
  obtain ⟨rest₃, step₃⟩ := nextToken_step (if_neg (by simp)) step₂.pending bounded₂ call₃
  have bounded₃ := Nat.lt_of_le_of_lt step₃.shorter bounded₂
  obtain ⟨rest₄, step₄⟩ := nextToken_step (if_neg (by simp)) step₃.pending bounded₃ call₄
  have bounded₄ := Nat.lt_of_le_of_lt step₄.shorter bounded₃
  obtain ⟨rest₅, step₅⟩ := nextToken_step (if_neg (by simp)) step₄.pending bounded₄ call₅
  rw [strchr_blank] at step₁ step₂ step₃ step₄ step₅
  -- a later cut never touches a token that was returned earlier
  have widthHere := step₅.keeps (step₄.keeps (step₃.keeps (step₂.keeps step₁.fetched)))
  have heightHere := step₅.keeps (step₄.keeps (step₃.keeps step₂.fetched))
  have formatHere := step₅.keeps (step₄.keeps step₃.fetched)
  have depthHere := step₅.keeps step₄.fetched
  have extraHere := step₅.fetched
  rw [step₄.tail, step₃.tail, step₂.tail, step₁.tail] at extraHere
  rw [step₃.tail, step₂.tail, step₁.tail] at depthHere
  rw [step₂.tail, step₁.tail] at formatHere
  rw [step₁.tail] at heightHere
  have state : world₅ = { before with mem := world₅.mem } := by
    rw [step₅.state, step₄.state, step₃.state, step₂.state, step₁.state]
  have silent : world₅.console = before.console := by rw [state]
  -- the five cuts stay inside the value
  have writes : WritesIn before.mem world₅.mem value text.length := by
    have above₁ := fun resumed => Nat.le_of_lt (step₁.low resumed).2
    have above₂ := fun resumed =>
      Nat.le_trans (above₁ (step₂.low resumed).1) (Nat.le_of_lt (step₂.low resumed).2)
    have above₃ := fun resumed =>
      Nat.le_trans (above₂ (step₃.low resumed).1) (Nat.le_of_lt (step₃.low resumed).2)
    have above₄ := fun resumed =>
      Nat.le_trans (above₃ (step₄.low resumed).1) (Nat.le_of_lt (step₄.low resumed).2)
    have room := Nat.le_add_right value text.length
    have all := (step₁.writes (fun _ => Nat.le_refl value) room).trans ((step₂.writes above₁ room).trans
      ((step₃.writes above₂ room).trans ((step₄.writes above₃ room).trans (step₅.writes above₄ room))))
    rwa [Nat.add_sub_cancel_left] at all
  have words (word : List UInt8) (member : word ∈ tokens isBlank text) : word.length < addressSpace :=
    Nat.lt_of_le_of_lt (tokens_length_le text word member) bounded
  unfold modeOf
  generalize tokens isBlank text = pieces at widthHere heightHere formatHere depthHere extraHere words ⊢
  have finish (w h : List UInt8) (f d : Option (List UInt8))
      (inside : ∀ word, word = w ∨ word = h ∨ word ∈ f ∨ word ∈ d → word ∈ pieces)
      (widthHere : Fetched world₅.mem saved₅ width (some w))
      (heightHere : Fetched world₅.mem saved₅ height (some h))
      (formatHere : Fetched world₅.mem saved₅ format f) (depthHere : Fetched world₅.mem saved₅ depth d)
      (last : extra = 0) :
      (modeFrom w h f d = none ∧ outcome = none ∧ NamesLine lineNo before after) ∨
        ∃ mode, modeFrom w h f d = some mode ∧ outcome = some (withMode config mode) ∧
          after = { before with mem := after.mem } ∧ WritesIn before.mem after.mem value text.length := by
    have some : ¬ (width = 0 ∨ height = 0 ∨ extra ≠ 0) := by
      simp [widthHere.1, heightHere.1, last]
    rw [if_neg some, run_bind] at run
    obtain ⟨parsed, parsedWorld, parses, run⟩ := run
    rcases parseModeTokens_run widthHere heightHere formatHere depthHere
      (fun word which => words word (inside word which)) parses with ⟨none, rfl, named⟩ | ⟨mode, found, rfl, rfl⟩
    · cases run
      exact Or.inl ⟨none, rfl, named.preceded silent⟩
    · cases run
      exact Or.inr ⟨mode, found, rfl, state, writes⟩
  have refuse (missing : width = 0 ∨ height = 0 ∨ extra ≠ 0) :
      outcome = none ∧ NamesLine lineNo before after := by
    rw [if_pos missing, run_bind] at run
    obtain ⟨_, printed, prints, run⟩ := run
    cases run
    exact ⟨rfl, ((printf_names fw (by decide +kernel) lineNo []).run prints).preceded silent⟩
  -- two to four words are read; fewer or a fifth one is refused
  rcases pieces with _ | ⟨w, _ | ⟨h, _ | ⟨f, _ | ⟨d, _ | ⟨e, more⟩⟩⟩⟩⟩
  · exact Or.inl ⟨rfl, refuse (Or.inl widthHere)⟩
  · exact Or.inl ⟨rfl, refuse (Or.inr (Or.inl heightHere))⟩
  · exact finish w h none none (by simp) widthHere heightHere formatHere depthHere extraHere
  · exact finish w h (some f) none (by simp [eq_comm]) widthHere heightHere formatHere depthHere extraHere
  · exact finish w h (some f) (some d) (by simp [eq_comm]) widthHere heightHere formatHere depthHere extraHere
  · exact Or.inl ⟨rfl, refuse (Or.inr (Or.inr extraHere.1))⟩

end Modes

/-- Trimming shortens the string where it stands. -/
theorem trimTrailingWs_text {memory : Memory} {str : Nat} {text : List UInt8}
    (here : StringAt memory str text) :
    StringAt (trimTrailingWs memory str text.length) str (text.rdropWhile isWs) ∧
      WritesIn memory (trimTrailingWs memory str text.length) str text.length := by
  induction text using List.reverseRecOn generalizing memory with
  | nil => exact ⟨here, WritesIn.refl _ _ _⟩
  | append_singleton text c ih =>
      have last : memory (str + text.length) = c := (stringAt_append.mp here).2.2.1
      rw [List.length_append, List.length_singleton, trimTrailingWs, last]
      by_cases ws : isWs c = true
      · rw [if_pos ws, List.rdropWhile_concat_pos _ _ _ ws]
        obtain ⟨trimmed, writes⟩ := ih (stringAt_cut here).1
        have poked := poke_writesIn memory (str + text.length) 0
        exact ⟨trimmed, (poked.mono (by omega) (by omega)).trans (writes.mono (by omega) (by omega))⟩
      · rw [if_neg ws, List.rdropWhile_concat_neg _ _ _ ws]
        exact ⟨here, WritesIn.refl _ _ _⟩

/-! A line, up to the choice among the keys. -/
section Setting
variable {fw : Firmware} {before after : World}

/-- Both strings of a setting, cut out of the line. -/
structure SettingCut (before ready : World) (line : Nat) (text : List UInt8) (key value : Nat) : Prop where
  state : ready = { before with mem := ready.mem }
  keyHere : StringAt ready.mem key (keyText text)
  valueHere : StringAt ready.mem value (valueText text)
  lower : line ≤ key
  between : key + (keyText text).length < value
  upper : value + (valueText text).length ≤ line + text.length
  writes : WritesIn before.mem ready.mem line text.length

theorem SettingCut.inside {ready : World} {line key value : Nat} {text : List UInt8}
    (cut : SettingCut before ready line text key value) :
    (keyText text).length ≤ text.length ∧ (valueText text).length ≤ text.length ∧ line ≤ value ∧ value ≠ 0 := by
  obtain ⟨-, -, -, lower, between, upper, -⟩ := cut
  omega

/-- A loop over a class of characters, one that no terminator is in. -/
theorem scan_class {go kind : UInt8 → Bool} {memory : Memory} {p : Nat} {text : List UInt8}
    (bounded : text.length < addressSpace) (here : StringAt memory p text)
    (agrees : ∀ c, c ≠ 0 → go c = kind c) (stops : go 0 = false) :
    scan go memory p = p + (text.takeWhile kind).length ∧
      StringAt memory (p + (text.takeWhile kind).length) (text.dropWhile kind) := by
  have short := (List.takeWhile_prefix kind (l := text)).length_le
  have split : StringAt memory p (text.takeWhile kind ++ text.dropWhile kind) := by
    rwa [List.takeWhile_append_dropWhile]
  have nonzero := split.nonzero
  refine ⟨scan_string (by omega) split (fun c member => ?_) ?_, (stringAt_append.mp split).2.2⟩
  · rw [agrees c (nonzero c (List.mem_append_left _ member))]
    exact List.mem_takeWhile_imp member
  · cases found : text.dropWhile kind with
    | nil => exact stops
    | cons c rest =>
        have stopped := @List.head_dropWhile_not _ kind text (by rw [found]; simp)
        simp only [found, List.head_cons] at stopped
        rw [List.headD_cons, agrees c (nonzero c (by simp [found])), stopped]

theorem missingValue_run {line lineNo : Nat} {outcome : Option (WbootConfig × ConfigParseState)}
    (run : missingValue fw line lineNo before = (outcome, after)) :
    outcome = none ∧ NamesLine lineNo before after := by
  unfold missingValue at run
  rw [run_bind] at run
  obtain ⟨_, printed, prints, run⟩ := run
  cases run
  exact ⟨rfl, (printf_names fw (by decide +kernel) lineNo _).run prints⟩

/-- The first character that counts decides whether the line is ignored. -/
theorem ignored_iff {memory : Memory} {key : Nat} {text : List UInt8} (here : StringAt memory key (body text)) :
    (memory key = 0 ∨ (memory key).toNat = 35) ↔ Ignored text := by
  rw [stringAt_head here]
  unfold Ignored
  cases found : body text with
  | nil => simp
  | cons c rest =>
      have nonzero := here.nonzero c (by simp [found])
      simp [nonzero, ← UInt8.toNat_inj]

/-- What the stores into a line leave of it: the key, and its value without the blanks
on either side. -/
theorem value_cut {memory : Memory} {key : Nat} {name rest : List UInt8} {blank : UInt8}
    (bounded : (name ++ blank :: rest).length < addressSpace) (here : StringAt memory key (name ++ blank :: rest)) :
    let cut := poke memory (key + name.length) 0
    let value := scan isWs cut (key + name.length + 1)
    let ready := trimTrailingWs cut value (strlen8 cut value)
    StringAt ready key name ∧ StringAt ready value ((rest.dropWhile isWs).rdropWhile isWs) ∧
      key + name.length < value ∧
      value + ((rest.dropWhile isWs).rdropWhile isWs).length ≤ key + (name ++ blank :: rest).length ∧
      WritesIn memory ready key (name ++ blank :: rest).length := by
  simp only [List.length_append, List.length_cons] at bounded ⊢
  -- the terminator stored behind the key leaves the value as a string of its own
  obtain ⟨keyHere, restHere⟩ := stringAt_cut here
  have poked := poke_writesIn memory (key + name.length) 0
  generalize poke memory (key + name.length) 0 = cut at keyHere restHere poked ⊢
  obtain ⟨begins, valueHere⟩ : scan isWs cut (key + name.length + 1) =
        key + name.length + 1 + (rest.takeWhile isWs).length ∧
      StringAt cut (key + name.length + 1 + (rest.takeWhile isWs).length) (rest.dropWhile isWs) :=
    scan_class (by omega) restHere (fun _ _ => rfl) rfl
  have pieces := congrArg List.length (@List.takeWhile_append_dropWhile _ isWs rest)
  rw [List.length_append] at pieces
  rw [begins]
  have place : key + name.length < key + name.length + 1 + (rest.takeWhile isWs).length := by omega
  have room : key + name.length + 1 + (rest.takeWhile isWs).length + (rest.dropWhile isWs).length =
      key + (name.length + (rest.length + 1)) := by omega
  generalize key + name.length + 1 + (rest.takeWhile isWs).length = value at valueHere place room ⊢
  have length : strlen8 cut value = (rest.dropWhile isWs).length := by
    unfold strlen8
    rw [cstring_at (by omega) valueHere]
  obtain ⟨trimmed, trims⟩ := trimTrailingWs_text valueHere
  have shorter := (List.rdropWhile_prefix isWs (rest.dropWhile isWs)).length_le
  rw [length]
  refine ⟨?_, trimmed, place, by omega, ?_⟩
  · exact (stringAt_congr (trims.sameOn (Or.inr (by omega)))).mpr keyHere
  · exact (poked.mono (by omega) (by omega)).trans (trims.mono (by omega) (by omega))

/-- An ignored line changes nothing, a line without a value fails, and any other
comes down to the choice among the keys. -/
theorem parseConfigLine_prepared {config : WbootConfig} {state : ConfigParseState} {line lineNo : Nat}
    {text : List UInt8} {outcome : Option (WbootConfig × ConfigParseState)}
    (bounded : text.length < addressSpace) (here : StringAt before.mem line text)
    (run : parseConfigLine fw config state line lineNo before = (outcome, after)) :
    (Ignored text ∧ outcome = some (config, state) ∧ after = before) ∨
      (¬ Ignored text ∧ valueText text = [] ∧ outcome = none ∧ NamesLine lineNo before after) ∨
      ¬ Ignored text ∧ valueText text ≠ [] ∧ ∃ key value ready,
        SettingCut before ready line text key value ∧
          applySetting fw config state key value lineNo ready = (outcome, after) := by
  -- leading blanks are skipped first
  obtain ⟨skipped, there⟩ : scan isWs before.mem line = line + (text.takeWhile isWs).length ∧
      StringAt before.mem (line + (text.takeWhile isWs).length) (body text) :=
    scan_class bounded here (fun _ _ => rfl) rfl
  have blanks : text = text.takeWhile isWs ++ body text := (List.takeWhile_append_dropWhile).symm
  have whole := congrArg List.length blanks
  rw [List.length_append] at whole
  unfold parseConfigLine at run
  simp only [run_bind, readState_apply, Prod.mk.injEq] at run
  obtain ⟨_, _, ⟨rfl, rfl⟩, _, _, ⟨rfl, rfl⟩, run⟩ := run
  rw [skipped] at run
  have low : line ≤ line + (text.takeWhile isWs).length := Nat.le_add_right _ _
  have high : line + (text.takeWhile isWs).length + (body text).length = line + text.length := by omega
  generalize line + (text.takeWhile isWs).length = key at run there low high
  rw [run_ite] at run
  -- an empty line or a comment changes nothing
  rcases run with ⟨ignored, run⟩ | ⟨counts, run⟩
  · cases run
    exact Or.inl ⟨(ignored_iff there).mp ignored, rfl, rfl⟩
  rw [ignored_iff there] at counts
  right
  -- the key runs to the first blank
  obtain ⟨stopped, behind⟩ : scan (fun c => c ≠ 0 && !isWs c) before.mem key = key + (keyText text).length ∧
      StringAt before.mem (key + (keyText text).length) ((body text).dropWhile (!isWs ·)) :=
    scan_class (by omega) there (fun c nonzero => by simp [nonzero]) rfl
  have parts : body text = keyText text ++ (body text).dropWhile (!isWs ·) :=
    (List.takeWhile_append_dropWhile).symm
  have sum := congrArg List.length parts
  rw [List.length_append] at sum
  simp only [run_bind, readState_apply, Prod.mk.injEq] at run
  obtain ⟨_, _, ⟨rfl, rfl⟩, _, _, ⟨rfl, rfl⟩, run⟩ := run
  rw [stopped] at run
  rw [stringAt_head behind] at run
  -- a key that ends the line has no value
  cases left : (body text).dropWhile (!isWs ·) with
  | nil =>
      have empty : valueText text = [] := by
        unfold valueText
        rw [left]
        rfl
      rw [left] at run
      exact Or.inl ⟨counts, empty, missingValue_run run⟩
  | cons blank rest =>
      rw [left] at run behind sum
      have nonzero : (blank :: rest).headD 0 ≠ 0 := behind.nonzero blank List.mem_cons_self
      have ws : isWs blank = true := by
        have stopped := @List.head_dropWhile_not _ (!isWs ·) (body text) (by rw [left]; simp)
        simpa [left] using stopped
      rw [if_neg nonzero] at run
      rw [parts, left] at there
      have named : valueText text = (rest.dropWhile isWs).rdropWhile isWs := by
        unfold valueText
        rw [left, List.dropWhile_cons_of_pos ws]
      have length : (keyText text ++ blank :: rest).length = (body text).length := by rw [parts, left]
      obtain ⟨keyHere, valueHere, place, room, writes⟩ := value_cut (by omega) there
      rw [← named] at valueHere room
      simp only [run_bind, inRam_apply, modifyState_apply, readState_apply, Prod.mk.injEq] at run
      obtain ⟨_, _, ⟨-, rfl⟩, _, _, ⟨rfl, rfl⟩, _, _, ⟨-, rfl⟩, _, _, ⟨rfl, rfl⟩, run⟩ := run
      dsimp only at run
      rw [run_ite, stringAt_head valueHere] at run
      -- a value of blanks alone is trimmed to nothing
      rcases run with ⟨null, run⟩ | ⟨present, run⟩
      · obtain ⟨none, named⟩ := missingValue_run run
        refine Or.inl ⟨counts, ?_, none, fun bounded => named bounded⟩
        cases found : valueText text with
        | nil => rfl
        | cons c later =>
            rw [found] at null valueHere
            exact absurd null (valueHere.nonzero c List.mem_cons_self)
      · refine Or.inr ⟨counts, fun empty => present (by rw [empty]; rfl), key, _, _, ?_, run⟩
        exact {
          state := rfl
          keyHere := keyHere
          valueHere := valueHere
          lower := low
          between := place
          upper := by omega
          writes := writes.mono low (by omega) }

end Setting

end Wboot.ConfigLines
