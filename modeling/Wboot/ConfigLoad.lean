import Wboot.ConfigCourses
import Wboot.ConfigHeap
import Wboot.ServiceEnd

/-! `wboot_load_config` against the grammar. A line of the buffer does to the
configuration what reading it does to the settings; the lines not yet read, the
buffer and the blocks of the texts stay out of each other's way. -/

namespace Wboot.ConfigLoad
open StateProgram ByteMemory CString Tokens Machine Wstdlib Effects PrintfOutput ConfigParser ConfigCourses
  ConfigGrammar ConfigMessages ConfigLines ConfigHeap ServiceEnd

/-- An allocation or a file call that succeeded, or another call. -/
def granted : Event → Bool
  | .allocatePool _ status _ | .fileOpen _ _ status _ | .fileRead _ _ status _
  | .fileGetInfo _ _ _ status => !efiError status
  | _ => true

def Served (before after : World) : Prop := Calls (granted · = true) before after

def configMode (config : WbootConfig) : Mode :=
  ⟨config.modeWidth, config.modeHeight, config.modeFormat, config.modeDepth⟩

/-- The configuration holds the settings in blocks of its own. -/
structure Stored (world : World) (data size : Nat) (config : WbootConfig) (sizes : TextKey → Nat)
    (settings : Settings) : Prop where
  owned : Owned world data size config sizes
  absent : ∀ field, settings.text field = none → pointer config field = 0
  texts : ∀ field value, settings.text field = some value → pointer config field ≠ 0 ∧
    sizes field = (encoded field value).length ∧
      TextAt world.mem (pointer config field) (encoded field value)
  mode : ∀ mode, settings.mode = some mode → configMode config = mode

def flag (state : ConfigParseState) : Key → Bool
  | .text .kernel => state.hasKernel
  | .text .initrd => state.hasInitrd
  | .text .cmdline => state.hasCmdline
  | .mode => state.hasMode

def raise (state : ConfigParseState) : Key → ConfigParseState
  | .text .kernel => { state with hasKernel := true }
  | .text .initrd => { state with hasInitrd := true }
  | .text .cmdline => { state with hasCmdline := true }
  | .mode => { state with hasMode := true }

theorem flag_raise (state : ConfigParseState) (key other : Key) :
    flag (raise state key) other = (decide (other = key) || flag state other) := by
  cases key with
  | mode =>
      cases other with
      | mode => rfl
      | text field => cases field <;> rfl
  | text set =>
      cases other with
      | mode => cases set <;> rfl
      | text field => cases set <;> cases field <;> rfl

/-- The flags tell which keys have been set. -/
def Flagged (state : ConfigParseState) (settings : Settings) : Prop :=
  ∀ key, flag state key = settings.given key

theorem Flagged.text {state : ConfigParseState} {settings : Settings} (flagged : Flagged state settings)
    (field : TextKey) (value : List UInt8) :
    Flagged (raise state (.text field)) (settings.setText field value) := by
  intro key
  rw [flag_raise, flagged key]
  cases key with
  | mode => simp [Settings.given, Settings.setText]
  | text other =>
      by_cases same : other = field
      · simp [Settings.given, Settings.setText, same]
      · simp [Settings.given, Settings.setText, same]

theorem Flagged.mode {state : ConfigParseState} {settings : Settings} (flagged : Flagged state settings)
    (mode : Mode) : Flagged (raise state .mode) (settings.setMode mode) := by
  intro key
  rw [flag_raise, flagged key]
  cases key <;> simp [Settings.given, Settings.setMode]

/-- The comparison of two strings decides their equality. -/
theorem strcmp8_eq {left right : List UInt8} (first : ∀ c ∈ left, c ≠ 0) (second : ∀ c ∈ right, c ≠ 0) :
    strcmp8 left right = 0 ↔ left = right := by
  have nonzero (c : UInt8) (present : c ≠ 0) : (c.toNat : Int) ≠ 0 := by
    have := UInt8.toNat_inj.not.mpr present
    simpa using this
  induction left generalizing right with
  | nil =>
      cases right with
      | nil => simp [strcmp8]
      | cons d other =>
          have present := nonzero d (second d List.mem_cons_self)
          simp only [strcmp8, reduceCtorEq, iff_false]
          omega
  | cons c rest ih =>
      cases right with
      | nil => simpa [strcmp8] using nonzero c (first c List.mem_cons_self)
      | cons d other =>
          have tail := ih (fun x member => first x (List.mem_cons_of_mem c member))
            (fun x member => second x (List.mem_cons_of_mem d member))
          simp only [strcmp8, List.cons.injEq]
          by_cases same : c = d
          · simp only [same, ne_eq, not_true_eq_false, ↓reduceIte, true_and]
            exact tail
          · have differ : (c.toNat : Int) - d.toNat ≠ 0 := by
              have := UInt8.toNat_inj.not.mpr same
              omega
            simp [same, differ]

section Setting
variable {fw : Firmware} {before after : World} {config : WbootConfig} {state : ConfigParseState}
  {line value lineNo : Nat} {outcome : Option (WbootConfig × ConfigParseState)}

def copyMessage : TextKey → List UInt16
  | .kernel => wide "error allocating kernel path"
  | .initrd => wide "error allocating initrd path"
  | .cmdline => wide "error allocating cmdline"

/-- The three texts differ in their field and their message only. -/
def applyText (fw : Firmware) (config : WbootConfig) (state : ConfigParseState) (field : TextKey) (value : Nat) :
    Boot (Option (WbootConfig × ConfigParseState)) := do
  let address ← duplicate fw field value
  if address = 0 then
    perror fw (copyMessage field) efiOutOfResources
    return none
  free fw (pointer config field)
  return some (withPointer config field address, raise state (.text field))

def applyMode (fw : Firmware) (config : WbootConfig) (state : ConfigParseState) (value lineNo : Nat) :
    Boot (Option (WbootConfig × ConfigParseState)) := do
  match ← parseConfigMode fw config value lineNo with
  | none => return none
  | some config => return some (config, raise state .mode)

def unknownKey (fw : Firmware) (line lineNo : Nat) : Boot (Option (WbootConfig × ConfigParseState)) := do
  printf fw (wide "error parsing wboot.conf line %u: unknown key '%-s'\r\n") [.num lineNo, .narrowPointer line]
  return none

def applyKey (fw : Firmware) (config : WbootConfig) (state : ConfigParseState) (line value lineNo : Nat) :
    Option Key → Boot (Option (WbootConfig × ConfigParseState))
  | some (.text field) => applyText fw config state field value
  | some .mode => applyMode fw config state value lineNo
  | none => unknownKey fw line lineNo

/-- The `if` chain finds the key that is named. -/
theorem applySetting_keyed (world : World) : applySetting fw config state line value lineNo world =
    applyKey fw config state line value lineNo (keyNamed (cstring world.mem line)) world := by
  have nonzero : ∀ c ∈ cstring world.mem line, c ≠ 0 := stringFrom_nonzero _ _ _
  have names (name : List UInt8) (text : ∀ c ∈ name, c ≠ 0) := strcmp8_eq nonzero text
  unfold applySetting stringAt keyNamed
  rw [bind_apply, readState_apply]
  dsimp only
  by_cases kernel : cstring world.mem line = ascii "kernel"
  · rw [if_pos ((names _ (by decide)).mpr kernel), if_pos kernel]
    rfl
  rw [if_neg ((names _ (by decide)).not.mpr kernel), if_neg kernel]
  by_cases initrd : cstring world.mem line = ascii "initrd"
  · rw [if_pos ((names _ (by decide)).mpr initrd), if_pos initrd]
    rfl
  rw [if_neg ((names _ (by decide)).not.mpr initrd), if_neg initrd]
  by_cases cmdline : cstring world.mem line = ascii "cmdline"
  · rw [if_pos ((names _ (by decide)).mpr cmdline), if_pos cmdline]
    rfl
  rw [if_neg ((names _ (by decide)).not.mpr cmdline), if_neg cmdline]
  by_cases mode : cstring world.mem line = ascii "mode"
  · rw [if_pos ((names _ (by decide)).mpr mode), if_pos mode]
    rfl
  · rw [if_neg ((names _ (by decide)).not.mpr mode), if_neg mode]
    rfl

/-- What the `if` chain does, by the key it finds. -/
inductive SettingRun (fw : Firmware) (config : WbootConfig) (state : ConfigParseState) (value lineNo : Nat)
    (before after : World) : Option Key → Option (WbootConfig × ConfigParseState) → Prop
  | unknown (named : NamesLine lineNo before after) :
      SettingRun fw config state value lineNo before after none none
  | refused (field : TextKey) (copied : World) (copies : duplicate fw field value before = (0, copied))
      (rest : Calls ordinary copied after) (nameless : NamesNoLine before after) :
      SettingRun fw config state value lineNo before after (some (.text field)) none
  | text (field : TextKey) (address : Nat) (copied : World) (present : address ≠ 0)
      (copies : duplicate fw field value before = (address, copied))
      (releases : free fw (pointer config field) copied = ((), after)) :
      SettingRun fw config state value lineNo before after (some (.text field))
        (some (withPointer config field address, raise state (.text field)))
  | mode (parsed : Option WbootConfig) (parses : parseConfigMode fw config value lineNo before = (parsed, after)) :
      SettingRun fw config state value lineNo before after (some .mode)
        (parsed.map fun config => (config, raise state .mode))

theorem duplicate_silent (fw : Firmware) (field : TextKey) (source : Nat) :
    Relates Silent (duplicate fw field source) := by
  have copies {size : Nat} {bytes : List UInt8} : Relates Silent (do
      let dst ← malloc fw size
      if dst = 0 then return 0
      heapStore dst bytes
      return dst : Boot Nat) := by
    refine (malloc_silent fw size).bind fun dst => .ite (fun _ => .pure 0) fun _ => ?_
    exact Relates.bind ((inRam_silent _).bind fun _ => inRam_silent _) fun _ => .pure dst
  cases field with
  | cmdline => exact (Relates.read _).bind fun text => copies
  | kernel | initrd => exact (Relates.read _).bind fun text => copies

theorem applyText_run {field : TextKey} (run : applyText fw config state field value before = (outcome, after)) :
    SettingRun fw config state value lineNo before after (some (.text field)) outcome := by
  have clash : Clash (narrowed (copyMessage field)) lineStart := by cases field <;> decide +kernel
  unfold applyText at run
  rw [run_bind] at run
  obtain ⟨address, copied, copies, run⟩ := run
  rw [run_ite] at run
  rcases run with ⟨null, run⟩ | ⟨present, run⟩
  · have rest := Relates.run (((ordinary_absorbs fw).perror _ _).bind fun _ => .pure none) run
    have told := Relates.run ((perror_opens fw (copyMessage field) _).bind fun _ => .pure none) run
    have silent := (duplicate_silent fw field value).run copies
    have none : outcome = none := (congrArg Prod.fst run).symm
    subst none null
    exact .refused field copied copies rest (Opens.namesNoLine (IsTrans.trans _ _ _ silent.opens told) clash)
  · rw [run_bind] at run
    obtain ⟨_, freed, frees, run⟩ := run
    cases run
    exact .text field address copied present copies frees

theorem applySetting_run (run : applySetting fw config state line value lineNo before = (outcome, after)) :
    SettingRun fw config state value lineNo before after (keyNamed (cstring before.mem line)) outcome := by
  rw [applySetting_keyed] at run
  generalize keyNamed (cstring before.mem line) = key at run
  match key with
  | some (.text field) => exact applyText_run run
  | some .mode =>
      rw [applyKey, applyMode, run_bind] at run
      obtain ⟨parsed, parsedWorld, parses, run⟩ := run
      cases parsed with
      | none =>
          cases run
          exact .mode none parses
      | some parsed =>
          cases run
          exact .mode (some parsed) parses
  | none =>
      rw [applyKey, unknownKey, run_bind] at run
      obtain ⟨_, told, tells, run⟩ := run
      cases run
      exact .unknown ((printf_names fw (by decide +kernel) lineNo _).run tells)

end Setting

/-! ### One line -/
section Line
variable {fw : Firmware} {before middle after : World} {data size : Nat} {config : WbootConfig}
  {sizes : TextKey → Nat} {settings : Settings} {state : ConfigParseState}

theorem Served.member {event : Event} {later : List Event} (served : Served before after)
    (grown : after.history = later ++ event :: before.history) : granted event = true := by
  obtain ⟨events, same, kind⟩ := served.history
  have whole : after.history = (later ++ [event]) ++ before.history := by simp [grown]
  rw [whole] at same
  have equal := List.append_cancel_right same
  exact kind event (equal ▸ by simp)

/-- Writes inside the buffer leave the texts alone. -/
theorem Stored.inBuffer {start count : Nat} (stored : Stored before data size config sizes settings)
    (rewritten : after = { before with mem := after.mem })
    (writes : WritesIn before.mem after.mem start count) (lower : data ≤ start)
    (upper : start + count ≤ data + size) : Stored after data size config sizes settings := by
  have history : after.history = before.history := by rw [rewritten]
  have exited : after.bsExited = before.bsExited := by rw [rewritten]
  refine ⟨?_, stored.absent, fun field value set => ?_, stored.mode⟩
  · constructor
    case early => exact exited.trans stored.owned.early
    case present => exact stored.owned.present
    case buffer => exact history ▸ stored.owned.buffer
    case blocks => exact history ▸ stored.owned.blocks
    case apart => exact stored.owned.apart
    case foreign => exact stored.owned.foreign
    case distinct => exact stored.owned.distinct
  · obtain ⟨present, length, here⟩ := stored.texts field value set
    refine ⟨present, length, (textAt_congr ?_).mpr here⟩
    have apart := stored.owned.apart field present
    rw [length] at apart
    refine writes.sameOn ?_
    unfold Apart at apart ⊢
    omega

/-- A text that has been copied and has taken the place of the old one. -/
theorem Stored.replace {field : TextKey} {source address : Nat} {value : List UInt8}
    (sound : AllocatorSound fw) (stored : Stored before data size config sizes settings)
    (bounded : value.length + 1 < 2 ^ 63) (here : StringAt before.mem source value)
    (present : address ≠ 0) (copies : duplicate fw field source before = (address, middle))
    (releases : free fw (pointer config field) middle = ((), after)) :
    (∃ sizes, Stored after data size (withPointer config field address) sizes (settings.setText field value)) ∧
      SameOn after.mem before.mem data size := by
  -- the copy is made before the old value is freed, and both are kept apart from the other fields
  obtain ⟨allocated, allocates, history, exited, written⟩ :=
    duplicate_copies sound stored.owned.early bounded here copies
  have early : middle.bsExited = false := by rw [exited, allocates.bsExited, stored.owned.early]
  have released := free_releases fw early releases
  have mem : after.mem = storeBytes before.mem address (encoded field value) :=
    (congrArg Ram.mem released.ram).trans (written present)
  have fresh := allocates.fresh present
  have writes := storeBytes_writesIn before.mem address (encoded field value)
  rw [← mem] at writes
  constructor
  · refine ⟨_, stored.owned.replace present allocates history exited released, ?_, ?_, ?_⟩
    · intro other absent
      rw [pointer_withPointer]
      by_cases same : other = field
      · simp [Settings.setText, same] at absent
      · simp only [Settings.setText, same, ↓reduceIte] at absent ⊢
        exact stored.absent other absent
    · intro other text set
      rw [pointer_withPointer]
      -- the given key takes the new text, every other key keeps its own
      by_cases same : other = field
      · simp only [Settings.setText, same, ↓reduceIte, Option.some.injEq] at set ⊢
        subst set
        exact ⟨present, rfl, mem ▸ textAt_storeBytes _ _ _⟩
      · simp only [Settings.setText, same, ↓reduceIte] at set ⊢
        obtain ⟨held, length, there⟩ := stored.texts other text set
        refine ⟨held, length, (textAt_congr (writes.sameOn ?_)).mpr there⟩
        have apart := fresh.apart _ (stored.owned.blocks other held)
        rwa [length] at apart
    · intro mode set
      have kept : configMode (withPointer config field address) = configMode config := by
        cases field <;> rfl
      exact kept.trans (stored.mode mode set)
  · exact writes.sameOn (fresh.apart _ stored.owned.buffer)

theorem parseConfigLine_run {line lineNo : Nat} {text : List UInt8}
    {outcome : Option (WbootConfig × ConfigParseState)} (sound : AllocatorSound fw)
    (stored : Stored before data size config sizes settings) (flagged : Flagged state settings)
    (here : StringAt before.mem line text) (lower : data ≤ line)
    (upper : line + text.length ≤ data + size) (bounded : text.length + 1 < 2 ^ 63)
    (run : parseConfigLine fw config state line lineNo before = (outcome, after)) :
    (readLine settings text = none ∧ outcome = none ∧ NamesLine lineNo before after) ∨
      (outcome = none ∧ ¬ Served before after ∧ NamesNoLine before after) ∨
      ∃ next config' state' sizes', readLine settings text = some next ∧
        outcome = some (config', state') ∧ Stored after data size config' sizes' next ∧
        Flagged state' next ∧ Silent before after ∧
        ∀ x, data ≤ x → x < data + size → x < line ∨ line + text.length ≤ x →
          after.mem x = before.mem x := by
  have short : text.length < addressSpace := by rw [addressSpace_eq]; omega
  unfold readLine
  -- an ignored line, a key without a value, or a setting to apply
  rcases parseConfigLine_prepared short here run with
    ⟨ignored, rfl, rfl⟩ | ⟨counts, blank, none, named⟩ | ⟨counts, present, key, value, ready, cut, applies⟩
  · rw [if_pos ignored]
    exact Or.inr (Or.inr ⟨_, _, _, _, rfl, rfl, stored, flagged, Std.Refl.refl _, fun _ _ _ _ => rfl⟩)
  · rw [if_neg counts, if_pos blank]
    exact Or.inl ⟨rfl, none, named⟩
  rw [if_neg counts, if_neg present]
  obtain ⟨keyLength, valueLength, low, valuePresent⟩ := cut.inside
  have storedReady : Stored ready data size config sizes settings :=
    stored.inBuffer cut.state cut.writes lower upper
  have history : ready.history = before.history := by rw [cut.state]
  have console : ready.console = before.console := by rw [cut.state]
  have silent : Silent before ready := fun early => by rw [cut.state]; exact ⟨early, rfl⟩
  have settingRun := applySetting_run applies
  rw [cstring_at (Nat.lt_of_le_of_lt keyLength short) cut.keyHere] at settingRun
  unfold Settings.apply
  generalize keyNamed (keyText text) = named at settingRun
  -- an unknown key, a failed copy, a stored text or a mode
  cases settingRun with
  | unknown named => exact Or.inl ⟨rfl, rfl, named.preceded console⟩
  | refused field copied copies rest nameless =>
      obtain ⟨allocated, allocates, grown, -, -⟩ :=
        duplicate_copies sound storedReady.owned.early (by omega) cut.valueHere copies
      obtain ⟨status, reply, called, failed⟩ := allocates.refused rfl
      obtain ⟨events, later, -⟩ := rest.history
      -- the one refusal without a line number: the allocator failed, so the run was not served
      refine Or.inr (Or.inl ⟨rfl, fun served => ?_, nameless.preceded silent⟩)
      have success := served.member (by rw [later, grown, called, history])
      simp [granted, failed] at success
  | text field address copied held copies releases =>
      obtain ⟨⟨sizes', replaced⟩, same⟩ :=
        storedReady.replace sound (by omega) cut.valueHere held copies releases
      have quiet := IsTrans.trans _ _ _ silent (IsTrans.trans _ _ _
        ((duplicate_silent fw field value).run copies) ((free_silent fw _).run releases))
      refine Or.inr (Or.inr ⟨_, _, _, sizes', rfl, rfl, replaced, flagged.text field _, quiet, ?_⟩)
      exact fun x low high outside => (same x low high).trans (cut.writes x outside)
  | mode parsed parses =>
      rcases parseConfigMode_run valuePresent (by omega) cut.valueHere parses with
        ⟨none, rfl, named⟩ | ⟨mode, found, rfl, rewritten, writes⟩
      · exact Or.inl ⟨by simp [none], rfl, named.preceded console⟩
      have inside := storedReady.inBuffer rewritten writes (by omega) (by have := cut.upper; omega)
      have quiet : Silent ready after := fun early => by rw [rewritten]; exact ⟨early, rfl⟩
      refine Or.inr (Or.inr ⟨settings.setMode mode, withMode config mode, _, sizes, by simp [found], rfl, ?_,
        flagged.mode mode, IsTrans.trans _ _ _ silent quiet, ?_⟩)
      · have same (field : TextKey) : pointer (withMode config mode) field = pointer config field := by
          cases field <;> rfl
        refine ⟨inside.owned.congr same, fun field none => (same field).trans (inside.absent field none),
          fun field value set => same field ▸ inside.texts field value set, ?_⟩
        intro other set
        cases set
        rfl
      · intro x lowX highX outside
        refine (writes x ?_).trans (cut.writes x outside)
        have := cut.upper
        omega

end Line

/-! ### The lines -/
section Lines
variable {fw : Firmware} {before after : World} {data stop : Nat}

/-- The text that no call of the tokenizer has reached, and its lines. -/
structure Ahead (world : World) (data stop saveptr : Nat) (upcoming : List (List UInt8))
    (rest : List UInt8) : Prop where
  split : tokens isLf rest = upcoming
  pending : Pending world.mem saveptr rest stop
  low : saveptr ≠ 0 → data ≤ saveptr

/-- The line in hand and what is ahead of it. -/
structure Reading (world : World) (data stop line saveptr : Nat) (pieces : List (List UInt8))
    (rest : List UInt8) : Prop where
  fetched : Fetched world.mem saveptr line pieces.head?
  place : line ≠ 0 → data ≤ line ∧ ∀ word ∈ pieces.head?, line + word.length ≤ stop
  ahead : Ahead world data stop saveptr pieces.tail rest

/-- The tokenizer moves on to the next line. -/
theorem Ahead.next {str saveptr cursor : Nat} {pieces : List (List UInt8)} {rest : List UInt8}
    {token : Nat × Nat} (resume : (if str ≠ 0 then str else saveptr) = cursor)
    (ahead : Ahead before data stop cursor pieces rest) (bounded : stop - data < addressSpace)
    (run : nextToken str lineDelim saveptr before = (token, after)) :
    (∃ later, Reading after data stop token.1 token.2 pieces later) ∧
      after = { before with mem := after.mem } ∧ WritesIn before.mem after.mem data (stop - data) := by
  have short : rest.length < addressSpace := by
    rcases ahead.pending with ⟨-, ended⟩ | ⟨present, ends, -⟩
    · rw [ended, addressSpace_eq]
      exact Nat.two_pow_pos 64
    · have low := ahead.low present
      omega
  have room : cursor ≠ 0 → cursor ≤ stop := by
    intro present
    rcases ahead.pending with ⟨null, -⟩ | ⟨-, ends, -⟩
    · exact absurd null present
    · omega
  obtain ⟨later, step⟩ := nextToken_step resume ahead.pending short run
  rw [strchr_lf] at step
  refine ⟨⟨later, ?_⟩, step.state, fun x outside => step.frame x ?_⟩
  · constructor
    case fetched => exact ahead.split ▸ step.fetched
    case place =>
      intro present
      obtain ⟨above, below⟩ := step.place present
      refine ⟨?_, ahead.split ▸ below⟩
      by_cases null : cursor = 0
      · -- a finished tokenizer returns no line
        rcases ahead.pending with ⟨-, ended⟩ | ⟨resumed, -⟩
        · have none := step.fetched
          rw [ended, tokens_nil] at none
          exact absurd none present
        · exact absurd null resumed
      · exact Nat.le_trans (ahead.low null) above
    case ahead =>
      refine ⟨by rw [step.tail, ahead.split], step.pending, fun resumed => ?_⟩
      obtain ⟨present, above⟩ := step.low resumed
      have low := ahead.low present
      omega
  · by_cases null : cursor = 0
    · exact Or.inl null
    · have low := ahead.low null
      have high := room null
      exact Or.inr (by omega)

/-- Work on the line in hand stays off the text ahead. -/
theorem Reading.finished {line saveptr : Nat} {word : List UInt8} {pieces : List (List UInt8)}
    {rest : List UInt8} (reading : Reading before data stop line saveptr (word :: pieces) rest)
    (same : ∀ x, data ≤ x → x < stop + 1 → x < line ∨ line + word.length ≤ x →
      after.mem x = before.mem x) : Ahead after data stop saveptr pieces rest := by
  obtain ⟨-, -, -, behind⟩ := reading.fetched
  refine ⟨reading.ahead.split, ?_, reading.ahead.low⟩
  rcases reading.ahead.pending with ended | ⟨present, ends, here⟩
  · exact Or.inl ended
  · have past := behind present
    have low := reading.ahead.low present
    refine Or.inr ⟨present, ends, (stringAt_congr fun x lower upper => ?_).mpr here⟩
    exact same x (by omega) (by omega) (by omega)

/-- A line is refused and named, behind lines that are all accepted. -/
def RejectedAt (number : Nat) (pieces : List (List UInt8)) (before after : World) : Prop :=
  ∃ good bad tail, pieces = good ++ bad :: tail ∧ (∀ line ∈ good, Accepts line) ∧ ¬ Accepts bad ∧
    NamesLine (number + good.length) before after

theorem RejectedAt.next {middle : World} {number : Nat} {line : List UInt8} {pieces : List (List UInt8)}
    (accepts : Accepts line) (silent : Silent before middle) (early : before.bsExited = false)
    (rejected : RejectedAt (number + 1) pieces middle after) :
    RejectedAt number (line :: pieces) before after := by
  obtain ⟨good, bad, tail, rfl, accepted, refused, named⟩ := rejected
  refine ⟨line :: good, bad, tail, rfl, List.forall_mem_cons.mpr ⟨accepts, accepted⟩, refused, ?_⟩
  have count : number + 1 + good.length = number + (line :: good).length := by
    simp only [List.length_cons]
    omega
  rw [count] at named
  exact fun bounded => (named bounded).preceded (silent early).2

/-- The loop reads the lines as the grammar does, and names the one it refuses. -/
theorem parseLines_run {pieces : List (List UInt8)} {fuel line saveptr lineNo size : Nat}
    {config : WbootConfig} {sizes : TextKey → Nat} {settings : Settings} {state : ConfigParseState}
    {rest : List UInt8} {outcome : Except WbootConfig (WbootConfig × ConfigParseState)}
    (sound : AllocatorSound fw) (enough : pieces.length < fuel)
    (bounded : stop + 1 - data < 2 ^ 63) (ends : data ≤ stop) (room : stop + 1 ≤ data + size)
    (stored : Stored before data size config sizes settings) (flagged : Flagged state settings)
    (reading : Reading before data stop line saveptr pieces rest)
    (run : parseLines fw fuel config state line saveptr lineNo before = (outcome, after)) :
    (RejectedAt lineNo pieces before after ∧ ∃ fields, outcome = .error fields) ∨
      ((¬ Served before after ∧ NamesNoLine before after) ∧ ∃ fields, outcome = .error fields) ∨
      ∃ final config' state' sizes', readLines settings pieces = some final ∧
        outcome = .ok (config', state') ∧ Stored after data size config' sizes' final ∧
        Flagged state' final ∧ Silent before after := by
  -- on the lines that are still ahead; fuel, saved pointer and settings change with each of them
  induction pieces generalizing fuel line saveptr lineNo config sizes settings state rest before with
  | nil =>
      cases fuel with
      | zero => exact absurd enough (by simp)
      | succ fuel =>
          have ended : line = 0 := reading.fetched
          have stops : parseLines fw (fuel + 1) config state line saveptr lineNo before =
              (.ok (config, state), before) := by
            unfold parseLines
            rw [if_pos ended]
            rfl
          rw [stops] at run
          cases run
          exact Or.inr (Or.inr ⟨settings, config, state, sizes, rfl, rfl, stored, flagged, Std.Refl.refl _⟩)
  | cons word pieces ih =>
      cases fuel with
      | zero => exact absurd enough (by simp)
      | succ fuel =>
          obtain ⟨present, nonempty, here, behind⟩ := reading.fetched
          obtain ⟨low, high⟩ := reading.place present
          have inside := high word rfl
          unfold parseLines at run
          rw [if_neg present, run_bind] at run
          obtain ⟨parsed, middle, parses, run⟩ := run
          -- the run splits at this line, so that what the firmware served splits too
          have firstCalls := ((ordinary_loads fw).parseConfigLine config state present lineNo).run parses
          have restCalls : Calls ordinary middle after := by
            cases parsed with
            | none =>
                cases run
                exact Std.Refl.refl _
            | some parsed =>
                exact (((ordinary_loads fw).nextToken _ _ _).bind fun token =>
                  (ordinary_loads fw).parseLines _ _ _ _ _ _).run run
          have lineRun := parseConfigLine_run sound stored flagged here low (by omega) (by omega) parses
          -- a refused line is the rejected one: the lines before it were accepted
          rcases lineRun with ⟨refused, rfl, named⟩ | ⟨rfl, unserved, nameless⟩ |
            ⟨next, config', state', sizes', read, rfl, storedNext, flaggedNext, silent, same⟩
          · cases run
            have refuses : ¬ Accepts word := fun accepts => by
              simpa [refused] using (readLine_accepts settings word).mpr accepts
            exact Or.inl ⟨⟨[], word, pieces, rfl, by simp, refuses, named⟩, config, rfl⟩
          · cases run
            exact Or.inr (Or.inl ⟨⟨unserved, nameless⟩, config, rfl⟩)
          · dsimp only at run
            rw [run_bind] at run
            obtain ⟨token, moved, moves, run⟩ := run
            -- parsing rewrites this line only, so the tokenizer still sees the later ones
            have ahead := reading.finished fun x lower upper => same x lower (by omega)
            have wide : stop - data < addressSpace := by rw [addressSpace_eq]; omega
            obtain ⟨⟨later, readingNext⟩, rewritten, writes⟩ := ahead.next (if_neg (by simp)) wide moves
            have storedMoved := storedNext.inBuffer rewritten writes (Nat.le_refl data) (by omega)
            have tokenCalls := ((ordinary_loads fw).nextToken 0 lineDelim saveptr).run moves
            have loopCalls :=
              ((ordinary_loads fw).parseLines fuel config' state' token.1 token.2 (lineNo + 1)).run run
            have quiet : Silent before moved :=
              IsTrans.trans _ _ _ silent fun early => by rw [rewritten]; exact ⟨early, rfl⟩
            have accepts : Accepts word := (readLine_accepts settings word).mp (by rw [read]; rfl)
            have apart (served : Served before after) : Served moved after :=
              ((tokenCalls.split loopCalls).mp ((firstCalls.split restCalls).mp served).2).2
            rcases ih (by simpa using enough) storedMoved flaggedNext readingNext run with
              ⟨rejected, failed⟩ | ⟨⟨unserved, nameless⟩, failed⟩ |
              ⟨final, config', state', sizes', finish, done, storedEnd, flaggedEnd, silentEnd⟩
            · exact Or.inl ⟨rejected.next accepts quiet stored.owned.early, failed⟩
            · exact Or.inr (Or.inl ⟨⟨fun served => unserved (apart served), nameless.preceded quiet⟩, failed⟩)
            · exact Or.inr (Or.inr ⟨final, config', state', sizes', by simpa [readLines, read] using finish, done,
                storedEnd, flaggedEnd, IsTrans.trans _ _ _ quiet silentEnd⟩)

end Lines

/-! ### The file -/
section File
variable {fw : Firmware} {before middle step after : World} {root file : Nat} {content : List UInt8}

/-- A call that moves the position of an open file or ends its use. -/
def moves (file : Nat) : Event → Prop
  | .fileOpen _ _ _ other | .fileSetPosition other _ _ | .fileRead other _ _ _ | .fileClose other _ =>
      other = file
  | _ => False

/-- wboot.conf as it was opened: nothing has been read from it yet. -/
def JustOpened (fw : Firmware) (root : Nat) (history : History) (file : Nat) : Prop :=
  ∃ newer older, history = newer ++ .fileOpen root (wide "wboot.conf")
      (fw.fileOpen older root (wide "wboot.conf")).1 (fw.fileOpen older root (wide "wboot.conf")).2 :: older ∧
    (fw.fileOpen older root (wide "wboot.conf")).2 = file ∧ ∀ event ∈ newer, ¬ moves file event

/-- The volume has this content as its wboot.conf. -/
structure ServesConfig (fw : Firmware) (root : Nat) (content : List UInt8) : Prop where
  info : ∀ history file size buffer, JustOpened fw root history file →
    efiError (fw.fileGetInfo history file size buffer).status = false → sizeofEfiFileInfo ≤ size →
      fileSizeField.offset + fileSizeField.width ≤ (fw.fileGetInfo history file size buffer).info.length ∧
        fileSizeField.get (fun x => (fw.fileGetInfo history file size buffer).info.getD x 0) 0 =
          content.length
  read : ∀ history file size, JustOpened fw root history file →
    efiError (fw.fileRead history file size).1 = false →
      (fw.fileRead history file size).2.take size = content.take size

/-- The file stays at its start through calls that concern other things. -/
theorem JustOpened.calls (opened : JustOpened fw root before.history file)
    (calls : Calls (fun event => ¬ moves file event) before after) : JustOpened fw root after.history file := by
  obtain ⟨newer, older, split, same, quiet⟩ := opened
  obtain ⟨events, grown, still⟩ := calls.history
  refine ⟨events ++ newer, older, by rw [grown, split, List.append_assoc], same, ?_⟩
  exact List.forall_mem_append.mpr ⟨still, quiet⟩

/-- A call of a served run was granted. -/
theorem Served.called {event : Event} (served : Served before after) (early : Calls ordinary before middle)
    (called : step.history = event :: middle.history) (late : Calls ordinary step after) :
    granted event = true := by
  obtain ⟨earlier, first, -⟩ := early.history
  obtain ⟨later, last, -⟩ := late.history
  obtain ⟨events, same, kind⟩ := served.history
  have whole : after.history = (later ++ event :: earlier) ++ before.history := by
    rw [last, called, first, List.append_assoc, List.cons_append]
  rw [whole] at same
  have equal := List.append_cancel_right same
  exact kind event (equal ▸ by simp)

/-- What a string function sees of a file: a NUL ends it. -/
def textOf (content : List UInt8) : List UInt8 := content.takeWhile (· != 0)

theorem textOf_eq (text : ∀ c ∈ content, c ≠ 0) : textOf content = content :=
  List.takeWhile_eq_self_iff.mpr fun c member => by simpa using text c member

theorem textOf_nonzero (content : List UInt8) : ∀ c ∈ textOf content, c ≠ 0 :=
  fun _ member => by simpa using List.mem_takeWhile_imp member

theorem textOf_length_le (content : List UInt8) : (textOf content).length ≤ content.length :=
  (List.takeWhile_prefix _).length_le

/-- The string at the start of a terminated file. -/
theorem stringAt_textOf {memory : Memory} {p : Nat} (here : TextAt memory p content)
    (ended : memory (p + content.length) = 0) : StringAt memory p (textOf content) := by
  refine (stringAt_iff _ _ _).mpr ⟨?_, textOf_nonzero content, ?_⟩
  · rw [← List.takeWhile_append_dropWhile (p := (· != 0)) (l := content), textAt_append] at here
    exact here.1
  · cases rest : content.dropWhile (· != 0) with
    | nil =>
        have whole : textOf content = content := by
          have parts := List.takeWhile_append_dropWhile (p := (· != (0 : UInt8))) (l := content)
          rwa [rest, List.append_nil] at parts
        rw [whole]
        exact ended
    | cons c later =>
        have null : c = 0 := by
          have stops := List.head?_dropWhile_not (· != (0 : UInt8)) content
          rw [rest] at stops
          simpa using stops
        rw [← List.takeWhile_append_dropWhile (p := (· != 0)) (l := content), rest, textAt_append] at here
        exact here.2.1.trans null

/-- A loaded buffer: the text and its terminator in one block. -/
structure Loaded (data size : Nat) (content : List UInt8) (world : World) : Prop where
  early : world.bsExited = false
  present : data ≠ 0
  block : ⟨.pool, data, size⟩ ∈ live world.history
  room : content.length + 1 ≤ size
  here : StringAt world.mem data content

/-- Not refused, an allocation is there. -/
theorem Served.allocated {size pointer : Nat} {start : World} (served : Served start after)
    (early : Calls ordinary start before) (allocates : Allocates size pointer before middle)
    (late : pointer = 0 → Calls ordinary middle after) : pointer ≠ 0 := by
  intro null
  obtain ⟨status, reply, called, failed⟩ := allocates.refused null
  have success := served.called early called (late null)
  simp [granted, failed] at success

theorem fileGetInfo_run {size buffer : Nat} {reply : FileInfoReply}
    (run : fileGetInfo fw file size buffer before = (reply, after)) :
    reply = fw.fileGetInfo before.history file size buffer ∧ after.bsExited = before.bsExited ∧
      after.history = .fileGetInfo file size buffer reply.status :: before.history ∧
      (buffer ≠ 0 → after.mem = storeBytes before.mem buffer (reply.info.take size)) := by
  unfold fileGetInfo at run
  rw [run_bind] at run
  obtain ⟨_, _, called, run⟩ := run
  rw [service_apply] at called
  cases called
  rw [run_ite] at run
  rcases run with ⟨present, run⟩ | ⟨null, run⟩
  · cases run
    exact ⟨rfl, rfl, rfl, fun _ => rfl⟩
  · cases run
    exact ⟨rfl, rfl, rfl, fun present => absurd present null⟩

theorem fileReadInto_run {size buffer : Nat} {reply : EfiStatus × Nat}
    (run : fileReadInto fw file size buffer before = (reply, after)) :
    let delivered := (fw.fileRead before.history file size).2.take size
    reply = ((fw.fileRead before.history file size).1, delivered.length) ∧
      after.bsExited = before.bsExited ∧
      after.history = .fileRead file size reply.1 reply.2 :: before.history ∧
      after.mem = storeBytes before.mem buffer delivered := by
  cases run
  exact ⟨rfl, rfl, rfl, rfl⟩

/-- `FileSize` of the delivered information. -/
theorem fileSize_delivered (memory : Memory) (buffer : Nat) (info : List UInt8)
    (long : fileSizeField.offset + fileSizeField.width ≤ info.length) :
    fileSizeField.get (storeBytes memory buffer info) buffer =
      fileSizeField.get (fun x => info.getD x 0) 0 := by
  unfold Field.get
  rw [load_shift, Nat.zero_add]
  refine load_congr fun x lower upper => ?_
  exact storeBytes_at memory buffer info x (by omega)

theorem fileGetInfo_silent (size buffer : Nat) : Relates Silent (fileGetInfo fw file size buffer) :=
  (service_silent _ _).bind fun _ => .ite (fun _ => (inRam_silent _).bind fun _ => .pure _) fun _ => .pure _

theorem fileReadInto_silent (size buffer : Nat) : Relates Silent (fileReadInto fw file size buffer) := by
  intro world early
  exact ⟨early, rfl⟩

theorem fileGetInfo_unmoved (size buffer : Nat) :
    Relates (Calls fun event => ¬ moves file event) (fileGetInfo fw file size buffer) :=
  (service_calls _ _ fun _ => id).bind fun _ => .ite (fun _ => (inRam_calls _).bind fun _ => .pure _) fun _ => .pure _

theorem informing_calls (steps : Informing fw file before) : Calls ordinary before steps.freed :=
  steps.relates (ordinary_absorbs fw).malloc (fileGetInfo_ordinary fw file) (ordinary_absorbs fw).free

theorem informing_silent (steps : Informing fw file before) : Silent before steps.freed :=
  steps.relates (malloc_silent fw) fileGetInfo_silent (free_silent fw)

theorem informing_unmoved (steps : Informing fw file before) :
    Calls (fun event => ¬ moves file event) before steps.freed :=
  steps.relates (malloc_calls fw fun _ _ _ => id) fileGetInfo_unmoved (free_calls fw fun _ _ => id)

/-- The information that was asked for states the size of the file. -/
theorem informing_sized (serves : ServesConfig fw root content) (opened : JustOpened fw root before.history file)
    (steps : Informing fw file before) : steps.size = content.length := by
  have informed := opened.calls ((malloc_calls fw (fun _ _ _ => id) _).run steps.allocation)
  obtain ⟨replied, -, -, delivered⟩ := fileGetInfo_run steps.asks
  obtain ⟨long, same⟩ := serves.info _ file configInfoSize steps.fileInfo informed (replied ▸ steps.told) (by decide)
  rw [← replied] at long same
  rw [Informing.size, delivered steps.present, fileSize_delivered, ← same]
  · refine load_congr fun x lower upper => ?_
    have inside : x < configInfoSize := Nat.lt_of_lt_of_le upper (by decide)
    simp [List.getD_eq_getElem?_getD, inside]
  · rw [List.length_take]
    exact Nat.le_min.mpr ⟨by decide, long⟩

theorem filling_calls (steps : Filling fw file before) : Calls ordinary before steps.allocated :=
  IsTrans.trans _ _ _ (informing_calls steps.toInforming) (((ordinary_absorbs fw).malloc _).run steps.reserves)

theorem filling_silent (steps : Filling fw file before) : Silent before steps.read := by
  have reserving := (malloc_silent fw _).run steps.reserves
  have reading := (fileReadInto_silent _ _).run steps.reads
  exact IsTrans.trans _ _ _ (informing_silent steps.toInforming) (IsTrans.trans _ _ _ reserving reading)

/-- A read that is served delivers the content. -/
theorem filling_delivers (serves : ServesConfig fw root content) (opened : JustOpened fw root before.history file)
    (steps : Filling fw file before) (served : efiError steps.result.1 = false) :
    steps.result.2 = content.length ∧ steps.read.mem = storeBytes steps.allocated.mem steps.data content := by
  have sized := informing_sized serves opened steps.toInforming
  have freed := opened.calls (informing_unmoved steps.toInforming)
  have reserved := freed.calls ((malloc_calls fw (fun _ _ _ => id) _).run steps.reserves)
  obtain ⟨answered, -, -, written⟩ := fileReadInto_run steps.reads
  rw [sized] at answered written
  have whole : (fw.fileRead steps.allocated.history file content.length).2.take content.length = content := by
    rw [serves.read _ file content.length reserved (by rw [answered] at served; exact served), List.take_length]
  rw [whole] at answered written
  exact ⟨congrArg Prod.snd answered, written⟩

theorem readConfigData_run {outcome : Option Nat} (sound : AllocatorSound fw) (early : before.bsExited = false)
    (bounded : content.length + 1 < 2 ^ 63)
    (serves : ServesConfig fw root content) (opened : JustOpened fw root before.history file)
    (run : readConfigData fw file before = (outcome, after)) :
    (outcome = none ∧ ¬ Served before after ∧ NamesNoLine before after) ∨
      ∃ data, outcome = some data ∧ Loaded data (content.length + 1) (textOf content) after ∧
        Silent before after := by
  have absorbs := ordinary_absorbs fw
  have nameless {middle : World} {text : List UInt8} (silent : Silent before middle)
      (told : Opens text middle after) (clash : Clash text lineStart) : NamesNoLine before after :=
    Opens.namesNoLine (IsTrans.trans _ _ _ silent.opens told) clash
  have freed {text : List UInt8} {ptr : Nat} {told : World} (frees : free fw ptr told = ((), after)) :
      Opens text told after := (silent_opens (free_silent fw _) _).run frees
  -- each course but the last fails because one service did, which a serving firmware excludes
  cases readConfigData_course fw run with
  | uninformed allocation tells =>
      have late := (absorbs.perror _ _).run tells
      have told := (perror_opens fw _ _).run tells
      refine Or.inl ⟨rfl, fun served => ?_, nameless ((malloc_silent fw _).run allocation) told (by decide +kernel)⟩
      exact served.allocated (Std.Refl.refl _) (malloc_allocates fw sound early allocation) (fun _ => late) rfl
  | unasked allocation present asks failed tells frees =>
      have calls := (absorbs.malloc _).run allocation
      have silent := IsTrans.trans _ _ _ ((malloc_silent fw _).run allocation) ((fileGetInfo_silent _ _).run asks)
      have late := IsTrans.trans _ _ _ ((absorbs.perror _ _).run tells) ((absorbs.free _).run frees)
      have told := IsTrans.trans _ _ _ ((perror_opens fw _ _).run tells) (freed frees)
      obtain ⟨-, -, called, -⟩ := fileGetInfo_run asks
      refine Or.inl ⟨rfl, fun served => ?_, nameless silent told (by decide +kernel)⟩
      have success := served.called calls called late
      simp [granted, failed] at success
  | unbuffered steps reserves tells =>
      have silent := IsTrans.trans _ _ _ (informing_silent steps) ((malloc_silent fw _).run reserves)
      have late := (absorbs.perror _ _).run tells
      have told := (perror_opens fw _ _).run tells
      have buffer := malloc_allocates fw sound ((informing_calls steps).bsExited.trans early) reserves
      refine Or.inl ⟨rfl, fun served => ?_, nameless silent told (by decide +kernel)⟩
      exact served.allocated (informing_calls steps) buffer (fun _ => late) rfl
  | unread steps failed tells frees =>
      have late := IsTrans.trans _ _ _ ((absorbs.perror _ _).run tells) ((absorbs.free _).run frees)
      have told := IsTrans.trans _ _ _ ((perror_opens fw _ _).run tells) (freed frees)
      obtain ⟨-, -, called, -⟩ := fileReadInto_run steps.reads
      refine Or.inl ⟨rfl, fun served => ?_, nameless (filling_silent steps) told (by decide +kernel)⟩
      have success := served.called (filling_calls steps) called late
      simp [granted, failed] at success
  | short steps served different =>
      obtain ⟨length, -⟩ := filling_delivers serves opened steps served
      exact absurd (length.trans (informing_sized serves opened steps.toInforming).symm) different
  | whole steps served same =>
      obtain ⟨length, written⟩ := filling_delivers serves opened steps served
      obtain ⟨-, exited, called, -⟩ := fileReadInto_run steps.reads
      have still := (informing_calls steps.toInforming).bsExited.trans early
      have buffer := malloc_allocates fw sound still steps.reserves
      -- the size and its terminator fit into 64 bits
      have wraps : u64 (steps.size + 1) = content.length + 1 := by
        rw [informing_sized serves opened steps.toInforming]
        exact Nat.mod_eq_of_lt (by omega)
      rw [wraps] at buffer
      rw [length]
      refine Or.inr ⟨steps.data, rfl, ⟨?_, steps.there, ?_, Nat.succ_le_succ (textOf_length_le content), ?_⟩,
        filling_silent steps⟩
      · exact exited.trans (buffer.bsExited.trans still)
      · have lives : live steps.read.history = live steps.allocated.history := by rw [called]; rfl
        exact lives ▸ buffer.lives steps.there ▸ List.mem_cons_self
      · -- the terminator is behind the content
        refine stringAt_textOf ?_ (poke_same _ _ _)
        refine (textAt_congr ((poke_writesIn _ _ _).sameOn (Or.inr (Nat.le_refl _)))).mpr ?_
        exact written ▸ textAt_storeBytes _ _ _

theorem printMissing_opens (fw : Firmware) (state : ConfigParseState) :
    Relates (Opens (ascii "error parsing wboot.conf: ")) (printMissing fw state) := by
  have start : narrowed (wide "error parsing wboot.conf: ") = ascii "error parsing wboot.conf: " := by
    decide +kernel
  have message (present : Bool) {format : List UInt16} (starts : wide "error parsing wboot.conf: " <+: format) :
      Relates (Opens (ascii "error parsing wboot.conf: ")) (printIfMissing fw present format) :=
    .ite (fun _ => start ▸ printf_opens fw (by decide +kernel) starts []) fun _ => .pure ()
  exact (message _ (by decide +kernel)).bind fun _ => (message _ (by decide +kernel)).bind fun _ =>
    (message _ (by decide +kernel)).bind fun _ => message _ (by decide +kernel)

theorem parseConfigData_run {data size : Nat} {outcome : Except WbootConfig WbootConfig}
    (sound : AllocatorSound fw) (bounded : content.length + 1 < 2 ^ 63)
    (loaded : Loaded data size content before)
    (run : parseConfigData fw root data before = (outcome, after)) :
    (RejectedAt 1 (tokens isLf content) before after ∧ ∃ fields, outcome = .error fields) ∨
      ((Served before after → ¬ Grammar content) ∧ NamesNoLine before after ∧
        ∃ fields, outcome = .error fields) ∨
      ∃ final config sizes, readLines noSettings (lines content) = some final ∧
        (∀ key, final.given key = true) ∧ outcome = .ok config ∧
        Stored after data size config sizes final := by
  have room := loaded.room
  have stop : data + content.length + 1 - data = content.length + 1 := by omega
  unfold parseConfigData at run
  rw [run_bind] at run
  obtain ⟨token, cut, cuts, run⟩ := run
  have tokenCalls := ((ordinary_loads fw).nextToken data lineDelim 0).run cuts
  have ahead : Ahead before data (data + content.length) data (tokens isLf content) content :=
    ⟨rfl, Or.inr ⟨loaded.present, rfl, loaded.here⟩, fun _ => Nat.le_refl data⟩
  have wide : data + content.length - data < addressSpace := by rw [addressSpace_eq]; omega
  obtain ⟨⟨rest, reading⟩, rewritten, writes⟩ := ahead.next (if_pos loaded.present) wide cuts
  -- no field is set yet, so every condition on a held field is void
  have stored : Stored before data size (emptyConfig root) (fun _ => 0) noSettings := by
    have absent (field : TextKey) : pointer (emptyConfig root) field = 0 := by cases field <;> rfl
    refine ⟨?_, fun field _ => absent field, fun field value set => by simp [noSettings] at set,
      fun mode set => by simp [noSettings] at set⟩
    constructor
    case early => exact loaded.early
    case present => exact loaded.present
    case buffer => exact loaded.block
    case blocks => exact fun field held => absurd (absent field) held
    case apart => exact fun field held => absurd (absent field) held
    case foreign => exact fun field same => loaded.present (same.symm.trans (absent field))
    case distinct => exact fun field other _ held => absurd (absent field) held
  have storedCut := stored.inBuffer rewritten writes (Nat.le_refl data) (by omega)
  have flagged : Flagged ⟨false, false, false, false⟩ noSettings := by
    rintro (field | -)
    · cases field <;> rfl
    · rfl
  dsimp only at run
  rw [run_bind] at run
  obtain ⟨parsed, read, reads, run⟩ := run
  have loopCalls := ((ordinary_loads fw).parseLines _ _ _ _ _ _).run reads
  have restCalls : Calls ordinary read after := by
    cases parsed with
    | error config => exact Relates.run (.pure _) run
    | ok parsed =>
        exact Relates.run
          (.ite (fun _ => .pure _) fun _ => ((ordinary_loads fw).printMissing _).bind fun _ => .pure _) run
  have apart (served : Served before after) : Served cut read :=
    ((loopCalls.split restCalls).mp ((tokenCalls.split
      (IsTrans.trans _ _ _ loopCalls restCalls)).mp served).2).1
  have silent : Silent before cut := fun early => by rw [rewritten]; exact ⟨early, rfl⟩
  -- the loop is given more rounds than the text can have lines
  have few : (tokens isLf content).length < addressSpace := by
    have count := @tokens_count_le _ isLf content
    rw [addressSpace_eq]
    omega
  have loop := parseLines_run sound few (by rw [stop]; exact bounded) (Nat.le_add_right _ _) (by omega)
    storedCut flagged reading reads
  rw [readLines_tokens] at loop
  -- a rejected line, a firmware failure, or all lines read and only the keys left to check
  rcases loop with ⟨rejected, fields, rfl⟩ | ⟨⟨unserved, nameless⟩, fields, rfl⟩ |
    ⟨final, config, state, sizes, accepted, rfl, storedEnd, flaggedEnd, quiet⟩
  · cases run
    obtain ⟨good, bad, tail, split, accepts, refused, named⟩ := rejected
    refine Or.inl ⟨⟨good, bad, tail, split, accepts, refused, named.preceded ?_⟩, fields, rfl⟩
    rw [rewritten]
  · cases run
    exact Or.inr (Or.inl ⟨fun served => absurd (apart served) unserved, nameless.preceded silent, fields, rfl⟩)
  · dsimp only at run
    -- the four flags of the parser are the four keys of the settings
    have all : (state.hasKernel && state.hasInitrd && state.hasCmdline && state.hasMode) = true ↔
        ∀ key, final.given key = true := by
      simp only [← flaggedEnd _, Bool.and_eq_true]
      constructor
      · rintro ⟨⟨⟨kernel, initrd⟩, cmdline⟩, mode⟩ (field | -)
        · cases field <;> assumption
        · exact mode
      · exact fun flags => ⟨⟨⟨flags (.text .kernel), flags (.text .initrd)⟩, flags (.text .cmdline)⟩, flags .mode⟩
    rw [run_ite] at run
    rcases run with ⟨complete, run⟩ | ⟨missing, run⟩
    · cases run
      exact Or.inr (Or.inr ⟨final, config, sizes, accepted, all.mp complete, rfl, storedEnd⟩)
    · have told := Relates.run ((printMissing_opens fw state).bind fun _ => .pure _) run
      have before_read := IsTrans.trans _ _ _ silent quiet
      refine Or.inr (Or.inl ⟨fun _ grammar => ?_, Opens.namesNoLine
        (IsTrans.trans _ _ _ before_read.opens told) (by decide +kernel), config, (congrArg Prod.fst run).symm⟩)
      obtain ⟨other, same, given⟩ := (grammar_iff content).mp grammar
      cases accepted.symm.trans same
      exact missing (all.mpr given)

/-- The fields are those of the last line of each key. -/
structure HoldsLast (content : List UInt8) (config : WbootConfig) (memory : Memory) : Prop where
  text : ∀ field, ∃ line, lastLine (.text field) content = some line ∧
    TextAt memory (pointer config field) (encoded field (valueText line))
  mode : ∃ line, lastLine .mode content = some line ∧ modeOf (valueText line) = some (configMode config)

theorem Stored.holdsLast {data size : Nat} {config : WbootConfig} {sizes : TextKey → Nat} {final : Settings}
    {world : World} (stored : Stored world data size config sizes final)
    (accepted : readLines noSettings (lines content) = some final) (given : ∀ key, final.given key = true) :
    HoldsLast content config world.mem := by
  constructor
  · intro field
    obtain ⟨value, set⟩ := Option.isSome_iff_exists.mp (given (.text field))
    obtain ⟨-, -, here⟩ := stored.texts field value set
    rw [readLines_text accepted, Option.map_eq_some_iff] at set
    obtain ⟨line, last, rfl⟩ := set
    exact ⟨line, last, here⟩
  · obtain ⟨mode, set⟩ := Option.isSome_iff_exists.mp (given .mode)
    have same := stored.mode mode set
    rw [readLines_mode accepted, Option.bind_eq_some_iff] at set
    obtain ⟨line, last, found⟩ := set
    exact ⟨line, last, same ▸ found⟩

/-- How a load ends: a line of the file is refused and named, something else is
wrong and no line is named, or the configuration is there. -/
inductive LoadRun (content : List UInt8) (before after : World) : Option WbootConfig → Prop
  | rejected (line : RejectedAt 1 (tokens isLf content) before after) : LoadRun content before after none
  | failed (cause : Served before after → ¬ Grammar content) (nameless : NamesNoLine before after) :
      LoadRun content before after none
  | loaded (config : WbootConfig) (grammar : Grammar content) (holds : HoldsLast content config after.mem) :
      LoadRun content before after (some config)

theorem RejectedAt.not_grammar (rejected : RejectedAt 1 (tokens isLf content) before after) :
    ¬ Grammar content := by
  obtain ⟨good, bad, tail, split, -, refused, -⟩ := rejected
  have member : bad ∈ tokens isLf content := by simp [split]
  exact fun grammar => refused (grammar.1 bad (List.mem_of_mem_filter member))

theorem opening_calls (steps : Opening fw root before) : Calls ordinary before steps.opened := by
  have opening : Relates (Calls ordinary) (fileOpen fw root (wide "wboot.conf")) :=
    service_calls _ _ fun reply => by simp [ordinary]
  exact IsTrans.trans _ _ _ (((ordinary_absorbs fw).malloc _).run steps.allocation) (opening.run steps.opens)

theorem opening_silent (steps : Opening fw root before) : Silent before steps.opened := by
  have opening : Relates Silent (fileOpen fw root (wide "wboot.conf")) := service_silent _ _
  exact IsTrans.trans _ _ _ ((malloc_silent fw _).run steps.allocation) (opening.run steps.opens)

theorem opening_fresh (steps : Opening fw root before) :
    JustOpened fw root steps.opened.history steps.reply.2 := by
  have opens : ∀ {reply : EfiStatus × Nat} {world : World},
      fileOpen fw root (wide "wboot.conf") steps.allocated = (reply, world) →
        JustOpened fw root world.history reply.2 := by
    intro reply world opens
    cases opens
    exact ⟨[], steps.allocated.history, rfl, rfl, by simp⟩
  exact opens steps.opens

theorem wbootLoadConfig_run {world : World} {outcome : Option WbootConfig} (sound : AllocatorSound fw)
    (early : world.bsExited = false) (bounded : content.length + 1 < 2 ^ 63)
    (serves : ServesConfig fw root content) (run : wbootLoadConfig fw root world = (outcome, after)) :
    LoadRun (textOf content) world after outcome := by
  have shorter := textOf_length_le content
  have absorbs := ordinary_absorbs fw
  have closes (file : Nat) : Relates (Calls ordinary) (fileClose fw file) := service_calls _ _ fun _ => trivial
  have closesSilent (file : Nat) : Relates Silent (fileClose fw file) := service_silent _ _
  have quiet (silent : Silent world after) : NamesNoLine world after := by
    have opens : Opens (ascii "none") world after := silent.opens
    exact Opens.namesNoLine opens (by decide)
  -- every early return is silent or names no line
  cases wbootLoadConfig_course fw run with
  | scarce allocation =>
      refine .failed (fun served => ?_) (quiet ((malloc_silent fw _).run allocation))
      have allocates := malloc_allocates fw sound early allocation
      exact absurd rfl (served.allocated (Std.Refl.refl _) allocates fun _ => Std.Refl.refl _)
  | unopened steps failed frees =>
      have silent := IsTrans.trans _ _ _ (opening_silent steps) ((free_silent fw _).run frees)
      refine .failed (fun served => ?_) (quiet silent)
      have called : steps.opened.history = .fileOpen root (wide "wboot.conf") steps.reply.1 steps.reply.2 ::
          steps.allocated.history := by
        obtain ⟨block, reply, allocated, opened, allocation, present, opens⟩ := steps
        cases opens
        rfl
      have success := served.called ((absorbs.malloc _).run steps.allocation) called ((absorbs.free _).run frees)
      simp [granted, failed] at success
  | unread steps openable reads closing frees =>
      have still := (opening_calls steps).bsExited.trans early
      have reading := ((ordinary_loads fw).readConfigData _).run reads
      rcases readConfigData_run sound still bounded serves (opening_fresh steps) reads with
        ⟨-, unserved, nameless⟩ | ⟨data, done, -⟩
      · have late := IsTrans.trans _ _ _ ((closes _).run closing) ((absorbs.free _).run frees)
        have silent := IsTrans.trans _ _ _ ((closesSilent _).run closing) ((free_silent fw _).run frees)
        refine .failed (fun served => absurd ?_ unserved) ?_
        · exact ((reading.split late).mp (((opening_calls steps).split (IsTrans.trans _ _ _ reading late)).mp served).2).1
        · exact (nameless.followed (silent (reading.bsExited.trans still)).2).preceded (opening_silent steps)
      · cases done
  | refused steps openable reads parses undoes =>
      have reading := ((ordinary_loads fw).readConfigData _).run reads
      have parsing := ((ordinary_loads fw).parseConfigData _ _).run parses
      have still := (opening_calls steps).bsExited.trans early
      rcases readConfigData_run sound still bounded serves (opening_fresh steps) reads with
        ⟨done, -⟩ | ⟨_, same, loaded, silent⟩
      · cases done
      cases same
      have reached := IsTrans.trans _ _ _ (opening_silent steps) silent
      have undone := undoes.relates (free_silent fw) closesSilent (parsing.bsExited.trans loaded.early)
      have late := undoes.relates absorbs.free closes
      rcases parseConfigData_run sound (by omega) loaded parses with
        ⟨rejected, -⟩ | ⟨cause, nameless, -⟩ | ⟨_, _, _, _, _, done, _⟩
      · obtain ⟨good, bad, tail, split, accepts, refused, named⟩ := rejected
        -- the cleanup behind the message prints nothing
        refine .rejected ⟨good, bad, tail, split, accepts, refused, fun bounded => ?_⟩
        refine ((named bounded).followed ⟨[], ?_⟩).preceded (reached early).2
        rw [undone.2, List.append_nil]
      · refine .failed (fun served => cause ?_) ((nameless.followed undone.2).preceded reached)
        have rest := IsTrans.trans _ _ _ parsing late
        have served := (((opening_calls steps).split (IsTrans.trans _ _ _ reading rest)).mp served).2
        exact ((parsing.split late).mp ((reading.split rest).mp served).2).1
      · cases done
  | loaded steps openable reads parses frees closing =>
      have still := (opening_calls steps).bsExited.trans early
      rcases readConfigData_run sound still bounded serves (opening_fresh steps) reads with
        ⟨done, -⟩ | ⟨_, same, loaded, -⟩
      · cases done
      cases same
      rcases parseConfigData_run sound (by omega) loaded parses with
        ⟨-, _, done⟩ | ⟨-, -, _, done⟩ | ⟨final, config, sizes, accepted, given, same, stored⟩
      · cases done
      · cases done
      cases same
      -- only the text buffer is freed: the copied values stay
      have released := free_releases fw stored.owned.early frees
      have holds := stored.holdsLast accepted given
      rw [← congrArg Ram.mem released.ram] at holds
      cases closing
      exact .loaded _ ((grammar_iff _).mpr ⟨final, accepted, given⟩) holds

/-- A file without a NUL is its own text. -/
theorem wbootLoadConfig_whole {world : World} {outcome : Option WbootConfig} (sound : AllocatorSound fw)
    (early : world.bsExited = false) (text : ∀ c ∈ content, c ≠ 0) (bounded : content.length + 1 < 2 ^ 63)
    (serves : ServesConfig fw root content) (run : wbootLoadConfig fw root world = (outcome, after)) :
    LoadRun content world after outcome := by
  have load := wbootLoadConfig_run sound early bounded serves run
  rwa [textOf_eq text] at load

/-- Once everything is granted, only the text decides. -/
theorem LoadRun.served {world : World} {outcome : Option WbootConfig}
    (load : LoadRun content world after outcome) (served : Served world after) :
    (outcome ≠ none ↔ Grammar content) ∧
      ∀ config, outcome = some config → HoldsLast content config after.mem := by
  cases load with
  | rejected line =>
      exact ⟨⟨fun present => absurd rfl present, fun grammar => absurd grammar line.not_grammar⟩, by simp⟩
  | failed cause nameless =>
      exact ⟨⟨fun present => absurd rfl present, fun grammar => absurd grammar (cause served)⟩, by simp⟩
  | loaded config grammar holds =>
      refine ⟨⟨fun _ => grammar, fun _ => by simp⟩, fun other equal => ?_⟩
      cases equal
      exact holds

end File

/-- The loader returns a configuration exactly for the texts of the grammar, and
then the one that the last line of each key describes. The bound is far above the
memory of any x86-64 machine; past it the sizes passed to malloc wrap around. -/
theorem wbootLoadConfig_grammar (fw : Firmware) (root : Nat) (content : List UInt8) (world : World)
    (sound : AllocatorSound fw) (early : world.bsExited = false) (text : ∀ c ∈ content, c ≠ 0)
    (bounded : content.length + 1 < 2 ^ 63) (serves : ServesConfig fw root content)
    (served : Served world (wbootLoadConfig fw root world).2) :
    ((wbootLoadConfig fw root world).1 ≠ none ↔ Grammar content) ∧
      ∀ config, (wbootLoadConfig fw root world).1 = some config →
        HoldsLast content config (wbootLoadConfig fw root world).2.mem :=
  (wbootLoadConfig_whole sound early text bounded serves Prod.mk.eta.symm).served served

/-! The volume of the disk serves its configuration, which sets every key once. -/

theorem diskFirmware_sound : AllocatorSound diskFirmware where
  pool := idleFirmware_sound.pool
  pages := idleFirmware_sound.pages
  text := idleFirmware_sound.text
  atAddress := idleFirmware_sound.atAddress

theorem diskFirmware_serves : ServesConfig diskFirmware 1 confText where
  info := by
    rintro history file size buffer ⟨newer, older, -, rfl, -⟩ - room
    have asked : size ≠ 0 := by
      have : 0 < sizeofEfiFileInfo := by decide
      omega
    simp only [diskFirmware, asked, ↓reduceIte]
    exact ⟨by decide, by decide⟩
  read := by
    rintro history file size ⟨newer, older, -, rfl, -⟩ -
    rfl

theorem infoOf_length (size : Nat) : (infoOf size).length = 88 := by
  simp [infoOf, bytesAt]

theorem infoOf_size {size : Nat} (bounded : size < 2 ^ 64) :
    fileSizeField.get (fun x => (infoOf size).getD x 0) 0 = size := by
  have same : SameOn (fun x => (infoOf size).getD x 0) (store (fun _ => 0) 8 8 size) (0 + 8) 8 := by
    intro x lower upper
    have inside : x < 88 := by omega
    simp [infoOf, bytesAt, inside]
  have stored := load_store_same (fun _ => 0) 8 8 size
  unfold Field.get
  exact (load_congr same).trans (stored.trans (Nat.mod_eq_of_lt (by omega)))

/-- The disk with another configuration. -/
def confDisk (content : List UInt8) : Firmware := { diskFirmware with
  fileGetInfo := fun _ _ size _ =>
    if size = 0 then ⟨efiBufferTooSmall, 88, []⟩ else ⟨efiSuccess, 88, infoOf content.length⟩
  fileRead := fun _ _ _ => (efiSuccess, content) }

theorem confDisk_sound (content : List UInt8) : AllocatorSound (confDisk content) :=
  ⟨idleFirmware_sound.pool, idleFirmware_sound.pages, idleFirmware_sound.text, idleFirmware_sound.atAddress⟩

theorem confDisk_serves {content : List UInt8} (bounded : content.length < 2 ^ 64) :
    ServesConfig (confDisk content) 1 content where
  info := by
    rintro history file size buffer - - room
    have asked : size ≠ 0 := by
      have : 0 < sizeofEfiFileInfo := by decide
      omega
    simp only [confDisk, asked, ↓reduceIte]
    exact ⟨by rw [infoOf_length]; decide, infoOf_size bounded⟩
  read := fun _ _ _ _ _ => rfl

theorem disk_config_loaded :
    Grammar confText ∧ ∃ config, (wbootLoadConfig diskFirmware 1 bootWorld).1 = some config ∧
      HoldsLast confText config (wbootLoadConfig diskFirmware 1 bootWorld).2.mem := by
  have served : Served bootWorld (wbootLoadConfig diskFirmware 1 bootWorld).2 :=
    ⟨by decide +kernel, _, (List.append_nil _).symm, by decide +kernel⟩
  have grammar := wbootLoadConfig_grammar diskFirmware 1 confText bootWorld diskFirmware_sound rfl (by decide)
    (by decide) diskFirmware_serves served
  have present : (wbootLoadConfig diskFirmware 1 bootWorld).1.isSome = true := by decide +kernel
  obtain ⟨config, same⟩ := Option.isSome_iff_exists.mp present
  exact ⟨grammar.1.mp (by simp [same]), config, same, grammar.2 config same⟩

end Wboot.ConfigLoad
