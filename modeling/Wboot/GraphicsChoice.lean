import Wboot.GraphicsEffects
import Wboot.ScreenInfo

/-! Which display `wboot_setup_graphics` works on, and which mode it sets. Both searches
of the source stop at their first hit; here every handle and every mode is asked, and
the first hit is looked for among the answers. -/

namespace Wboot.GraphicsChoice
open StateProgram ByteMemory Machine LinuxBoot Wstdlib Effects ConfigParser Graphics GraphicsEffects
  ScreenInfo

/-! ### What the firmware answers -/

/-- A handle and what the firmware says of it. -/
structure Surveyed where
  handle : Nat
  gop : Nat
  usable : Bool
  console : Bool

section Asking
variable (fw : Firmware)

def surveyHandle (h : Nat) (history : History) : Surveyed × History :=
  let gop := fw.handleProtocol history h .graphicsOutput
  let asked := .handleProtocol h .graphicsOutput gop.1 :: history
  if gop.1 ≠ efiSuccess ∨ hasFramebuffer (fw.gopMode asked gop.2).info = false then
    (⟨h, gop.2, false, false⟩, asked)
  else
    let console := fw.handleProtocol asked h .simpleTextOutput
    (⟨h, gop.2, true, decide (console.1 = efiSuccess)⟩, .handleProtocol h .simpleTextOutput console.1 :: asked)

def survey : List Nat → History → List Surveyed
  | [], _ => []
  | h :: rest, history => (surveyHandle fw h history).1 :: survey rest (surveyHandle fw h history).2

/-- The calls made by the time the search is over. -/
def searchHistory : List Nat → History → History
  | [], history => history
  | h :: rest, history =>
      if (surveyHandle fw h history).1.console then (surveyHandle fw h history).2
      else searchHistory rest (surveyHandle fw h history).2

/-- The first usable display with a console, or else the first usable one. -/
def selection (surveyed : List Surveyed) : Option Surveyed :=
  (surveyed.find? Surveyed.console).or (surveyed.find? Surveyed.usable)

/-- The replies of the modes from `m` on. -/
def queryModes (gop : Nat) : Nat → Nat → History → List (EfiStatus × ModeInfo)
  | _, 0, _ => []
  | m, left + 1, history =>
      fw.queryMode history gop m ::
        queryModes gop (m + 1) left (.queryMode gop m (fw.queryMode history gop m).1 :: history)

def matching (config : WbootConfig) (reply : EfiStatus × ModeInfo) : Bool :=
  decide (reply.1 = efiSuccess) && matchRes config reply.2

/-- The mode to set, if the current one does not match and another one does. -/
def wantedMode (config : WbootConfig) (gop : Nat) (history : History) : Option Nat :=
  let current := fw.gopMode history gop
  if matchRes config current.info then none
  else ((queryModes fw gop 0 current.maxMode history).findIdx? (matching config)).filter (· ≠ current.mode)

end Asking

/-- The modes that were set, the last one first. -/
def modeCalls (history : History) : List (Nat × Nat) :=
  history.filterMap fun
    | .setMode gop mode _ => some (gop, mode)
    | _ => none

/-! ### The display -/

section Searching
variable {fw : Firmware}

/-- A handle and its protocol, both NULL when there is no display. -/
def pointers : Option Surveyed → Nat × Nat
  | none => (0, 0)
  | some display => (display.handle, display.gop)

theorem surveyHandle_handle (h : Nat) (history : History) : (surveyHandle fw h history).1.handle = h := by
  unfold surveyHandle
  dsimp only
  split <;> rfl

theorem surveyHandle_usable (h : Nat) (history : History)
    (console : (surveyHandle fw h history).1.console = true) : (surveyHandle fw h history).1.usable = true := by
  unfold surveyHandle at console ⊢
  dsimp only at console ⊢
  split at console
  · cases console
  · rename_i usable
    rw [if_neg usable]

/-- One handle: the search ends with it, or goes on with what it has so far. -/
theorem findHandleFrom_cons (first : Option Surveyed) (h : Nat) (rest : List Nat) (world : World)
    (found : ∀ display ∈ first, display.handle ≠ 0) :
    findHandleFrom fw (pointers first) (h :: rest) world =
      if (surveyHandle fw h world.history).1.console then
        (pointers (some (surveyHandle fw h world.history).1),
          { world with history := (surveyHandle fw h world.history).2 })
      else findHandleFrom fw
        (pointers (first.or (if (surveyHandle fw h world.history).1.usable then
          some (surveyHandle fw h world.history).1 else none))) rest
        { world with history := (surveyHandle fw h world.history).2 } := by
  have fallback (display : Surveyed) : pointers (some (first.getD display)) =
      if (pointers first).1 = 0 then pointers (some display) else pointers first := by
    cases first with
    | none => rfl
    | some other =>
        have present : (pointers (some other)).1 ≠ 0 := found other rfl
        rw [if_neg present]
        rfl
  by_cases lookup : (fw.handleProtocol world.history h .graphicsOutput).1 = efiSuccess
  · by_cases drawn : hasFramebuffer (fw.gopMode (.handleProtocol h .graphicsOutput efiSuccess :: world.history)
        (fw.handleProtocol world.history h .graphicsOutput).2).info = true
    · by_cases console : (fw.handleProtocol (.handleProtocol h .graphicsOutput efiSuccess :: world.history) h
          .simpleTextOutput).1 = efiSuccess
      · simp [findHandleFrom, surveyHandle, handleProtocol, gopMode, lookup, drawn, console, pointers]
      · simp [findHandleFrom, surveyHandle, handleProtocol, gopMode, lookup, drawn, console, fallback]
        rfl
    · simp [findHandleFrom, surveyHandle, handleProtocol, gopMode, lookup, drawn]
  · simp [findHandleFrom, surveyHandle, handleProtocol, lookup]

theorem findHandleFrom_selects (handles : List Nat) (first : Option Surveyed) (world : World)
    (present : ∀ h ∈ handles, h ≠ 0) (found : ∀ display ∈ first, display.handle ≠ 0) :
    findHandleFrom fw (pointers first) handles world =
      (pointers (((survey fw handles world.history).find? Surveyed.console).or
        (first.or ((survey fw handles world.history).find? Surveyed.usable))),
        { world with history := searchHistory fw handles world.history }) := by
  induction handles generalizing first world with
  | nil => cases first <;> rfl
  | cons h rest ih =>
      obtain ⟨here, others⟩ := List.forall_mem_cons.mp present
      have named := @surveyHandle_handle fw h world.history
      rw [findHandleFrom_cons first h rest world found, survey, searchHistory, List.find?_cons, List.find?_cons]
      cases console : (surveyHandle fw h world.history).1.console with
      | true => simp
      | false =>
          rw [if_neg Bool.false_ne_true, if_neg Bool.false_ne_true, ih _ _ others]
          · cases (surveyHandle fw h world.history).1.usable <;> simp
          · intro display member
            cases first with
            | some other => exact found display member
            | none =>
                rw [Option.none_or, Option.mem_def, Option.ite_none_right_eq_some] at member
                rw [← Option.some.inj member.2, named]
                exact here

/-- The search as a whole. -/
theorem findHandleWithPrimaryGop_selects (handles : List Nat) (world : World)
    (present : ∀ h ∈ handles, h ≠ 0) :
    findHandleWithPrimaryGop fw handles world =
      (pointers (selection (survey fw handles world.history)),
        { world with history := searchHistory fw handles world.history }) := by
  have search := @findHandleFrom_selects fw handles none world present (by simp)
  rw [Option.none_or] at search
  exact search

/-- There is a display unless none is usable. -/
theorem selection_none (handles : List Nat) (history : History) :
    selection (survey fw handles history) = none ↔
      ∀ display ∈ survey fw handles history, display.usable = false := by
  have consoles (handles : List Nat) (history : History) :
      ∀ display ∈ survey fw handles history, display.console = true → display.usable = true := by
    induction handles generalizing history with
    | nil => simp [survey]
    | cons h rest ih => exact List.forall_mem_cons.mpr ⟨surveyHandle_usable h history, ih _⟩
  rw [selection, Option.or_eq_none_iff, List.find?_eq_none, List.find?_eq_none]
  constructor
  · rintro ⟨-, unusable⟩ display member
    exact eq_false_of_ne_true (unusable display member)
  · intro unusable
    refine ⟨fun display member console => ?_, fun display member usable => ?_⟩
    · exact Bool.false_ne_true ((unusable display member).symm.trans (consoles _ _ display member console))
    · exact Bool.false_ne_true ((unusable display member).symm.trans usable)

theorem survey_present {handles : List Nat} (present : ∀ h ∈ handles, h ≠ 0) (history : History) :
    ∀ display ∈ survey fw handles history, display.handle ≠ 0 := by
  induction handles generalizing history with
  | nil => simp [survey]
  | cons h rest ih =>
      obtain ⟨here, others⟩ := List.forall_mem_cons.mp present
      refine List.forall_mem_cons.mpr ⟨?_, ih others _⟩
      rw [surveyHandle_handle]
      exact here

theorem selection_present {handles : List Nat} (present : ∀ h ∈ handles, h ≠ 0) (history : History)
    (display : Surveyed) (chosen : selection (survey fw handles history) = some display) : display.handle ≠ 0 := by
  rcases Option.or_eq_some_iff.mp chosen with first | ⟨-, first⟩
  · exact survey_present present history display (List.mem_of_find?_eq_some first)
  · exact survey_present present history display (List.mem_of_find?_eq_some first)

end Searching

/-! ### The mode -/

section Choosing
variable {fw : Firmware} {config : WbootConfig} {gop ctx : Nat}

theorem chooseModeFrom_least (m left : Nat) (world : World) :
    (chooseModeFrom fw config gop ctx m left world).1 =
      (((queryModes fw gop m left world.history).findIdx? (matching config)).map (m + ·)).getD ctx := by
  induction left generalizing m world with
  | zero => rfl
  | succ left ih =>
      simp only [chooseModeFrom, queryModes, queryMode, bind_apply, service_apply, List.findIdx?_cons, matching]
      by_cases answered : (fw.queryMode world.history gop m).1 = efiSuccess
      · by_cases fits : matchRes config (fw.queryMode world.history gop m).2 = true
        · simp [answered, fits]
        · simp [answered, fits, ih, Function.comp_def, Nat.add_assoc, Nat.add_comm 1]
      · simp [answered, ih, Function.comp_def, Nat.add_assoc, Nat.add_comm 1]

/-- A question about the display, or a mode set on it. -/
def asks (display : Surveyed) : Event → Prop
  | .handleProtocol h .. => h = display.handle
  | .queryMode gop .. => gop = display.gop
  | _ => False

def worksOn (display : Surveyed) : Event → Prop
  | .setMode gop .. => gop = display.gop
  | event => asks display event

theorem asks_worksOn (display : Surveyed) (event : Event) (asked : asks display event) :
    worksOn display event := by
  cases event <;> first | exact asked | exact absurd asked id

theorem modeCalls_asks {display : Surveyed} {before after : World} (calls : Calls (asks display) before after) :
    modeCalls after.history = modeCalls before.history := by
  obtain ⟨events, grown, asked⟩ := calls.history
  have none : modeCalls events = [] := by
    refine List.filterMap_eq_nil_iff.mpr fun event member => ?_
    cases event with
    | setMode gop mode status => exact absurd (asked _ member) id
    | _ => rfl
  rw [grown, modeCalls, List.filterMap_append]
  exact congrArg (· ++ modeCalls before.history) none

theorem chooseModeRes_asks (display : Surveyed) :
    Relates (Calls (asks display)) (chooseModeRes fw config display.gop) := by
  have query (mode : Nat) : Relates (Calls (asks display)) (queryMode fw display.gop mode) :=
    service_calls _ _ fun _ => rfl
  have queries (m left ctx : Nat) :
      Relates (Calls (asks display)) (chooseModeFrom fw config display.gop ctx m left) := by
    induction left generalizing m with
    | zero => exact .pure _
    | succ left ih =>
        exact (query m).bind fun reply => .ite (fun _ => ih _) fun _ => .ite (fun _ => .pure _) fun _ => ih _
  exact (Relates.read _).bind fun mode => .ite (fun _ => .pure _) fun _ => queries _ _ _

/-- The current mode stands for "none is wanted". -/
theorem chooseModeRes_wanted (world : World) :
    wantedMode fw config gop world.history =
      if (chooseModeRes fw config gop world).1 = (fw.gopMode world.history gop).mode then none
      else some (chooseModeRes fw config gop world).1 := by
  simp only [chooseModeRes, wantedMode, gopMode, bind_apply, readState_apply]
  by_cases suits : matchRes config (fw.gopMode world.history gop).info = true
  · simp [suits]
  · simp only [suits, Bool.false_eq_true, ↓reduceIte, chooseModeFrom_least, Nat.zero_add, Option.map_id']
    cases (queryModes fw gop 0 (fw.gopMode world.history gop).maxMode world.history).findIdx?
        (matching config) with
    | none => simp
    | some least => by_cases same : least = (fw.gopMode world.history gop).mode <;> simp [same]

/-- Either no mode is wanted and none is set, or the wanted one is, once. -/
theorem setGraphicsMode_sets (display : Surveyed) {before after : World}
    (run : setGraphicsMode fw config display.gop before = ((), after)) :
    Calls (worksOn display) before after ∧
      modeCalls after.history =
        ((wantedMode fw config display.gop before.history).map (display.gop, ·)).toList ++
          modeCalls before.history := by
  rw [setGraphicsMode, run_bind] at run
  obtain ⟨mode, here, current, run⟩ := run
  cases current
  rw [run_bind] at run
  obtain ⟨newMode, chosen, choice, run⟩ := run
  have asked := (chooseModeRes_asks display).run choice
  have kept := modeCalls_asks asked
  have wanted := @chooseModeRes_wanted fw config display.gop before
  rw [choice] at wanted
  rw [run_ite] at run
  -- the current mode is left alone, any other one is set, once
  rcases run with ⟨same, run⟩ | ⟨other, run⟩
  · cases run
    rw [wanted, if_pos same]
    exact ⟨asked.mono (asks_worksOn display), kept⟩
  · rw [wanted, if_neg other]
    rw [run_bind] at run
    obtain ⟨status, set, done, run⟩ := run
    have prints : Prints set after := by
      have said : Relates Prints (if efiError status then
          printf fw (wide "    [set_mode] error setting graphics mode to %u: %s\r\n")
            [.num newMode, .wideText (strerror status)] else pure ()) :=
        .ite (fun _ => printf_prints fw _ _ (by decide +kernel)) fun _ => .pure _
      exact said.run run
    have calls : Calls (worksOn display) chosen set :=
      (service_calls _ _ fun _ => rfl : Relates (Calls (worksOn display)) (setMode fw display.gop newMode)).run done
    cases done
    refine ⟨IsTrans.trans _ _ _ (asked.mono (asks_worksOn display))
      (IsTrans.trans _ _ _ calls (prints.calls _)), ?_⟩
    rw [prints.history, ← kept]
    rfl

theorem modeCalls_search (handles : List Nat) (history : History) :
    modeCalls (searchHistory fw handles history) = modeCalls history := by
  have here (h : Nat) (history : History) : modeCalls (surveyHandle fw h history).2 = modeCalls history := by
    unfold surveyHandle
    dsimp only
    split <;> rfl
  induction handles generalizing history with
  | nil => rfl
  | cons h rest ih =>
      rw [searchHistory]
      split
      · exact here h history
      · rw [ih, here]

end Choosing

/-! ### The rest of the setup -/

section Setup
variable {fw : Firmware} {params : Nat}

/-- `edid_info` is above the fields of the framebuffer. -/
theorem Describes.above {left right : Memory} {width height depth line size : Nat}
    (describes : Describes left params width height depth line size)
    (same : ∀ x, x < params + Params.edidInfo → right x = left x) :
    Describes right params width height depth line size := by
  have field (which : Field) (low : which.offset + which.width ≤ Params.edidInfo) :
      which.get right params = which.get left params :=
    which.get_congr fun x _ upper => same x (by omega)
  exact
    { width := (field _ (by decide)).trans describes.width
      height := (field _ (by decide)).trans describes.height
      depth := (field _ (by decide)).trans describes.depth
      line := (field _ (by decide)).trans describes.line
      size := (field _ (by decide)).trans describes.size }

theorem setupEdidInfo_above (sizeOfEdid : Nat) (edid : Option (List UInt8)) (ram : Ram) (x : Nat)
    (below : x < params + Params.edidInfo) :
    (setupEdidInfo params sizeOfEdid edid ram).2.mem x = ram.mem x := by
  have cleared : (memset (params + Params.edidInfo) 0 Params.sizeofEdidInfo ram).2.mem x = ram.mem x := by
    simp only [memset, modifyState_apply, setLoop_apply]
    exact if_neg (by omega)
  cases edid with
  | none => exact cleared
  | some edid =>
      simp only [setupEdidInfo, branch_apply]
      split
      · exact cleared
      · exact storeBytes_frame _ _ _ _ (Or.inl below)

theorem readEdid_asks (display : Surveyed) : Relates (Calls (asks display)) (readEdid fw display.handle) := by
  have handle (protocol : Protocol) : Relates (Calls (asks display)) (handleProtocol fw display.handle protocol) :=
    service_calls _ _ fun _ => rfl
  refine (handle _).bind fun active => .ite (fun _ => .read _) fun _ => ?_
  exact (handle _).bind fun discovered => .ite (fun _ => .read _) fun _ => .pure _

theorem readEdid_ram (handle : Nat) : Relates (fun before after : World => after.toRam = before.toRam)
    (readEdid fw handle) := by
  intro world
  simp only [readEdid, bind_apply, branch_apply]
  split
  · rfl
  · split <;> rfl

/-- After the search: the calls are about this display, its mode is set if another one is
wanted, and the kernel is told of the mode it is left in. -/
structure Finished (fw : Firmware) (config : WbootConfig) (params : Nat) (display : Surveyed)
    (searched : History) (after : World) : Prop where
  calls : ∃ events, after.history = events ++ searched ∧ ∀ event ∈ events, worksOn display event
  modes : modeCalls after.history =
    ((wantedMode fw config display.gop searched).map (display.gop, ·)).toList ++ modeCalls searched
  screen : ∃ settled, settled <:+ after.history ∧ modeCalls settled = modeCalls after.history ∧
    let info := (fw.gopMode settled display.gop).info
    Describes after.mem params (info.horizontalResolution % 2 ^ 16) (info.verticalResolution % 2 ^ 16)
      (depthOf info) (lineBytes info % 2 ^ 16) ((lineBytes info % 2 ^ 16) * (info.verticalResolution % 2 ^ 16))

theorem display_finished (config : WbootConfig) (display : Surveyed) {searched after : World} {status : EfiStatus}
    (run : (do
      setGraphicsMode fw config display.gop
      let mode ← gopMode fw display.gop
      inRam (setupScreenInfo params mode)
      let (size, edid) ← readEdid fw display.handle
      inRam (setupEdidInfo params size edid)
      return efiSuccess) searched = (status, after)) :
    status = efiSuccess ∧ Finished fw config params display searched.history after := by
  rw [run_bind] at run
  obtain ⟨⟨⟩, settled, set, run⟩ := run
  obtain ⟨calls, modes⟩ := setGraphicsMode_sets display set
  rw [run_bind] at run
  obtain ⟨mode, here, current, run⟩ := run
  cases current
  rw [run_bind] at run
  obtain ⟨⟨⟩, drawn, draws, run⟩ := run
  rw [run_bind] at run
  obtain ⟨⟨size, edid⟩, read, reads, run⟩ := run
  have asked := (readEdid_asks display).run reads
  have same := (readEdid_ram display.handle).run reads
  dsimp only at run
  rw [run_bind] at run
  obtain ⟨⟨⟩, last, ends, run⟩ := run
  cases run
  have painted : Calls (asks display) settled drawn := (inRam_calls _).run draws
  have stored : Calls (asks display) read after := (inRam_calls _).run ends
  -- what comes after the mode only asks, so the mode that was set is the last one
  have quiet : Calls (asks display) settled after :=
    IsTrans.trans _ _ _ painted (IsTrans.trans _ _ _ asked stored)
  have kept := modeCalls_asks quiet
  obtain ⟨events, grown, -⟩ := quiet.history
  have settles : settled.history <:+ after.history := ⟨events, grown.symm⟩
  have whole : Calls (worksOn display) searched after :=
    IsTrans.trans _ _ _ calls (quiet.mono (asks_worksOn display))
  refine ⟨rfl, whole.history, kept.trans modes, ?_⟩
  refine ⟨settled.history, settles, kept.symm, ?_⟩
  have drew : drawn.toRam = (setupScreenInfo params (fw.gopMode settled.history display.gop) settled.toRam).2 :=
    congrArg Prod.snd (inRam_run draws).1.symm
  have ended : after.toRam = (setupEdidInfo params size edid read.toRam).2 :=
    congrArg Prod.snd (inRam_run ends).1.symm
  have described := @setupScreenInfo_describes params (fw.gopMode settled.history display.gop) settled.toRam
  refine Describes.above described fun x below => ?_
  rw [ended, setupEdidInfo_above size edid read.toRam x below, same, drew]

/-- The display and its mode, when the firmware lists handles that are not NULL. -/
theorem graphics_choice (config : WbootConfig) {before after : World} {status : EfiStatus} {handles : List Nat}
    (listed : fw.locateHandleBuffer before.history .graphicsOutput = (efiSuccess, handles))
    (present : ∀ h ∈ handles, h ≠ 0) (run : wbootSetupGraphics fw config params before = (status, after)) :
    let asked := .locateHandleBuffer .graphicsOutput efiSuccess :: before.history
    let searched := searchHistory fw handles asked
    let displays := survey fw handles asked
    modeCalls searched = modeCalls before.history ∧
      (status = efiNotFound ↔ ∀ display ∈ displays, display.usable = false) ∧
      match selection displays with
      | none => after.history = searched
      | some display => status = efiSuccess ∧ Finished fw config params display searched after := by
  have quiet : modeCalls (searchHistory fw handles
      (.locateHandleBuffer .graphicsOutput efiSuccess :: before.history)) = modeCalls before.history :=
    modeCalls_search handles _
  refine ⟨quiet, ?_⟩
  rw [wbootSetupGraphics, run_bind] at run
  obtain ⟨⟨⟩, cleared, clears, run⟩ := run
  rw [run_bind] at run
  obtain ⟨⟨⟩, blank, blanks, run⟩ := run
  cases clears
  cases blanks
  rw [run_bind] at run
  obtain ⟨found, asked, asks, run⟩ := run
  rw [locateHandleBuffer, service_apply] at asks
  dsimp only [inRam_apply] at asks
  -- handles were found, so only the search decides
  rw [listed] at asks
  cases asks
  rw [run_ite] at run
  rcases run with ⟨refused, run⟩ | ⟨-, run⟩
  · exact absurd rfl refused
  rw [run_bind] at run
  obtain ⟨⟨handle, gop⟩, searched, searches, run⟩ := run
  rw [findHandleWithPrimaryGop_selects _ _ present] at searches
  rw [← selection_none]
  have named := @selection_present fw _ present (.locateHandleBuffer .graphicsOutput efiSuccess :: before.history)
  have apart : efiNotFound ≠ efiSuccess := by decide
  -- no usable display ends with EFI_NOT_FOUND, a chosen one is finished with success
  cases chosen : selection (survey fw handles (.locateHandleBuffer .graphicsOutput efiSuccess :: before.history)) with
  | none =>
      rw [chosen] at searches
      cases searches
      rw [run_ite] at run
      rcases run with ⟨-, run⟩ | ⟨some, -⟩
      · cases run
        exact ⟨⟨fun _ => rfl, fun _ => rfl⟩, rfl⟩
      · exact absurd rfl some
  | some display =>
      rw [chosen] at searches
      cases searches
      rw [run_ite] at run
      rcases run with ⟨none, -⟩ | ⟨-, run⟩
      · exact absurd none (named display chosen)
      · obtain ⟨succeeded, finished⟩ := display_finished config display run
        have failed : status = efiNotFound ↔ some display = none :=
          iff_of_false (fun failed => apart (failed.symm.trans succeeded)) (Option.some_ne_none display)
        exact ⟨failed, succeeded, finished⟩

/-! Two displays, the second one with a console, and two modes of each. -/

def modeOf (width : Nat) : ModeInfo := ⟨width, 600, 1, 0, 0, 0, 0, width⟩

def twoDisplays : Firmware :=
  { idleFirmware with
    locateHandleBuffer := fun _ _ => (efiSuccess, [5, 6])
    handleProtocol := fun _ handle protocol =>
      if protocol = .simpleTextOutput ∧ handle = 5 then (efiNotFound, 0) else (efiSuccess, 0x100 * handle)
    gopMode := fun _ _ => ⟨2, 0, modeOf 640, 0⟩
    queryMode := fun _ _ mode => (efiSuccess, modeOf (640 + 160 * mode)) }

def wideConfig : WbootConfig where
  kernelPath := 0
  initrdPath := 0
  cmdline := 0
  modeWidth := 800
  modeHeight := 600
  modeFormat := -1
  modeDepth := 0
  root := 0

theorem console_display_chosen :
    (wbootSetupGraphics twoDisplays wideConfig 0x1000 bootWorld).1 = efiSuccess ∧
      modeCalls (wbootSetupGraphics twoDisplays wideConfig 0x1000 bootWorld).2.history = [(0x600, 1)] := by
  obtain ⟨-, -, chosen⟩ := @graphics_choice twoDisplays 0x1000 wideConfig bootWorld _ _ [5, 6] rfl (by decide)
    Prod.mk.eta.symm
  have second : selection (survey twoDisplays [5, 6] [.locateHandleBuffer .graphicsOutput efiSuccess]) =
      some ⟨6, 0x600, true, true⟩ := rfl
  have wanted : wantedMode twoDisplays wideConfig 0x600
      (searchHistory twoDisplays [5, 6] [.locateHandleBuffer .graphicsOutput efiSuccess]) = some 1 := rfl
  have started : bootWorld.history = [] := rfl
  rw [started, second] at chosen
  refine ⟨chosen.1, chosen.2.modes.trans ?_⟩
  rw [wanted]
  rfl

end Setup

end Wboot.GraphicsChoice
