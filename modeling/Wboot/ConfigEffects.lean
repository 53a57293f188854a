import Wboot.Effects
import Wboot.ConfigParser

/-! What `wboot_load_config` is made of, for whatever relation is kept over it: prints
of strings that are there, the pool, stores into blocks, changes of the file's buffer,
and the file itself. The search for the volume adds the handles and their texts. -/

namespace Wboot.ConfigEffects
open StateProgram ByteMemory CString Machine Wstdlib Effects ConfigParser

def fileCall : Event → Prop
  | .fileOpen .. | .fileGetInfo .. | .fileRead .. | .fileClose .. => True
  | _ => False

/-- What the lines take: messages, and changes of the buffer. -/
structure Parses (fw : Firmware) (step : World → World → Prop) : Prop where
  prints : ∀ format args, .widePointer 0 ∉ args → .narrowPointer 0 ∉ args → Relates step (printf fw format args)
  edits : ∀ program : Prog Ram Unit, (∀ ram, (program ram).2.accesses = ram.accesses) → Relates step (inRam program)

/-- The rest of a load. -/
structure Loads (fw : Firmware) (step : World → World → Prop) : Prop extends Parses fw step where
  allocates : ∀ size, Relates step (malloc fw size)
  releases : ∀ ptr, Relates step (free fw ptr)
  stores : ∀ ptr bytes, ptr ≠ 0 → Relates step (heapStore ptr bytes)
  files : ∀ {ρ : Type} (answer : History → ρ) (event : ρ → Event),
    (∀ reply, fileCall (event reply)) → Relates step (service answer event)

def searchCall : Event → Prop
  | .locateProtocol .. | .locateHandle .. | .handleProtocol .. | .openVolume .. => True
  | _ => False

/-- The search of `wboot_locate_config`, which prints the text of a path even if it is NULL. -/
structure Searches (fw : Firmware) (step : World → World → Prop) : Prop extends Loads fw step where
  shows : ∀ format args, Relates step (printf fw format args)
  texts : ∀ path, Relates step (convertDevicePathToText fw path)
  drops : ∀ ptr, Relates step (freePool fw ptr)
  looks : ∀ {ρ : Type} (answer : History → ρ) (event : ρ → Event),
    (∀ reply, searchCall (event reply)) → Relates step (service answer event)

section Parts
variable {fw : Firmware} {step : World → World → Prop}

theorem Parses.perror (parses : Parses fw step) (message : List UInt16) (status : EfiStatus) :
    Relates step (perror fw message status) :=
  parses.prints _ _ (by simp) (by simp)

theorem Parses.number (parses : Parses fw step) (format : List UInt16) (num : Nat) :
    Relates step (printf fw format [.num num]) :=
  parses.prints _ _ (by simp) (by simp)

/-- A line number and a string of the line. -/
theorem Parses.named (parses : Parses fw step) (format : List UInt16) (num : Nat) {pointer : Nat}
    (present : pointer ≠ 0) : Relates step (printf fw format [.num num, .narrowPointer pointer]) := by
  refine parses.prints _ _ (by simp) ?_
  simpa using present.symm

variable [IsPreorder World step]

theorem Loads.ended (loads : Loads fw step) {α : Type} (ptr : Nat) (value : α) :
    Relates step (do
      free fw ptr
      return value : Boot α) :=
  (loads.releases ptr).bind fun _ => .pure value

theorem Parses.nextToken (parses : Parses fw step) (str : Nat) (delim : List UInt8) (saveptr : Nat) :
    Relates step (nextToken str delim saveptr) :=
  (Relates.read _).bind fun _ => (parses.edits _ fun _ => rfl).bind fun _ => .pure _

theorem Loads.strdup8To16 (loads : Loads fw step) (src : Nat) : Relates step (strdup8To16 fw src) :=
  Relates.bind (Relates.read _) fun _ => (loads.allocates _).bind fun _ =>
    .ite (fun _ => .pure _) fun present => (loads.stores _ _ present).bind fun _ => .pure _

theorem Loads.strdup8 (loads : Loads fw step) (src : Nat) : Relates step (strdup8 fw src) :=
  (Relates.read _).bind fun _ => (loads.allocates _).bind fun _ =>
    .ite (fun _ => .pure _) fun present => (loads.stores _ _ present).bind fun _ => .pure _

/-! ### A line -/

theorem Parses.parseModeTokens (parses : Parses fw step) (width height format depth lineNo : Nat) :
    Relates step (parseModeTokens fw width height format depth lineNo) := by
  refine Relates.bind (Relates.read _) fun widthText => Relates.bind (Relates.read _) fun heightText => ?_
  split
  · refine Relates.bind (Relates.read _) fun formatText => ?_
    split
    · rename_i refused
      have present : format ≠ 0 := by
        rintro rfl
        simp at refused
      exact (parses.named _ _ present).bind fun _ => .pure _
    · refine Relates.bind (Relates.read _) fun depthText => ?_
      split
      · rename_i refused
        have present : depth ≠ 0 := by
          rintro rfl
          simp at refused
        exact (parses.named _ _ present).bind fun _ => .pure _
      · exact .pure _
  · exact (parses.number _ _).bind fun _ => .pure _

theorem Parses.parseConfigMode (parses : Parses fw step) (config : WbootConfig) (value lineNo : Nat) :
    Relates step (parseConfigMode fw config value lineNo) := by
  refine (parses.nextToken _ _ _).bind fun width => (parses.nextToken _ _ _).bind fun height => ?_
  refine (parses.nextToken _ _ _).bind fun format => (parses.nextToken _ _ _).bind fun depth => ?_
  refine (parses.nextToken _ _ _).bind fun extra => .ite (fun _ => ?_) fun _ => ?_
  · exact (parses.number _ _).bind fun _ => .pure _
  · refine (parses.parseModeTokens _ _ _ _ _).bind fun tokens => ?_
    cases tokens with
    | none => exact .pure _
    | some tokens => exact .pure _

theorem Loads.applySetting (loads : Loads fw step) (config : WbootConfig) (state : ConfigParseState)
    {line : Nat} (present : line ≠ 0) (value lineNo : Nat) :
    Relates step (applySetting fw config state line value lineNo) := by
  refine Relates.bind (Relates.read _) fun key => .ite (fun _ => ?_) fun _ => ?_
  · refine (loads.strdup8To16 _).bind fun kernel => .ite (fun _ => ?_) fun _ => loads.ended _ _
    exact (loads.perror _ _).bind fun _ => .pure _
  refine .ite (fun _ => ?_) fun _ => ?_
  · refine (loads.strdup8To16 _).bind fun initrd => .ite (fun _ => ?_) fun _ => loads.ended _ _
    exact (loads.perror _ _).bind fun _ => .pure _
  refine .ite (fun _ => ?_) fun _ => ?_
  · refine (loads.strdup8 _).bind fun cmdline => .ite (fun _ => ?_) fun _ => loads.ended _ _
    exact (loads.perror _ _).bind fun _ => .pure _
  refine .ite (fun _ => ?_) fun _ => ?_
  · refine (loads.parseConfigMode _ _ _).bind fun config => ?_
    cases config with
    | none => exact .pure _
    | some config => exact .pure _
  · exact (loads.named _ _ present).bind fun _ => .pure _

theorem scanFrom_le (go : UInt8 → Bool) (memory : Memory) (fuel p : Nat) : p ≤ scanFrom go memory fuel p := by
  induction fuel generalizing p with
  | zero => exact Nat.le_refl p
  | succ fuel ih =>
      rw [scanFrom]
      split
      · exact Nat.le_of_succ_le (ih (p + 1))
      · exact Nat.le_refl p

theorem Loads.parseConfigLine (loads : Loads fw step) (config : WbootConfig) (state : ConfigParseState)
    {line : Nat} (present : line ≠ 0) (lineNo : Nat) :
    Relates step (parseConfigLine fw config state line lineNo) := by
  refine Relates.bind_of (Relates.read _) fun found => ?_
  -- leading blanks are skipped, so the line is still not NULL
  have begins : scan isWs found.mem line ≠ 0 := by
    have lower := scanFrom_le isWs found.mem addressSpace line
    unfold scan
    omega
  have missing : Relates step (missingValue fw (scan isWs found.mem line) lineNo) :=
    (loads.named _ _ begins).bind fun _ => .pure _
  refine (Relates.read _).bind fun first => .ite (fun _ => .pure _) fun _ => ?_
  refine (Relates.read _).bind fun stop => (Relates.read _).bind fun after => .ite (fun _ => missing) fun _ => ?_
  refine (loads.edits _ fun _ => rfl).bind fun _ => (Relates.read _).bind fun value => ?_
  refine (loads.edits _ fun _ => rfl).bind fun _ => (Relates.read _).bind fun head => ?_
  exact .ite (fun _ => missing) fun _ => loads.applySetting _ _ begins _ _

theorem Loads.parseLines (loads : Loads fw step) (fuel : Nat) (config : WbootConfig) (state : ConfigParseState)
    (line saveptr lineNo : Nat) : Relates step (parseLines fw fuel config state line saveptr lineNo) := by
  induction fuel generalizing config state line saveptr lineNo with
  | zero => exact .pure _
  | succ fuel ih =>
      refine .ite (fun _ => .pure _) fun present => ?_
      refine (loads.parseConfigLine _ _ present _).bind fun parsed => ?_
      cases parsed with
      | none => exact .pure _
      | some parsed => exact (loads.nextToken _ _ _).bind fun token => ih _ _ _ _ _

/-! ### The file -/

theorem Loads.fileGetInfo (loads : Loads fw step) (file size buffer : Nat) :
    Relates step (fileGetInfo fw file size buffer) := by
  refine Relates.bind (loads.files _ _ fun _ => ?_) fun reply => .ite (fun _ => ?_) fun _ => .pure _
  · trivial
  · exact (loads.edits _ fun _ => rfl).bind fun _ => .pure _

theorem Loads.fileReadInto (loads : Loads fw step) (file size buffer : Nat) :
    Relates step (fileReadInto fw file size buffer) := by
  have reads : Relates step (fileRead fw file size) := by
    unfold fileRead
    exact loads.files _ _ fun _ => trivial
  exact reads.bind fun _ => (loads.edits _ fun _ => rfl).bind fun _ => .pure _

theorem Loads.readConfigData (loads : Loads fw step) (file : Nat) : Relates step (readConfigData fw file) := by
  refine (loads.allocates _).bind fun fileInfo => .ite (fun _ => ?_) fun _ => ?_
  · exact (Relates.read _).bind fun _ => (loads.perror _ _).bind fun _ => .pure _
  refine (loads.fileGetInfo _ _ _).bind fun info => .ite (fun _ => ?_) fun _ => ?_
  · exact (loads.perror _ _).bind fun _ => loads.ended _ _
  have size : Relates step (inRam (loadField fileInfo fileSizeField)) := fun world => Std.Refl.refl world
  refine size.bind fun configSize => (loads.releases _).bind fun _ =>
    (loads.allocates _).bind fun configData => .ite (fun _ => ?_) fun _ => ?_
  · exact (Relates.read _).bind fun _ => (loads.perror _ _).bind fun _ => .pure _
  refine (loads.fileReadInto _ _ _).bind fun reply => .ite (fun _ => ?_) fun _ => .ite (fun _ => ?_) fun _ => ?_
  · exact (loads.perror _ _).bind fun _ => loads.ended _ _
  · exact (loads.prints _ _ (by simp) (by simp)).bind fun _ => loads.ended _ _
  · exact (loads.edits _ fun _ => rfl).bind fun _ => .pure _

theorem Parses.printMissing (parses : Parses fw step) (state : ConfigParseState) :
    Relates step (printMissing fw state) := by
  have optional (present : Bool) (message : List UInt16) : Relates step (printIfMissing fw present message) :=
    .ite (fun _ => parses.prints _ _ (by simp) (by simp)) fun _ => .pure _
  exact (optional _ _).bind fun _ => (optional _ _).bind fun _ => (optional _ _).bind fun _ => optional _ _

theorem Loads.parseConfigData (loads : Loads fw step) (root configData : Nat) :
    Relates step (parseConfigData fw root configData) := by
  refine (loads.nextToken _ _ _).bind fun token => (loads.parseLines _ _ _ _ _ _).bind fun lines => ?_
  cases lines with
  | error config => exact .pure _
  | ok parsed => exact .ite (fun _ => .pure _) fun _ => (loads.printMissing _).bind fun _ => .pure _

theorem Loads.wbootLoadConfig (loads : Loads fw step) (root : Nat) : Relates step (wbootLoadConfig fw root) := by
  have closes (file : Nat) : Relates step (fileClose fw file) := loads.files _ _ fun _ => trivial
  refine (loads.allocates _).bind fun config => .ite (fun _ => .pure _) fun _ => ?_
  refine Relates.bind (loads.files _ _ fun _ => trivial) fun opened => .ite (fun _ => loads.ended _ _) fun _ => ?_
  refine (loads.readConfigData _).bind fun read => ?_
  cases read with
  | none => exact (closes _).bind fun _ => loads.ended _ _
  | some configData =>
      refine (loads.parseConfigData _ _).bind fun parsed => ?_
      cases parsed with
      | error fields =>
          refine (loads.releases _).bind fun _ => (closes _).bind fun _ => ?_
          refine Relates.bind ?_ fun _ => loads.ended _ _
          exact (loads.releases _).bind fun _ => (loads.releases _).bind fun _ => loads.releases _
      | ok fields => exact (loads.releases _).bind fun _ => (closes _).bind fun _ => .pure _

/-! ### The volumes -/

theorem Searches.printDevicePath (searches : Searches fw step) (handle : Nat) :
    Relates step (printDevicePath fw handle) := by
  refine Relates.bind (searches.looks _ _ fun _ => trivial) fun found =>
    .ite (fun _ => ?_) fun _ => searches.shows _ _
  have rest (text : Nat) : Relates step (do
      printf fw (wide "[locate_config] device path: %s\r\n") [.widePointer text]
      let _ ← freePool fw text
      return () : Boot Unit) :=
    (searches.shows _ _).bind fun _ => (searches.drops _).bind fun _ => .pure _
  refine (searches.texts _).bind fun text => .ite (fun _ => ?_) fun _ => rest _
  exact (searches.shows _ _).bind fun _ => rest _

theorem Searches.tryHandle (searches : Searches fw step) (handle : Nat) : Relates step (tryHandle fw handle) := by
  refine (searches.printDevicePath _).bind fun _ => Relates.bind (searches.looks _ _ fun _ => trivial) fun fs => ?_
  refine .ite (fun _ => (searches.shows _ _).bind fun _ => .pure _) fun _ => ?_
  refine Relates.bind (searches.looks _ _ fun _ => trivial) fun root => .ite (fun _ => ?_) fun _ => ?_
  · exact (searches.shows _ _).bind fun _ => .pure _
  · exact searches.wbootLoadConfig _

theorem Searches.tryHandles (searches : Searches fw step) (handles : List Nat) :
    Relates step (tryHandles fw handles) := by
  induction handles with
  | nil => exact .pure _
  | cons handle rest ih =>
      refine (searches.tryHandle _).bind fun found => ?_
      cases found with
      | none => exact ih
      | some config => exact .pure _

theorem Searches.getDevicePathToText (searches : Searches fw step) : Relates step (getDevicePathToText fw) :=
  Relates.bind (searches.looks _ _ fun _ => trivial) fun _ =>
    .ite (fun _ => (searches.shows _ _).bind fun _ => .pure _) fun _ => .pure _

theorem Searches.wbootLocateConfig (searches : Searches fw step) : Relates step (wbootLocateConfig fw) := by
  refine searches.getDevicePathToText.bind fun status => .ite (fun _ => .pure _) fun _ => ?_
  refine Relates.bind (searches.looks _ _ fun _ => trivial) fun handles => .ite (fun _ => .pure _) fun _ => ?_
  refine (searches.tryHandles _).bind fun found => ?_
  cases found with
  | none => exact (searches.shows _ _).bind fun _ => .pure _
  | some config => exact .pure _

end Parts

end Wboot.ConfigEffects
