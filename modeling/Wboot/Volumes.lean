import Wboot.InitramfsCleanup
import Wboot.KernelPages
import Wboot.LineEndings
import Wboot.Preservation

/-! What the files on the volumes have to do with what is in memory once they are loaded:
the strings of the configuration are those of its file, and the kernel and the initramfs
are the files that these strings name. -/

namespace Wboot.Volumes
open StateProgram ByteMemory CString Tokens Machine LinuxBoot Wstdlib Effects ConfigParser ConfigGrammar ConfigHeap
  ConfigLoad ConfigCourses ConfigEffects CommandLine LineEndings KernelImage BootParams Blocks Phase3 ServiceEnd
  Handoff Survival KernelCleanup KernelPages InitramfsCleanup Preservation

/-- A call after which a handle may name another file. -/
def forgets (file : Nat) : Event → Prop
  | .fileOpen _ _ _ other | .fileClose other _ => other = file
  | _ => False

/-- The handle names the file that was opened with it. -/
def Opened (fw : Firmware) (root : Nat) (path : List UInt16) (file : Nat) (history : History) : Prop :=
  ∃ newer older, history = newer ++ .fileOpen root path (fw.fileOpen older root path).1 file :: older ∧
    efiError (fw.fileOpen older root path).1 = false ∧ (fw.fileOpen older root path).2 = file ∧
    ∀ event ∈ newer, ¬ forgets file event

/-- The content of the files, by volume and path. -/
structure Stocked (fw : Firmware) (stock : Nat → List UInt16 → List UInt8) : Prop where
  bounded : ∀ root path, (stock root path).length + 1 < 2 ^ 63
  config : ∀ root, ServesConfig fw root (stock root (wide "wboot.conf"))
  text : ∀ root, ∀ c ∈ stock root (wide "wboot.conf"), c ≠ 0
  seeks : ∀ root path file history, Opened fw root path file history →
    ReadsHere fw file (stock root path) history
  serves : ∀ root path older, efiError (fw.fileOpen older root path).1 = false →
    ServesFile fw (.fileOpen root path (fw.fileOpen older root path).1 (fw.fileOpen older root path).2 :: older)
      (fw.fileOpen older root path).2 (stock root path)

/-- What the last line for a key sets. -/
def settingOf (content : List UInt8) (field : TextKey) : List UInt8 :=
  ((lastLine (.text field) content).map valueText).getD []

def pathOf (content : List UInt8) (field : TextKey) : List UInt16 := (settingOf content field).map UInt8.toUInt16

/-! ### The volume of the configuration -/

section Volume
variable {fw : Firmware}

def OfVolume (root : Nat) (found : Option (WbootConfig × ConfigParseState)) : Prop :=
  ∀ parsed ∈ found, parsed.1.root = root

theorem parseConfigMode_root (config : WbootConfig) (value lineNo : Nat) :
    Returns (fun found => ∀ parsed ∈ found, parsed.root = config.root) (parseConfigMode fw config value lineNo) := by
  have nothing : ∀ parsed ∈ (none : Option WbootConfig), parsed.root = config.root := nofun
  refine .after fun _ => .after fun _ => .after fun _ => .after fun _ => .after fun _ => .ite ?_ ?_
  · exact .after fun _ => .pure nothing
  · refine .after fun numbers => ?_
    cases numbers with
    | none => exact .pure nothing
    | some numbers => exact .pure fun parsed same => by cases same; rfl

theorem applySetting_root (config : WbootConfig) (state : ConfigParseState) (line value lineNo : Nat) :
    Returns (OfVolume config.root) (applySetting fw config state line value lineNo) := by
  have nothing : OfVolume config.root none := nofun
  refine .after fun key => .ite ?_ (.ite ?_ (.ite ?_ (.ite ?_ (.after fun _ => .pure nothing))))
  · refine .after fun _ => .ite (.after fun _ => .pure nothing) (.after fun _ => .pure ?_)
    exact fun parsed same => by cases same; rfl
  · refine .after fun _ => .ite (.after fun _ => .pure nothing) (.after fun _ => .pure ?_)
    exact fun parsed same => by cases same; rfl
  · refine .after fun _ => .ite (.after fun _ => .pure nothing) (.after fun _ => .pure ?_)
    exact fun parsed same => by cases same; rfl
  · refine .bind (parseConfigMode_root config value lineNo) fun found here => ?_
    cases found with
    | none => exact .pure nothing
    | some parsed => exact .pure fun other same => by cases same; exact here parsed rfl

theorem parseConfigLine_root (config : WbootConfig) (state : ConfigParseState) (line lineNo : Nat) :
    Returns (OfVolume config.root) (parseConfigLine fw config state line lineNo) := by
  have missing (line : Nat) : Returns (OfVolume config.root) (missingValue fw line lineNo) :=
    .after fun _ => .pure nofun
  refine .after fun line => .after fun first => .ite (.pure fun parsed same => by cases same; rfl) ?_
  refine .after fun stop => .after fun behind => .ite (missing line) ?_
  refine .after fun _ => .after fun value => .after fun _ => .after fun head => .ite (missing line) ?_
  exact applySetting_root config state line value lineNo

theorem parseLines_root (root fuel : Nat) (config : WbootConfig) (state : ConfigParseState)
    (line saveptr lineNo : Nat) (same : config.root = root) :
    Returns (fun outcome => ∀ parsed, outcome = .ok parsed → parsed.1.root = root)
      (parseLines fw fuel config state line saveptr lineNo) := by
  induction fuel generalizing config state line saveptr lineNo with
  | zero => exact .pure fun parsed here => by cases here; exact same
  | succ fuel ih =>
      refine .ite (.pure fun parsed here => by cases here; exact same) ?_
      refine .bind (parseConfigLine_root config state line lineNo) fun found here => ?_
      cases found with
      | none => exact .pure nofun
      | some parsed => exact .after fun _ => ih _ _ _ _ _ ((here parsed rfl).trans same)

theorem parseConfigData_root (root data : Nat) :
    Returns (fun outcome => ∀ config, outcome = .ok config → config.root = root)
      (parseConfigData fw root data) := by
  refine .after fun _ => .bind (parseLines_root root _ _ _ _ _ _ rfl) fun outcome here => ?_
  cases outcome with
  | error config => exact .pure nofun
  | ok parsed => exact .ite (.pure fun config same => by cases same; exact here parsed rfl) (.after fun _ => .pure nofun)

/-- A configuration remembers the volume it was read from. -/
theorem wbootLoadConfig_root (root : Nat) :
    Returns (fun found => ∀ config ∈ found, config.root = root) (wbootLoadConfig fw root) := by
  have nothing : ∀ config ∈ (none : Option WbootConfig), config.root = root := nofun
  refine .after fun _ => .ite (.pure nothing) (.after fun _ => .ite (.after fun _ => .pure nothing) ?_)
  refine .after fun data => ?_
  cases data with
  | none => exact .after fun _ => .after fun _ => .pure nothing
  | some data =>
      refine .bind (parseConfigData_root root data) fun outcome here => ?_
      cases outcome with
      | error fields =>
          exact .after fun _ => .after fun _ => .after fun _ => .after fun _ => .pure nothing
      | ok fields =>
          exact .after fun _ => .after fun _ => .pure fun config same => by cases same; exact here fields rfl

end Volume

/-! ### Blocks in the address space -/

def Narrow (world : World) : Prop := ∀ block ∈ live world.history, block.start + block.size ≤ 2 ^ 64

/-- Blocks that are granted lie in the address space, as those before. -/
def Narrows (before after : World) : Prop := Narrow before → Narrow after

instance : IsPreorder World Narrows where
  refl := fun _ narrow => narrow
  trans := fun _ _ _ left right narrow => right (left narrow)

section Narrowing
variable {fw : Firmware}

theorem service_narrows {ρ : Type} (answer : History → ρ) (event : ρ → Event)
    (keeps : ∀ history, ∀ block ∈ live (event (answer history) :: history),
      block ∈ live history ∨ block.start + block.size ≤ 2 ^ 64) : Relates Narrows (service answer event) :=
  fun world narrow block member => (keeps world.history block member).elim (narrow block) id

theorem narrow_absorbs (sound : AllocatorSound fw) : Absorbs fw Narrows where
  prints := fun before after prints narrow block member => narrow block (prints.history ▸ member)
  errno := fun _ _ narrow => narrow
  allocates := fun size => service_narrows _ _ fun history block member => by
    simp only [live] at member
    split at member
    · exact Or.inl member
    · rename_i granted
      rcases List.mem_cons.mp member with rfl | old
      · exact Or.inr (sound.pool history size (by simpa using granted)).bounded
      · exact Or.inl old
  releases := fun _ => service_narrows _ _ fun _ _ member => Or.inl (List.eraseP_subset member)
  stores := fun _ _ _ narrow => narrow

theorem convertDevicePathToText_narrows (sound : AllocatorSound fw) (path : Nat) :
    Relates Narrows (convertDevicePathToText fw path) := by
  refine Relates.bind (service_narrows _ _ fun history block member => ?_) fun _ =>
    .ite (fun _ => Relates.bind (fun _ narrow => narrow) fun _ => .pure _) fun _ => .pure _
  simp only [live] at member
  split at member
  · exact Or.inl member
  · rename_i present
    rcases List.mem_cons.mp member with rfl | old
    · exact Or.inr (sound.text history path present).bounded
    · exact Or.inl old

theorem narrow_searches (sound : AllocatorSound fw) : Searches fw Narrows where
  prints := fun format args _ _ => (narrow_absorbs sound).printf format args
  allocates := (narrow_absorbs sound).malloc
  releases := (narrow_absorbs sound).free
  stores := fun ptr bytes _ => (narrow_absorbs sound).stores ptr bytes
  edits := fun _ _ _ narrow => narrow
  files := fun answer event called => service_narrows _ _ fun history block member => Or.inl (by
    have file := called (answer history)
    cases here : event (answer history) <;> rw [here] at file member <;> first | exact file.elim | exact member)
  shows := (narrow_absorbs sound).printf
  texts := convertDevicePathToText_narrows sound
  drops := (narrow_absorbs sound).releases
  looks := fun answer event called => service_narrows _ _ fun history block member => Or.inl (by
    have search := called (answer history)
    cases here : event (answer history) <;> rw [here] at search member <;> first | exact search.elim | exact member)

end Narrowing

/-! ### The configuration that was found -/

section Locating
variable {fw : Firmware} {config : WbootConfig} {before after : World}

/-- A configuration that is loaded stands in blocks of its own, as its file has it. -/
theorem wbootLoadConfig_carried {root : Nat} {content : List UInt8} (sound : AllocatorSound fw)
    (early : before.bsExited = false) (text : ∀ c ∈ content, c ≠ 0) (bounded : content.length + 1 < 2 ^ 63)
    (serves : ServesConfig fw root content) (run : wbootLoadConfig fw root before = (some config, after)) :
    Grammar content ∧ ∃ sizes, Carried config sizes (settingOf content) after := by
  cases wbootLoadConfig_course fw run with
  | loaded steps openable reads parses frees closing =>
      have still := (opening_calls steps).bsExited.trans early
      rcases readConfigData_run sound still bounded serves (opening_fresh steps) reads with
        ⟨done, -⟩ | ⟨_, same, loaded, -⟩
      · cases done
      cases same
      rw [textOf_eq text] at loaded
      rcases parseConfigData_run sound bounded loaded parses with
        ⟨-, _, done⟩ | ⟨-, -, _, done⟩ | ⟨final, fields, sizes, accepted, given, same, stored⟩
      · cases done
      · cases done
      cases same
      have released := free_releases fw stored.owned.early frees
      have set (field : TextKey) : final.text field = some (settingOf content field) := by
        obtain ⟨value, found⟩ := Option.isSome_iff_exists.mp (given (.text field))
        have last := readLines_text accepted field
        rw [settingOf, ← last, found]
        rfl
      have closed : Calls ordinary _ after := (service_calls _ _ fun _ => trivial : Relates _ (fileClose fw _)).run closing
      cases closing
      refine ⟨(grammar_iff content).mpr ⟨final, accepted, given⟩, sizes, closed.bsExited.trans
        (released.bsExited.trans stored.owned.early), fun field => ?_, fun field => ?_, fun field => ?_⟩
      · have present := (stored.texts field _ (set field)).1
        exact released.keeps _ (stored.owned.blocks field present) (stored.owned.foreign field)
      · exact Nat.le_of_eq (stored.texts field _ (set field)).2.1.symm
      · have here := (stored.texts field _ (set field)).2.2
        rw [← congrArg Ram.mem released.ram] at here
        exact here

/-- The strings of the configuration, in memory. -/
structure Located (config : WbootConfig) (content : List UInt8) (world : World) (sizes : TextKey → Nat) : Prop where
  grammar : Grammar content
  carried : Carried config sizes (settingOf content) world
  bounded : ∀ field, pointer config field + sizes field ≤ 2 ^ 64

theorem wbootLocateConfig_locates {stock : Nat → List UInt16 → List UInt8} {status : EfiStatus}
    (sound : AllocatorSound fw) (stocked : Stocked fw stock) (early : before.bsExited = false) (narrow : Narrow before)
    (run : wbootLocateConfig fw before = ((status, some config), after)) :
    ∃ sizes, Located config (stock config.root (wide "wboot.conf")) after sizes := by
  obtain ⟨root, opened, still, loads⟩ := wbootLocateConfig_loads early run
  obtain rfl : config.root = root := (wbootLoadConfig_root root).run loads config rfl
  obtain ⟨grammar, sizes, carried⟩ :=
    wbootLoadConfig_carried sound still (stocked.text _) (stocked.bounded _ _) (stocked.config _) loads
  have after := (narrow_searches sound).wbootLocateConfig.run run narrow
  exact ⟨sizes, grammar, carried, fun field => after _ (carried.lives field)⟩

end Locating

/-! ### The kernel -/

section Kernel
variable {fw : Firmware} {zstd : Zstd} {root file : Nat} {path : List UInt16} {content : List UInt8}
  {before after : World}

theorem Opened.calls (opened : Opened fw root path file before.history)
    (calls : Calls (fun event => ¬ forgets file event) before after) : Opened fw root path file after.history := by
  obtain ⟨newer, older, split, fine, same, quiet⟩ := opened
  obtain ⟨events, grown, still⟩ := calls.history
  refine ⟨events ++ newer, older, by rw [grown, split, List.append_assoc], fine, same, ?_⟩
  exact List.forall_mem_append.mpr ⟨still, quiet⟩

theorem Opened.allocated {history : History} (opened : Opened fw root path file history) (size pointer : Nat)
    (status : EfiStatus) : Opened fw root path file (.allocatePool size status pointer :: history) := by
  obtain ⟨newer, older, split, fine, same, quiet⟩ := opened
  refine ⟨.allocatePool size status pointer :: newer, older, by rw [split, List.cons_append], fine, same, ?_⟩
  exact List.forall_mem_cons.mpr ⟨id, quiet⟩

theorem openFile_run {pointer : Nat} {reply : EfiStatus × Nat} (run : openFile fw root pointer before = (reply, after)) :
    reply = fw.fileOpen before.history root (wideString before.mem pointer) ∧
      after.history = .fileOpen root (wideString before.mem pointer) reply.1 reply.2 :: before.history := by
  cases run
  exact ⟨rfl, rfl⟩

theorem openFile_opened {pointer : Nat} {reply : EfiStatus × Nat} (names : wideString before.mem pointer = path)
    (run : openFile fw root pointer before = (reply, after)) (fine : efiError reply.1 = false) :
    Opened fw root path reply.2 after.history := by
  obtain ⟨answered, called⟩ := openFile_run run
  subst names
  exact ⟨[], before.history, answered ▸ called, answered ▸ fine, congrArg Prod.snd answered.symm, List.forall_mem_nil _⟩

/-- A header that is accepted is what the file has at 0x1f1. -/
theorem wbootReadSetupHeader_reads {stack header : SetupHeader} {status : EfiStatus}
    (reads : ReadsHere fw file content before.history)
    (run : wbootReadSetupHeader fw file stack before = ((status, header), after)) (fine : efiError status = false) :
    header.bytes = (content.drop 0x1f1).take sizeofSetupHeader ∧
      Calls (fun event => ¬ forgets file event) before after := by
  have refused : efiError efiInvalidParameter = true := by decide
  unfold wbootReadSetupHeader at run
  rw [run_bind] at run
  obtain ⟨sought, positioned, seeks, run⟩ := run
  rw [run_ite] at run
  rcases run with ⟨failed, run⟩ | ⟨there, run⟩
  · rw [run_bind] at run
    obtain ⟨_, _, _, done⟩ := run
    cases done
    exact Bool.noConfusion (fine.symm.trans failed)
  rw [run_bind] at run
  obtain ⟨reply, delivered, delivers, run⟩ := run
  rw [run_ite] at run
  rcases run with ⟨failed, run⟩ | ⟨good, run⟩
  · rw [run_bind] at run
    obtain ⟨_, _, _, done⟩ := run
    cases done
    exact Bool.noConfusion (fine.symm.trans failed)
  rw [run_ite] at run
  -- a short read and the two magics return an error status
  rcases run with ⟨-, run⟩ | ⟨whole, run⟩
  · rw [run_bind] at run
    obtain ⟨_, _, _, done⟩ := run
    cases done
    exact Bool.noConfusion (fine.symm.trans refused)
  rw [run_ite] at run
  rcases run with ⟨-, run⟩ | ⟨-, run⟩
  · rw [run_bind] at run
    obtain ⟨_, _, _, done⟩ := run
    cases done
    exact Bool.noConfusion (fine.symm.trans refused)
  rw [run_ite] at run
  rcases run with ⟨-, run⟩ | ⟨-, run⟩
  · rw [run_bind] at run
    obtain ⟨_, _, _, done⟩ := run
    cases done
    exact Bool.noConfusion (fine.symm.trans refused)
  cases run
  cases seeks
  cases delivers
  have length := Decidable.not_not.mp whole
  have piece := reads 0x1f1 _ sizeofSetupHeader (by simpa using there) (by simpa using good)
  have same := List.prefix_iff_eq_take.mp piece
  rw [length] at same
  refine ⟨?_, rfl, [_, _], rfl, ?_⟩
  · have none : stack.bytes.length ≤ sizeofSetupHeader := Nat.le_of_eq stack.length_eq
    simp only [overwritten]
    rw [length, List.drop_eq_nil_of_le none, List.append_nil, List.take_of_length_le (Nat.le_of_eq length)]
    exact same
  · simp [forgets]

/-- A kernel that is unpacked is the first frame of the payload in the file. -/
theorem wbootDecompressKernel_reads {firstFrame : List UInt8 → Option (Nat × List UInt8)} {header : SetupHeader}
    {out kernel : KernelBuffer} {status : EfiStatus} (sound : AllocatorSound fw)
    (frames : ZstdFrames zstd firstFrame) (early : before.bsExited = false)
    (reads : ∀ size pointer status, ReadsHere fw file content (.allocatePool size status pointer :: before.history))
    (run : wbootDecompressKernel fw zstd header file out before = ((status, kernel), after))
    (fine : efiError status = false) :
    ∃ length image,
      firstFrame ((content.drop (payloadStart header)).take (header.get Hdr.payloadLength)) = some (length, image) ∧
        image.length ≤ header.get Hdr.initSize ∧ TextAt after.mem kernel.pointer image := by
  have refused : efiError efiInvalidParameter = true := by decide
  cases KernelReads.wbootDecompressKernel_course early run with
  | unready => exact absurd fine (by decide)
  | unread _ _ bad => exact Bool.noConfusion (fine.symm.trans bad)
  | unframed => exact Bool.noConfusion (fine.symm.trans refused)
  | unplaced _ failed => exact Bool.noConfusion (fine.symm.trans failed)
  | unpacked steps granted unpacks =>
      rcases unpackImage_stays unpacks with same | ⟨⟨size, done⟩, -⟩
      · cases same
        exact Bool.noConfusion (fine.symm.trans refused)
      · cases done
  | placed steps granted unpacks frees =>
      have payload := payloadReached_bytes reads steps.reached
      obtain ⟨fits, length, image, first, long, text, -, -⟩ := Placing.image frames steps payload unpacks
      have placing := Placing.holds sound (.nothing early) steps
      rw [if_neg (by simp [granted])] at placing
      have unpacking := unpackImage_holds sound placing unpacks
      rw [← congrArg Ram.mem (free_releases fw unpacking.early frees).ram] at text
      exact ⟨length, image, first, by omega, text⟩

end Kernel

/-! ### The initramfs -/

/-- A run that succeeds has the file in pages of its own. -/
theorem wbootLoadInitramfs_reads {fw : Firmware} {stock : Nat → List UInt16 → List UInt8} {config : WbootConfig}
    {initramfs : Initramfs} {status : EfiStatus} {before after : World} {path : List UInt16}
    (sound : AllocatorSound fw) (stocked : Stocked fw stock) (early : before.bsExited = false)
    (names : wideString before.mem config.initrdPath = path)
    (run : wbootLoadInitramfs fw config ⟨0, 0⟩ before = ((status, initramfs), after)) (fine : efiError status = false) :
    InitramfsLoaded (stock config.root path) initramfs after ∧ Nonempty (Fetching fw config before after initramfs) := by
  subst names
  have bounded := stocked.bounded config.root (wideString before.mem config.initrdPath)
  obtain ⟨reply, opened, opens⟩ : ∃ reply opened, openFile fw config.root config.initrdPath before = (reply, opened) :=
    ⟨_, _, rfl⟩
  obtain ⟨answered, called⟩ := openFile_run opens
  have serves (openable : efiError reply.1 = false) :
      ServesFile fw opened.history reply.2 (stock config.root (wideString before.mem config.initrdPath)) := by
    rw [called, answered]
    rw [answered] at openable
    exact stocked.serves _ _ _ openable
  refine ⟨?_, ?_⟩
  · rcases wbootLoadInitramfs_holds sound early (by omega) opens serves run with ⟨failed, -⟩ | ⟨-, loaded, -⟩
    · exact Bool.noConfusion (fine.symm.trans failed)
    · exact loaded
  · rcases wbootLoadInitramfs_fetches run fine with ⟨openStatus, file, _, again, openable, sizes, -⟩ | steps
    · -- no size is found only with an error
      obtain ⟨rfl, rfl⟩ := Prod.mk.inj (opens.symm.trans again)
      have opening : Holdings.Holds before (leftOpen (openStatus, file)) opened :=
        Holdings.fileOpen_holds (.nothing early) opens
      have failed := (initramfsFileSize_holds sound (serves openable) ⟨[], rfl, List.forall_mem_nil _⟩ opening sizes).2
      exact Bool.noConfusion (fine.symm.trans failed)
    · exact steps

/-! ### All of them -/

section Loading
variable {fw : Firmware} {zstd : Zstd} {stack : SetupHeader} {stock : Nat → List UInt16 → List UInt8}
  {firstFrame : List UInt8 → Option (Nat × List UInt8)} {start loaded : World} {files : LoadedFiles}

theorem encoded_nonempty (field : TextKey) (value : List UInt8) : 0 < (encoded field value).length := by
  cases field <;> simp only [encoded, wideBytes_length, List.length_append, List.length_singleton] <;> omega

theorem settingOf_text {content : List UInt8} (text : ∀ c ∈ content, c ≠ 0) (field : TextKey) :
    (settingOf content field).length ≤ content.length ∧ ∀ c ∈ settingOf content field, c ≠ 0 := by
  unfold settingOf
  cases last : lastLine (.text field) content with
  | none => exact ⟨Nat.zero_le _, List.forall_mem_nil _⟩
  | some line =>
      have member := (lastLine_sets last).1
      refine ⟨(valueText_length_le line).trans (splitOnP_length_le content line member), fun c inside => ?_⟩
      exact text c (splitOnP_subset content line member c (valueText_subset line c inside))

theorem carried_paths {config : WbootConfig} {sizes : TextKey → Nat} {content : List UInt8} {world : World}
    (carried : Carried config sizes (settingOf content) world) (text : ∀ c ∈ content, c ≠ 0)
    (bounded : content.length + 1 < 2 ^ 63) :
    wideString world.mem config.kernelPath = pathOf content .kernel ∧
      wideString world.mem config.initrdPath = pathOf content .initrd := by
  have fits (field : TextKey) : (settingOf content field).length < addressSpace := by
    have short := (settingOf_text text field).1
    rw [addressSpace_eq]
    omega
  exact ⟨(strings_read (fits .kernel) (settingOf_text text .kernel).2).1 (carried.here .kernel),
    (strings_read (fits .initrd) (settingOf_text text .initrd).2).2.1 (carried.here .initrd)⟩

/-- What `wboot.conf` of the volume that was found is. -/
def confOf (stock : Nat → List UInt16 → List UInt8) (files : LoadedFiles) : List UInt8 :=
  stock files.config.root (wide "wboot.conf")

def kernelOf (stock : Nat → List UInt16 → List UInt8) (files : LoadedFiles) : List UInt8 :=
  stock files.config.root (pathOf (confOf stock files) .kernel)

def initrdOf (stock : Nat → List UInt16 → List UInt8) (files : LoadedFiles) : List UInt8 :=
  stock files.config.root (pathOf (confOf stock files) .initrd)

/-- The compressed image, where the header of the kernel file says. -/
def payloadIn (stock : Nat → List UInt16 → List UInt8) (files : LoadedFiles) : List UInt8 :=
  ((kernelOf stock files).drop (payloadStart files.header)).take (files.header.get Hdr.payloadLength)

/-- The configuration and the files it names are in memory. -/
structure Brought (stock : Nat → List UInt16 → List UInt8) (firstFrame : List UInt8 → Option (Nat × List UInt8))
    (files : LoadedFiles) (loaded : World) : Prop where
  grammar : Grammar (confOf stock files)
  carried : ∃ sizes, Carried files.config sizes (settingOf (confOf stock files)) loaded ∧
    ∀ field, Apart (reserved files).start (reserved files).size (pointer files.config field) (sizes field)
  bounded : ∀ field, pointer files.config field < 2 ^ 64
  header : files.header.bytes = ((kernelOf stock files).drop 0x1f1).take sizeofSetupHeader
  image : ∃ length image, firstFrame (payloadIn stock files) = some (length, image) ∧
    image.length ≤ files.header.get Hdr.initSize ∧ TextAt loaded.mem files.kernel.pointer image
  initramfs : InitramfsLoaded (initrdOf stock files) files.initramfs loaded
  pages : initramfsBlock files.initramfs ∈ live loaded.history
  room : files.initramfs.size ≤ initramfsPages files.initramfs.size * efiPageSize
  narrow : (initramfsBlock files.initramfs).start + (initramfsBlock files.initramfs).size ≤ 2 ^ 64

theorem loading_brings (sound : AllocatorSound fw) (stocked : Stocked fw stock) (frames : ZstdFrames zstd firstFrame)
    (early : start.bsExited = false) (narrow : Narrow start) (loading : Loading fw zstd stack start files loaded)
    (above : ∀ field, nullBytes ≤ pointer files.config field) : Brought stock firstFrame files loaded := by
  have introduced : loading.introduced.bsExited = false := loading.introduces.bsExited.trans early
  have introducing : Narrow loading.introduced := fun block member => narrow block (loading.introduces.history ▸ member)
  obtain ⟨sizes, grammar, located, ends⟩ :=
    wbootLocateConfig_locates sound stocked introduced introducing loading.locates
  obtain ⟨short, nonzero⟩ := settingOf_text (stocked.text files.config.root) .cmdline
  have bounded := stocked.bounded files.config.root (wide "wboot.conf")
  -- the strings of the configuration on the way to the kernel
  have shown := (printConfig_carries sound above (by omega) nonzero).run loading.shows located
  have opening := prints_carries loading.announces shown
  have opened := guards_carries (fun _ => (openFile_guards _ _).run loading.opens) opening
  have reading := prints_carries loading.prompts opened
  have read := guards_carries (fun _ => (wbootReadSetupHeader_guards _ _).run loading.reads) reading
  have unpacking := prints_carries loading.begins read
  have unpacked := guards_carries (fun field => wbootDecompressKernel_guards sound
    ⟨unpacking.early, unpacking.lives field⟩ loading.unpacks loading.unpackable) unpacking
  have fetching := prints_carries loading.continues unpacked
  -- the kernel file stays open until its payload is read
  have text := stocked.text files.config.root
  have kernel := openFile_opened (carried_paths opening text bounded).1 loading.opens loading.openable
  have ready := kernel.calls (loading.prompts.calls _)
  obtain ⟨header, calls⟩ := wbootReadSetupHeader_reads (stocked.seeks _ _ _ _ ready) loading.reads loading.readable
  have waiting := (ready.calls calls).calls (loading.begins.calls _)
  obtain ⟨length, image, first, fits, stands⟩ := wbootDecompressKernel_reads sound frames unpacking.early
    (fun size pointer status => stocked.seeks _ _ _ _ (waiting.allocated size pointer status)) loading.unpacks
    loading.unpackable
  obtain ⟨initramfs, ⟨steps⟩⟩ := wbootLoadInitramfs_reads sound stocked fetching.early
    (carried_paths fetching text bounded).2 loading.fetches loading.fetchable
  have room : files.initramfs.size ≤ initramfsPages files.initramfs.size * efiPageSize := by
    refine initramfsPages_cover ?_
    rw [initramfs.size]
    exact Nat.lt_of_succ_lt (stocked.bounded _ _)
  -- and the image until the initramfs is there
  obtain ⟨asking, granted, kept, fresh, lives, still, stays⟩ :=
    wbootDecompressKernel_places sound unpacking.early loading.unpacks loading.unpackable
  have own : Held (reserved files) granted := by
    refine ⟨still.trans ?_, ?_⟩
    · exact (kept _ ⟨unpacking.early, unpacking.lives .cmdline⟩).1
    · rw [lives]
      exact List.mem_cons_self
  have pages := prints_stays loading.continues (stays _ rfl own)
  have placed := Preservation.Fetching.guards sound pages steps room
  obtain ⟨-, same⟩ := placed.guards pages
  refine ⟨grammar, ⟨sizes, ?_, fun field => ?_⟩, fun field => ?_, header, ⟨length, image, first, fits, ?_⟩,
    initramfs, placed.lives, room, placed.bounded⟩
  · exact guards_carries (fun field => (Preservation.Fetching.guards sound ⟨fetching.early, fetching.lives field⟩
      steps room).guards) fetching
  · exact fresh.apart _ (kept _ ⟨unpacking.early, unpacking.lives field⟩).2
  · have last := ends field
    have long := (encoded_nonempty field _).trans_le (located.room field)
    omega
  · refine (textAt_congr fun x lower upper => ?_).mpr stands
    rw [same x lower, loading.continues.mem]
    simp only [reserved, kernelBlock, kernelPages, efiPageSize]
    omega

end Loading

end Wboot.Volumes
