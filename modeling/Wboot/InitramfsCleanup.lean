import Wboot.ConfigLoad
import Wboot.Holdings
import Wboot.NullPointers

/-! What `wboot_load_initramfs` holds on its ways out. The block of the file information is
given back on each of them, the pages on each but the last; the file stays open. -/

namespace Wboot.InitramfsCleanup
open StateProgram ByteMemory CString Machine Wstdlib Effects ConfigParser KernelImage BootParams Holdings
open ConfigLoad (moves fileGetInfo_run fileGetInfo_unmoved fileReadInto_run fileSize_delivered
  infoOf_length infoOf_size)
open ServiceEnd (infoOf)
open NullPointers (malloc_null)

/-- No call since has moved the file. -/
def AtStart (opening : History) (file : Nat) (history : History) : Prop :=
  ∃ newer, history = newer ++ opening ∧ ∀ event ∈ newer, ¬ moves file event

/-- A file with this content: there is no information of size zero, the information that is
delivered states the size, and a read delivers the bytes from the start or fewer. -/
structure ServesFile (fw : Firmware) (opening : History) (file : Nat) (content : List UInt8) : Prop where
  query : ∀ history, AtStart opening file history → efiError (fw.fileGetInfo history file 0 0).status = true
  info : ∀ history size buffer, AtStart opening file history →
    efiError (fw.fileGetInfo history file size buffer).status = false →
      let info := (fw.fileGetInfo history file size buffer).info.take size
      fileSizeField.offset + fileSizeField.width ≤ info.length ∧
        fileSizeField.get (fun x => info.getD x 0) 0 = content.length
  read : ∀ history size, AtStart opening file history → efiError (fw.fileRead history file size).1 = false →
    (fw.fileRead history file size).2.take size <+: content

section Stages
variable {fw : Firmware} {opening : History} {start before after : World} {held : Multiset Held} {file : Nat}
  {content : List UInt8}

theorem AtStart.calls (unmoved : AtStart opening file before.history)
    (calls : Calls (fun event => ¬ moves file event) before after) : AtStart opening file after.history := by
  obtain ⟨newer, grown, still⟩ := unmoved
  obtain ⟨events, later, quiet⟩ := calls.history
  refine ⟨events ++ newer, by rw [later, grown, List.append_assoc], ?_⟩
  exact List.forall_mem_append.mpr ⟨quiet, still⟩

/-- The block of the file information is given back on each way out. -/
theorem initramfsFileSize_kept (sound : AllocatorSound fw) (file : Nat) :
    Relates Kept (initramfsFileSize fw file) := by
  intro world start held holds
  obtain ⟨outcome, after, run⟩ : ∃ outcome after, initramfsFileSize fw file world = (outcome, after) := ⟨_, _, rfl⟩
  rw [run]
  unfold initramfsFileSize at run
  rw [run_bind] at run
  obtain ⟨query, asked, asks, run⟩ := run
  have asking := (fileGetInfo_kept file 0 0).run asks _ _ holds
  rw [run_ite] at run
  rcases run with ⟨-, run⟩ | ⟨-, run⟩
  · rw [run_bind] at run
    obtain ⟨_, told, tells, run⟩ := run
    cases run
    exact (printf_kept sound _ _).run tells _ _ asking
  rw [run_bind] at run
  obtain ⟨fileInfo, allocated, allocation, run⟩ := run
  have taken := malloc_holds sound asking allocation
  rw [run_ite] at run
  rcases run with ⟨null, run⟩ | ⟨-, run⟩
  · simp only [run_bind] at run
    obtain ⟨errno, _, here, _, told, tells, later, _, there, run⟩ := run
    obtain ⟨rfl, rfl⟩ := Prod.mk.inj here
    obtain ⟨rfl, rfl⟩ := Prod.mk.inj there
    cases run
    have none := (printf_kept sound _ _).run tells _ _ taken
    rwa [null, owned, if_pos rfl, Multiset.zero_add] at none
  rw [run_bind] at run
  obtain ⟨info, delivered, delivers, run⟩ := run
  have informed := (fileGetInfo_kept file _ fileInfo).run delivers _ _ taken
  rw [run_ite] at run
  rcases run with ⟨-, run⟩ | ⟨-, run⟩
  · exact undone_holds sound informed run
  · simp only [run_bind] at run
    obtain ⟨fileSize, _, here, ⟨⟩, freed, frees, run⟩ := run
    cases run
    exact free_holds ((inRam_kept _).run here _ _ informed) frees

/-- A failure is an error, and a size is that of the file. -/
theorem initramfsFileSize_holds (sound : AllocatorSound fw) (serves : ServesFile fw opening file content)
    (unmoved : AtStart opening file before.history) (holds : Holds start held before)
    {outcome : Except EfiStatus Nat} (run : initramfsFileSize fw file before = (outcome, after)) :
    Holds start held after ∧ match outcome with
      | .error status => efiError status = true
      | .ok size => size = content.length ∧ AtStart opening file after.history := by
  refine ⟨(initramfsFileSize_kept sound file).run run _ _ holds, ?_⟩
  unfold initramfsFileSize at run
  rw [run_bind] at run
  obtain ⟨query, asked, asks, run⟩ := run
  obtain ⟨replied, -, -, -⟩ := fileGetInfo_run asks
  rw [run_ite] at run
  rcases run with ⟨-, run⟩ | ⟨-, run⟩
  · rw [run_bind] at run
    obtain ⟨_, told, tells, run⟩ := run
    cases run
    exact replied ▸ serves.query _ unmoved
  have first := unmoved.calls ((fileGetInfo_unmoved _ _).run asks)
  rw [run_bind] at run
  obtain ⟨fileInfo, allocated, allocation, run⟩ := run
  have second := first.calls ((malloc_calls fw (fun _ _ _ => id) _).run allocation)
  rw [run_ite] at run
  rcases run with ⟨null, run⟩ | ⟨present, run⟩
  · have refused := @malloc_null fw sound query.size asked
    rw [allocation] at refused
    simp only [run_bind] at run
    obtain ⟨errno, _, here, _, told, tells, later, _, there, run⟩ := run
    obtain ⟨rfl, rfl⟩ := Prod.mk.inj here
    obtain ⟨rfl, rfl⟩ := Prod.mk.inj there
    cases run
    -- printing leaves errno as it is
    have quiet := (printf_prints fw _ _ (by decide +kernel)).run tells
    exact (congrArg efiError quiet.errno).trans (refused null)
  rw [run_bind] at run
  obtain ⟨info, delivered, delivers, run⟩ := run
  obtain ⟨answered, -, -, written⟩ := fileGetInfo_run delivers
  rw [run_ite] at run
  rcases run with ⟨failed, run⟩ | ⟨good, run⟩
  · have error : outcome = .error info.status := (congrArg Prod.fst run).symm
    subst error
    exact failed
  have third := second.calls ((fileGetInfo_unmoved _ _).run delivers)
  simp only [run_bind] at run
  obtain ⟨fileSize, _, here, ⟨⟩, freed, frees, run⟩ := run
  cases run
  have size : fileSize = content.length := by
    obtain ⟨long, same⟩ := serves.info allocated.history query.size fileInfo second
      (by rw [← answered]; simpa using good)
    rw [← answered] at long same
    have loaded : fileSize = fileSizeField.get delivered.mem fileInfo := (congrArg Prod.fst here).symm
    rw [loaded, written present, fileSize_delivered _ _ _ long, same]
  have still : AtStart opening file after.history := by
    refine AtStart.calls ?_ ((free_calls fw (fun _ _ => id) _).run frees)
    exact third.calls ((inRam_calls _).run here)
  exact ⟨size, still⟩

theorem allocateInitramfs_holds {pages : Nat} {reply : EfiStatus × Nat} (holds : Holds start held before)
    (run : allocateInitramfs fw pages before = (reply, after)) :
    Holds start (if efiError reply.1 then held else .pages reply.2 pages ::ₘ held) after := by
  unfold allocateInitramfs at run
  rw [run_bind] at run
  obtain ⟨low, tried, tries, run⟩ := run
  have trying := allocatePages_holds holds tries
  rw [run_ite] at run
  rcases run with ⟨refused, run⟩ | ⟨-, run⟩
  · rw [if_pos refused] at trying
    exact allocatePages_holds trying run
  · cases run
    exact trying

theorem allocateInitramfs_calls (pages : Nat) :
    Relates (Calls fun event => ¬ moves file event) (allocateInitramfs fw pages) := by
  have asks (kind : AllocateType) (request : Nat) :
      Relates (Calls fun event => ¬ moves file event) (allocatePages fw kind pages request) :=
    service_calls _ _ fun _ => id
  exact (asks _ _).bind fun low => .ite (fun _ => asks _ _) fun _ => .pure low

/-- Pages that are no use are given back. -/
theorem unread_holds (sound : AllocatorSound fw) {format : List UInt16} {args : List Arg} {address pages : Nat}
    {value outcome : EfiStatus × Initramfs} (holds : Holds start (.pages address pages ::ₘ held) before)
    (run : (do
      printf fw format args
      let _ ← freePages fw address pages
      return value : Boot (EfiStatus × Initramfs)) before = (outcome, after)) : Holds start held after := by
  simp only [run_bind] at run
  obtain ⟨_, told, tells, _, unmapped, unmaps, run⟩ := run
  cases run
  exact freePages_holds ((printf_kept sound _ _).run tells _ _ holds) unmaps

end Stages

/-! ### The whole function -/

/-- The file that was opened is never closed. -/
def leftOpen (opened : EfiStatus × Nat) : Multiset Held := if efiError opened.1 then 0 else {.file opened.2}

def filePages (content : List UInt8) : Nat := (content.length + efiPageSize - 1) / efiPageSize

/-- The file stands at the start of its pages, and what it leaves of them is zero. -/
structure InitramfsLoaded (content : List UInt8) (initramfs : Initramfs) (world : World) : Prop where
  size : initramfs.size = content.length
  text : TextAt world.mem initramfs.pointer content
  rest : ∀ x, initramfs.pointer + content.length ≤ x → x < initramfs.pointer + filePages content * efiPageSize →
    world.mem x = 0

section Loading
variable {fw : Firmware} {config : WbootConfig} {content : List UInt8} {before after : World}

theorem filePages_unwrapped (bounded : content.length < 2 ^ 64 - 4095) :
    u64 (content.length + efiPageSize - 1) / efiPageSize = filePages content := by
  have small : content.length + efiPageSize - 1 < 2 ^ 64 := by
    rw [efiPageSize]
    omega
  rw [filePages, u64, Nat.mod_eq_of_lt small]

theorem wbootLoadInitramfs_holds {out : Initramfs} {outcome : EfiStatus × Initramfs} {opened : EfiStatus × Nat}
    {world : World} (sound : AllocatorSound fw) (early : before.bsExited = false)
    (bounded : content.length < 2 ^ 64 - 4095)
    (opens : openFile fw config.root config.initrdPath before = (opened, world))
    (serves : efiError opened.1 = false → ServesFile fw world.history opened.2 content)
    (run : wbootLoadInitramfs fw config out before = (outcome, after)) :
    (efiError outcome.1 = true ∧ outcome.2 = out ∧ Settles before after (leftOpen opened)) ∨
      (outcome.1 = efiSuccess ∧ InitramfsLoaded content outcome.2 after ∧
        Settles before after (.pages outcome.2.pointer (filePages content) ::ₘ leftOpen opened)) := by
  have short : efiError efiBadBufferSize = true := by decide
  unfold wbootLoadInitramfs at run
  rw [run_bind] at run
  obtain ⟨_, _, again, run⟩ := run
  obtain ⟨rfl, rfl⟩ := Prod.mk.inj (opens.symm.trans again)
  have opening : Holds before (leftOpen opened) world := by
    rw [openFile, run_bind] at opens
    obtain ⟨path, _, here, opens⟩ := opens
    obtain ⟨rfl, rfl⟩ := Prod.mk.inj here
    exact fileOpen_holds (.nothing early) opens
  rw [run_ite] at run
  rcases run with ⟨failed, run⟩ | ⟨openable, run⟩
  · rw [run_bind] at run
    obtain ⟨_, told, tells, run⟩ := run
    cases run
    exact Or.inl ⟨failed, rfl, ((printf_kept sound _ _).run tells _ _ opening).settles⟩
  have served := serves (by simpa using openable)
  rw [run_bind] at run
  obtain ⟨sized, measured, measures, run⟩ := run
  obtain ⟨measuring, ending⟩ := initramfsFileSize_holds sound served ⟨[], rfl, List.forall_mem_nil _⟩ opening measures
  cases sized with
  | error status =>
      cases run
      exact Or.inl ⟨ending, rfl, measuring.settles⟩
  | ok fileSize =>
      obtain ⟨rfl, unmoved⟩ := ending
      dsimp only at run
      rw [filePages_unwrapped bounded, run_bind] at run
      obtain ⟨buffer, granted, grants, run⟩ := run
      have granting := allocateInitramfs_holds measuring grants
      have waiting := unmoved.calls ((allocateInitramfs_calls _).run grants)
      rw [run_ite] at run
      rcases run with ⟨refused, run⟩ | ⟨given, run⟩
      · rw [if_pos refused] at granting
        rw [run_bind] at run
        obtain ⟨_, told, tells, run⟩ := run
        cases run
        exact Or.inl ⟨refused, rfl, ((printf_kept sound _ _).run tells _ _ granting).settles⟩
      rw [if_neg given] at granting
      rw [run_bind] at run
      obtain ⟨_, cleared, clears, run⟩ := run
      have clearing := (inRam_kept _).run clears _ _ granting
      have zeros : cleared.mem = setLoop granted.mem buffer.2 0 (filePages content * efiPageSize) := by
        cases clears
        rfl
      have still := waiting.calls ((inRam_calls _).run clears)
      rw [run_bind] at run
      obtain ⟨reply, delivered, delivers, run⟩ := run
      obtain ⟨answered, -, -, written⟩ := fileReadInto_run delivers
      have delivering := (fileReadInto_kept _ _ _).run delivers _ _ clearing
      rw [run_ite] at run
      rcases run with ⟨failed, run⟩ | ⟨good, run⟩
      · have status : outcome = (reply.1, out) := (congrArg Prod.fst run).symm
        subst status
        exact Or.inl ⟨failed, rfl, (unread_holds sound delivering run).settles⟩
      rw [run_ite] at run
      rcases run with ⟨-, run⟩ | ⟨whole, run⟩
      · have status : outcome = (efiBadBufferSize, out) := (congrArg Prod.fst run).symm
        subst status
        exact Or.inl ⟨short, rfl, (unread_holds sound delivering run).settles⟩
      cases run
      -- a prefix as long as the file is the file
      have bytes : (fw.fileRead cleared.history opened.2 content.length).2.take content.length = content := by
        rw [answered] at good whole
        exact (served.read _ _ still (by simpa using good)).eq_of_length (Decidable.not_not.mp whole)
      rw [bytes, zeros] at written
      refine Or.inr ⟨rfl, ⟨rfl, ?_, fun x lower upper => ?_⟩, delivering.settles⟩
      · rw [written]
        exact textAt_storeBytes _ _ _
      · dsimp only at lower upper
        rw [written, storeBytes_frame _ _ _ _ (Or.inr lower), setLoop_apply, if_pos ⟨by omega, upper⟩]

/-- All or nothing: a failure leaves the outputs alone and has given back the blocks and
pages it took; a success has kept the pages with the file in them. -/
theorem wbootLoadInitramfs_settles (sound : AllocatorSound fw) (config : WbootConfig) (out : Initramfs)
    (content : List UInt8) (bounded : content.length < 2 ^ 64 - 4095) (world : World) (early : world.bsExited = false)
    (serves : let opened := openFile fw config.root config.initrdPath world
      efiError opened.1.1 = false → ServesFile fw opened.2.history opened.1.2 content) :
    let opened := (openFile fw config.root config.initrdPath world).1
    let load := wbootLoadInitramfs fw config out world
    (efiError load.1.1 = true ∧ load.1.2 = out ∧ Settles world load.2 (leftOpen opened)) ∨
      (load.1.1 = efiSuccess ∧ InitramfsLoaded content load.1.2 load.2 ∧
        Settles world load.2 (.pages load.1.2.pointer (filePages content) ::ₘ leftOpen opened)) :=
  wbootLoadInitramfs_holds sound early bounded Prod.mk.eta.symm serves Prod.mk.eta.symm

end Loading

/-! A volume with one file on it, which is longer than a page. -/

def longFile : List UInt8 := List.replicate 4099 7

theorem longFile_short : longFile.length < 2 ^ 64 - 4095 := by
  rw [longFile, List.length_replicate]
  omega

def longFirmware : Firmware := { idleFirmware with
  fileGetInfo := fun _ _ size _ =>
    if size < 88 then ⟨efiBufferTooSmall, 88, []⟩ else ⟨efiSuccess, 88, infoOf longFile.length⟩
  fileRead := fun _ _ size => (efiSuccess, longFile.take size) }

theorem longFirmware_sound : AllocatorSound longFirmware :=
  ⟨idleFirmware_sound.pool, idleFirmware_sound.pages, idleFirmware_sound.text, idleFirmware_sound.atAddress⟩

theorem longFirmware_serves (opening : History) (file : Nat) : ServesFile longFirmware opening file longFile where
  query := fun _ _ => rfl
  info := by
    intro history size buffer _ good
    have room : ¬ size < 88 := by
      intro small
      simp only [longFirmware, small, ↓reduceIte] at good
      exact absurd good (by decide)
    simp only [longFirmware, room, ↓reduceIte]
    rw [List.take_of_length_le (by rw [infoOf_length]; omega), infoOf_length]
    exact ⟨by decide, infoOf_size (by have short := longFile_short; omega)⟩
  read := fun _ _ _ _ => (List.take_prefix _ _).trans (List.take_prefix _ _)

theorem long_file_settles :
    let config := emptyConfig 1
    let opened := (openFile longFirmware config.root config.initrdPath bootWorld).1
    let load := wbootLoadInitramfs longFirmware config ⟨0, 0⟩ bootWorld
    load.1.1 = efiSuccess ∧
      ((efiError load.1.1 = true ∧ load.1.2 = ⟨0, 0⟩ ∧ Settles bootWorld load.2 (leftOpen opened)) ∨
        (load.1.1 = efiSuccess ∧ InitramfsLoaded longFile load.1.2 load.2 ∧
          Settles bootWorld load.2 (.pages load.1.2.pointer (filePages longFile) ::ₘ leftOpen opened))) :=
  ⟨by decide +kernel, wbootLoadInitramfs_settles longFirmware_sound (emptyConfig 1) ⟨0, 0⟩ longFile
    longFile_short bootWorld rfl fun _ => longFirmware_serves _ _⟩

end Wboot.InitramfsCleanup
