import Wboot.Phase2

/-! Phase 3 took the kernel from phase 2 and changed its messages. From worlds that differ
only in what is on the console, the two read the same header, unpack the same kernel, make
the same calls and leave the same memory. -/

namespace Wboot.PhaseAgreement
open StateProgram ByteMemory CString Machine LinuxBoot Wstdlib PrintfPieces Effects ConfigParser KernelImage

/-- All that a program sees. The console is only written, and the log of the accesses is
no part of the program. -/
structure Alike (left right : World) : Prop where
  mem : left.mem = right.mem
  history : left.history = right.history
  bsExited : left.bsExited = right.bsExited
  errno : left.errno = right.errno
  dctx : left.dctx = right.dctx

instance : IsPreorder World Alike where
  refl := fun _ => ⟨rfl, rfl, rfl, rfl, rfl⟩
  trans := fun _ _ _ left right => ⟨left.mem.trans right.mem, left.history.trans right.history,
    left.bsExited.trans right.bsExited, left.errno.trans right.errno, left.dctx.trans right.dctx⟩

instance : Std.Symm Alike where
  symm := fun _ _ alike => ⟨alike.mem.symm, alike.history.symm, alike.bsExited.symm, alike.errno.symm, alike.dctx.symm⟩

theorem prints_alike (before after : World) (prints : Prints before after) : Alike before after :=
  ⟨prints.mem.symm, prints.history.symm, prints.bsExited.symm, prints.errno.symm, prints.dctx.symm⟩

/-- Messages on both sides. -/
theorem prints_agree {left right : Boot Unit} (first : Relates Prints left) (second : Relates Prints right) :
    Agrees Alike left right := by
  intro here there same
  have quiet := prints_alike _ _ (first here)
  have other := prints_alike _ _ (second there)
  exact ⟨rfl, IsTrans.trans _ _ _ (Std.Symm.symm _ _ quiet) (IsTrans.trans _ _ _ same other)⟩

/-- The argument that a piece has to widen. -/
def narrowed : Piece → Option Arg
  | .narrow arg => some arg
  | _ => none

section Parts
variable (fw : Firmware) (zstd : Zstd)

theorem service_agrees {ρ : Type} (answer : History → ρ) (event : ρ → Event) :
    Agrees Alike (service answer event) (service answer event) := by
  intro here there same
  rw [service_apply, service_apply, same.history]
  exact ⟨rfl, same.mem, rfl, same.bsExited, same.errno, same.dctx⟩

/-- A change of memory that looks at memory only. -/
theorem inRam_agrees {α : Type} {program : Prog Ram α}
    (blind : ∀ first second : Ram, first.mem = second.mem →
      (program first).1 = (program second).1 ∧ (program first).2.mem = (program second).2.mem) :
    Agrees Alike (inRam program) (inRam program) := by
  intro here there same
  obtain ⟨value, mem⟩ := blind here.toRam there.toRam same.mem
  exact ⟨value, mem, same.history, same.bsExited, same.errno, same.dctx⟩

theorem deliver_agrees (address : Nat) (bytes : List UInt8) :
    Agrees Alike (inRam (deliver address bytes)) (inRam (deliver address bytes)) :=
  inRam_agrees fun _ _ same => ⟨rfl, congrArg (storeBytes · address bytes) same⟩

theorem field_agrees (base : Nat) (field : Field) :
    Agrees Alike (inRam (loadField base field)) (inRam (loadField base field)) :=
  inRam_agrees fun _ _ same => ⟨congrArg (field.get · base) same, same⟩

/-- A word that is read with a note of it. -/
theorem word_agrees (access : Access) (address : Nat) :
    Agrees Alike (inRam (do recordAccess access; readState fun ram => load ram.mem address 4))
      (inRam (do recordAccess access; readState fun ram => load ram.mem address 4)) :=
  inRam_agrees fun _ _ same => ⟨congrArg (load · address 4) same, same⟩

theorem errno_agrees (status : EfiStatus) : Agrees Alike (setErrno status) (setErrno status) :=
  .modify fun _ _ same => ⟨same.mem, same.history, same.bsExited, rfl, same.dctx⟩

theorem bug_agrees {format : List UInt16} (text : onlyText format = true) :
    Agrees Alike (bug format) (bug format) :=
  prints_agree (bug_prints text) (bug_prints text)

theorem malloc_agrees (size : Nat) : Agrees Alike (malloc fw size) (malloc fw size) := by
  refine Agrees.bind (.read fun _ _ same => same.bsExited) fun exited => .ite (fun _ => ?_) fun _ => ?_
  · refine Agrees.bind (bug_agrees (by decide +kernel)) fun _ => ?_
    exact (errno_agrees _).bind fun _ => .pure 0
  · refine Agrees.bind (service_agrees _ _) fun reply => .ite (fun _ => ?_) fun _ => .pure _
    exact (errno_agrees _).bind fun _ => .pure 0

theorem free_agrees (ptr : Nat) : Agrees Alike (free fw ptr) (free fw ptr) := by
  refine Agrees.bind (.read fun _ _ same => same.bsExited) fun exited => .ite (fun _ => ?_) fun _ => ?_
  · exact (bug_agrees (by decide +kernel)).bind fun _ => .pure ()
  · refine .ite (fun _ => ?_) fun _ => .pure ()
    exact Agrees.bind (service_agrees _ _) fun status => errno_agrees status

/-- `%-s` goes through a buffer that is taken, written and given back alike. -/
theorem narrow_agrees (arg : Arg) : Agrees Alike (printfNarrow fw arg) (printfNarrow fw arg) := by
  refine Agrees.bind (prints_agree (recordRead_prints arg) (recordRead_prints arg)) fun _ => ?_
  refine Agrees.bind (.read fun _ _ same => congrArg (readNarrow · arg) same.mem) fun str => ?_
  refine (malloc_agrees fw _).bind fun buffer => ?_
  refine Agrees.bind ?_ fun _ => ?_
  · exact Agrees.bind (inRam_agrees fun _ _ same => ⟨rfl, same⟩) fun _ => deliver_agrees _ _
  exact (prints_agree (printfWriteArg_prints _) (printfWriteArg_prints _)).bind fun _ => free_agrees fw buffer

/-- What is printed around the strings that have to be widened makes no difference. -/
theorem pieces_agree (found : List Piece) : Agrees Alike (runPieces (printfNarrow fw) found)
    (runPieces (printfNarrow fw) ((found.filterMap narrowed).map .narrow)) := by
  induction found with
  | nil => exact .pure ()
  | cons piece rest ih =>
      cases piece with
      | narrow arg => exact (narrow_agrees fw arg).bind fun _ => ih
      | verbatim text => exact .leftOnly ((console_prints _).mono prints_alike) fun _ => ih
      | conversion c arg => exact .leftOnly ((convert_prints c arg).mono prints_alike) fun _ => ih
      | cut => exact .leftOnly ((console_prints _).mono prints_alike) fun _ => ih

theorem printf_agrees {left right : List UInt16} {some others : List Arg}
    (same : (pieces left some).filterMap narrowed = (pieces right others).filterMap narrowed) :
    Agrees Alike (printf fw left some) (printf fw right others) := by
  refine Agrees.bind ?_ fun _ => prints_agree (console_prints _) (console_prints _)
  rw [printfScan_pieces, printfScan_pieces]
  intro here there alike
  obtain ⟨-, first⟩ := pieces_agree fw (pieces left some) here there alike
  obtain ⟨-, second⟩ := pieces_agree fw (pieces right others) there there (Std.Refl.refl _)
  rw [same] at first
  exact ⟨rfl, IsTrans.trans _ _ _ first (Std.Symm.symm _ _ second)⟩

/-- Two messages around one string. -/
theorem narrows_agree {left right after : List UInt16} (first : ∀ c ∈ left, c ≠ percent)
    (second : ∀ c ∈ right, c ≠ percent) (last : ∀ c ∈ after, c ≠ percent) (arg : Arg) :
    Agrees Alike (printf fw (left ++ percent :: minus :: letterS :: after) [arg])
      (printf fw (right ++ percent :: minus :: letterS :: after) [arg]) := by
  have text (characters : List UInt16) :
      (characters.map fun c => Piece.verbatim [c]).filterMap narrowed = [] := by
    simp [List.filterMap_map, Function.comp_def, narrowed]
  refine printf_agrees fw ?_
  rw [pieces_narrow first last, pieces_narrow second last]
  simp only [List.filterMap_append, List.filterMap_cons, text, narrowed]

theorem messages_agree {left right : List UInt16} (some others : List Arg) (first : plain left = true)
    (second : plain right = true) : Agrees Alike (printf fw left some) (printf fw right others) :=
  prints_agree (printf_prints fw left some first) (printf_prints fw right others second)

theorem perrors_agree (left right : List UInt16) (some others : EfiStatus) :
    Agrees Alike (perror fw left some) (perror fw right others) :=
  prints_agree (perror_prints fw left some) (perror_prints fw right others)

theorem printf_alike {format : List UInt16} (args : List Arg) (safe : plain format = true) :
    Relates Alike (printf fw format args) :=
  (printf_prints fw format args safe).mono prints_alike

/-- One of phase 2, beside another message or beside nothing. -/
theorem message_agrees {left right : List UInt16} (some others : List Arg) (said : left ∈ Phase2.messages)
    (second : plain right = true) : Agrees Alike (printf fw left some) (printf fw right others) :=
  messages_agree fw some others (Phase2.plainMessages left said) second

theorem message_alike {format : List UInt16} (args : List Arg) (said : format ∈ Phase2.messages) :
    Relates Alike (printf fw format args) :=
  printf_alike fw args (Phase2.plainMessages format said)

theorem fileReadInto_agrees (file size buffer : Nat) :
    Agrees Alike (fileReadInto fw file size buffer) (fileReadInto fw file size buffer) :=
  Agrees.bind (service_agrees _ _) fun _ => (deliver_agrees _ _).bind fun _ => .pure _

/-! ### The two phases -/

theorem wbootReadSetupHeader_agrees (file : Nat) (header : SetupHeader) :
    Agrees Alike (Phase2.wbootReadSetupHeader fw file header) (wbootReadSetupHeader fw file header) := by
  refine Agrees.bind (service_agrees _ _) fun status => .ite (fun _ => ?_) fun _ => ?_
  · exact (perrors_agree fw _ _ _ _).bind fun _ => .pure _
  refine Agrees.bind (service_agrees _ _) fun reply => .ite (fun _ => ?_) fun _ => .ite (fun _ => ?_) fun _ => ?_
  · exact (perrors_agree fw _ _ _ _).bind fun _ => .pure _
  · exact (message_agrees fw _ _ (by simp [Phase2.messages]) (by decide +kernel)).bind fun _ => .pure _
  refine .ite (fun _ => ?_) fun _ => .ite (fun _ => ?_) fun _ => .pure _
  · exact (message_agrees fw _ _ (by simp [Phase2.messages]) (by decide +kernel)).bind fun _ => .pure _
  · exact (message_agrees fw _ _ (by simp [Phase2.messages]) (by decide +kernel)).bind fun _ => .pure _

theorem readyContext_agrees : Agrees Alike (readyContext zstd) (readyContext zstd) := by
  refine Agrees.bind (.read fun _ _ same => same.dctx) fun dctx => .ite (fun _ => .pure _) fun _ => ?_
  refine Agrees.bind (.read fun _ _ same => congrArg zstd.createDCtx same.history) fun created => ?_
  refine Agrees.bind (.modify fun _ _ same => ?_) fun _ => .pure _
  exact ⟨same.mem, same.history, same.bsExited, same.errno, rfl⟩

/-- A message on each side, and the buffer is given back. -/
theorem undone_agrees {left right : Boot Unit} (agrees : Agrees Alike left right) (compressed : Nat)
    (status : EfiStatus) : Agrees Alike
      (do left; free fw compressed; return .error status : Boot (Except EfiStatus Nat))
      (do right; free fw compressed; return .error status) :=
  agrees.bind fun _ => (free_agrees fw compressed).bind fun _ => .pure _

theorem readPayload_agrees (header : SetupHeader) (file : Nat) :
    Agrees Alike (Phase2.readPayload fw header file) (readPayload fw header file) := by
  refine (malloc_agrees fw _).bind fun compressed => .ite (fun _ => ?_) fun _ => ?_
  · refine .rightOnly (.read _) fun errno => ?_
    exact (message_agrees fw _ _ (by simp [Phase2.messages]) (by decide +kernel)).bind fun _ => .pure _
  refine .leftOnly (message_alike fw _ (by simp [Phase2.messages])) fun _ => ?_
  refine .leftOnly (message_alike fw _ (by simp [Phase2.messages])) fun _ => ?_
  refine Agrees.bind (service_agrees _ _) fun status => .ite (fun _ => ?_) fun _ => ?_
  · exact undone_agrees fw (message_agrees fw _ _ (by simp [Phase2.messages]) (by decide +kernel)) _ _
  refine (fileReadInto_agrees fw _ _ _).bind fun reply => .ite (fun _ => ?_) fun _ => .ite (fun _ => ?_) fun _ => ?_
  · exact undone_agrees fw (message_agrees fw _ _ (by simp [Phase2.messages]) (by decide +kernel)) _ _
  · exact undone_agrees fw (message_agrees fw _ _ (by simp [Phase2.messages]) (by decide +kernel)) _ _
  · exact .pure _

theorem payloadWord_agrees (compressed : Nat) :
    Agrees Alike (inRam (payloadWord compressed)) (inRam (payloadWord compressed)) :=
  word_agrees _ _

theorem imageWord_agrees (image : Nat) :
    Agrees Alike (inRam (imageWord image)) (inRam (imageWord image)) :=
  word_agrees _ _

theorem lacksMagic_agrees (size magic : Nat) {word : Prog Ram Nat} (agrees : Agrees Alike (inRam word) (inRam word)) :
    Agrees Alike (lacksMagic size magic word) (lacksMagic size magic word) :=
  .ite (fun _ => .pure _) fun _ => agrees.bind fun _ => .pure _

/-- The two messages with an error of the library in them, in either phase. -/
structure NarrowMessages : Prop where
  frame : wide "Error finding zstd compressed frame size: %-s\r\n" =
    wide "Error finding zstd compressed frame size: " ++ percent :: minus :: letterS :: wide "\r\n"
  frame' : wide "[decompress_kernel] error finding zstd compressed frame size: %-s\r\n" =
    wide "[decompress_kernel] error finding zstd compressed frame size: " ++
      percent :: minus :: letterS :: wide "\r\n"
  image : wide "Error decompressing kernel: %-s\r\n" =
    wide "Error decompressing kernel: " ++ percent :: minus :: letterS :: wide "\r\n"
  image' : wide "[decompress_kernel] error decompressing kernel: %-s\r\n" =
    wide "[decompress_kernel] error decompressing kernel: " ++ percent :: minus :: letterS :: wide "\r\n"

theorem narrowMessages : NarrowMessages where
  frame := by decide +kernel
  frame' := by decide +kernel
  image := by decide +kernel
  image' := by decide +kernel

theorem payloadFrame_agrees (header : SetupHeader) (compressed : Nat) :
    Agrees Alike (Phase2.payloadFrame fw zstd header compressed) (payloadFrame fw zstd header compressed) := by
  refine (lacksMagic_agrees _ _ (payloadWord_agrees _)).bind fun lacking => .ite (fun _ => ?_) fun _ => ?_
  · refine (payloadWord_agrees _).bind fun word => ?_
    exact undone_agrees fw (message_agrees fw _ _ (by simp [Phase2.messages]) (by decide +kernel)) _ _
  refine Agrees.bind (.read fun _ _ same => ?_) fun frame => .ite (fun _ => ?_) fun _ => ?_
  · rw [same.mem]
  · rw [narrowMessages.frame, narrowMessages.frame']
    exact undone_agrees fw (narrows_agree fw (by decide) (by decide) (by decide) _) _ _
  · exact .leftOnly (message_alike fw _ (by simp [Phase2.messages])) fun _ => .pure _

theorem allocateAnywhere_agrees (header : SetupHeader) : Agrees Alike (Phase2.allocateAnywhere fw header)
    (allocatePages fw .anyPages (kernelPages header) (header.get Hdr.prefAddress)) :=
  .leftOnly (message_alike fw _ (by simp [Phase2.messages])) fun _ => service_agrees _ _

theorem allocateImage_agrees (header : SetupHeader) :
    Agrees Alike (Phase2.allocateImage fw header) (allocateImage fw header) := by
  unfold Phase2.allocateImage allocateImage
  refine .ite (fun _ => allocateAnywhere_agrees fw header) fun _ => ?_
  refine .leftOnly (message_alike fw _ (by simp [Phase2.messages])) fun _ => ?_
  refine Agrees.bind (service_agrees _ _) fun preferred => .ite (fun _ => ?_) fun _ => .pure _
  refine (message_agrees fw _ _ (by simp [Phase2.messages]) (by decide +kernel)).bind fun _ => ?_
  exact allocateAnywhere_agrees fw header

theorem zstdDecompress_agrees (image capacity compressed frame : Nat) :
    Agrees Alike (zstdDecompress zstd image capacity compressed frame)
      (zstdDecompress zstd image capacity compressed frame) := by
  refine Agrees.bind (.read fun _ _ same => ?_) fun result => (deliver_agrees _ _).bind fun _ => .pure _
  rw [same.history, same.mem]

theorem unpackImage_agrees (header : SetupHeader) (compressed frame image : Nat) :
    Agrees Alike (Phase2.unpackImage fw zstd header compressed frame image)
      (unpackImage fw zstd header compressed frame image) := by
  have undone {left right : Boot Unit} (agrees : Agrees Alike left right) : Agrees Alike
      (do left; let _ ← freePages fw image (kernelPages header); free fw compressed
          return .error efiInvalidParameter : Boot (Except EfiStatus Nat))
      (do right; let _ ← freePages fw image (kernelPages header); free fw compressed
          return .error efiInvalidParameter) :=
    agrees.bind fun _ => Agrees.bind (service_agrees _ _) fun _ => (free_agrees fw compressed).bind fun _ => .pure _
  refine (zstdDecompress_agrees zstd _ _ _ _).bind fun size => .ite (fun _ => ?_) fun _ => ?_
  · rw [narrowMessages.image, narrowMessages.image']
    exact undone (narrows_agree fw (by decide) (by decide) (by decide) _)
  refine (lacksMagic_agrees _ _ (imageWord_agrees _)).bind fun lacking => .ite (fun _ => ?_) fun _ => .pure _
  refine (imageWord_agrees _).bind fun word => ?_
  exact undone (message_agrees fw _ _ (by simp [Phase2.messages]) (by decide +kernel))

theorem wbootDecompressKernel_agrees (header : SetupHeader) (file : Nat) (out : KernelBuffer) :
    Agrees Alike (Phase2.wbootDecompressKernel fw zstd header file out)
      (wbootDecompressKernel fw zstd header file out) := by
  refine (readyContext_agrees zstd).bind fun ready => .ite (fun _ => ?_) fun _ => ?_
  · exact (message_agrees fw _ _ (by simp [Phase2.messages]) (by decide +kernel)).bind fun _ => .pure _
  refine (readPayload_agrees fw header file).bind fun payload => ?_
  cases payload with
  | error status => exact .pure _
  | ok compressed =>
      refine (payloadFrame_agrees fw zstd header compressed).bind fun frame => ?_
      cases frame with
      | error status => exact .pure _
      | ok frame =>
          refine .leftOnly (message_alike fw _ (by simp [Phase2.messages])) fun _ => ?_
          refine (allocateImage_agrees fw header).bind fun image => .ite (fun _ => ?_) fun _ => ?_
          · refine (message_agrees fw _ _ (by simp [Phase2.messages]) (by decide +kernel)).bind fun _ => ?_
            exact (free_agrees fw compressed).bind fun _ => .pure _
          refine .leftOnly (message_alike fw _ (by simp [Phase2.messages])) fun _ => ?_
          refine (unpackImage_agrees fw zstd header compressed frame image.2).bind fun size => ?_
          cases size with
          | error status => exact .pure _
          | ok size => exact (free_agrees fw compressed).bind fun _ => .pure _

theorem initramfsFileSize_agrees (file : Nat) :
    Agrees Alike (Phase2.initramfsFileSize fw file) (BootParams.initramfsFileSize fw file) := by
  have informs (size buffer : Nat) :
      Agrees Alike (fileGetInfo fw file size buffer) (fileGetInfo fw file size buffer) :=
    Agrees.bind (service_agrees _ _) fun reply =>
      .ite (fun _ => (deliver_agrees _ _).bind fun _ => .pure _) fun _ => .pure _
  have errno : Agrees Alike (readState World.errno) (readState World.errno) := .read fun _ _ same => same.errno
  refine (informs _ _).bind fun query => .ite (fun _ => ?_) fun _ => ?_
  · exact (messages_agree fw _ _ (by decide +kernel) (by decide +kernel)).bind fun _ => .pure _
  refine .leftOnly (printf_alike fw _ (by decide +kernel)) fun _ => ?_
  refine (malloc_agrees fw _).bind fun fileInfo => .ite (fun _ => ?_) fun _ => ?_
  · refine errno.bind fun failed => ?_
    exact (messages_agree fw _ _ (by decide +kernel) (by decide +kernel)).bind fun _ => errno.bind fun _ => .pure _
  refine (informs _ _).bind fun info => .ite (fun _ => ?_) fun _ => ?_
  · refine (messages_agree fw _ _ (by decide +kernel) (by decide +kernel)).bind fun _ => ?_
    exact (free_agrees fw _).bind fun _ => .pure _
  · exact (field_agrees _ _).bind fun size => (free_agrees fw _).bind fun _ => .pure _

end Parts

/-- Phase 3 reads the header and unpacks the kernel as phase 2 does: the same answers, the same
calls and the same memory. -/
theorem phases_agree (fw : Firmware) (zstd : Zstd) (file : Nat) (stack header : SetupHeader) (out : KernelBuffer) :
    Agrees Alike (Phase2.wbootReadSetupHeader fw file stack) (wbootReadSetupHeader fw file stack) ∧
      Agrees Alike (Phase2.wbootDecompressKernel fw zstd header file out)
        (wbootDecompressKernel fw zstd header file out) :=
  ⟨wbootReadSetupHeader_agrees fw file stack, wbootDecompressKernel_agrees fw zstd header file out⟩

end Wboot.PhaseAgreement
