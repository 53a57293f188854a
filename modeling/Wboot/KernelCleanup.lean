import Wboot.Holdings
import Wboot.Survival

/-! What `wboot_decompress_kernel` holds on its eleven ways out: the buffer of the payload,
and the pages of the image from the time they are granted. A failure gives back what there
is; a success keeps the pages, with the first frame of the payload in them. -/

namespace Wboot.KernelCleanup
open StateProgram ByteMemory CString Machine LinuxBoot Wstdlib Effects KernelImage KernelReads Holdings

/-- `firstFrame` is the length and the content of the frame some bytes begin with. zstd
finds the one and decompresses the other, or reports an error. -/
structure ZstdFrames (zstd : Zstd) (firstFrame : List UInt8 → Option (Nat × List UInt8)) : Prop
    extends ZstdSound zstd where
  found : ∀ bytes, zstd.isError (zstd.findFrameCompressedSize bytes) = false →
    ∃ content, firstFrame bytes = some (zstd.findFrameCompressedSize bytes, content)
  content : ∀ bytes length content history capacity, firstFrame bytes = some (length, content) →
    zstd.isError (zstd.decompressDCtx history capacity (bytes.take length)).1 = false →
      (zstd.decompressDCtx history capacity (bytes.take length)).2 = content

/-- After a seek that succeeded, a read that succeeds delivers what is there, or less. -/
def ReadsAt (fw : Firmware) (file : Nat) (content : List UInt8) : Prop :=
  ∀ history position status size, efiError status = false →
    efiError (fw.fileRead (.fileSetPosition file position status :: history) file size).1 = false →
      (fw.fileRead (.fileSetPosition file position status :: history) file size).2.take size <+:
        content.drop position

/-- The same after one history. -/
def ReadsHere (fw : Firmware) (file : Nat) (content : List UInt8) (history : History) : Prop :=
  ∀ position status size, efiError status = false →
    efiError (fw.fileRead (.fileSetPosition file position status :: history) file size).1 = false →
      (fw.fileRead (.fileSetPosition file position status :: history) file size).2.take size <+:
        content.drop position

section Stages
variable {fw : Firmware} {zstd : Zstd} {header : SetupHeader} {start before after : World} {held : Multiset Held}

theorem readyContext_kept : Relates Kept (readyContext zstd) := by
  intro world
  obtain ⟨-, history, exited, -, -⟩ := readyContext_run (Prod.mk.eta.symm : readyContext zstd world = _)
  exact kept_of_same exited history

/-- A stage that fails holds what was held before it; one that succeeds keeps more. -/
def Stage {α : Type} (start after : World) (held : Multiset Held) (more : α → Multiset Held) :
    Except EfiStatus α → Prop
  | .error _ => Holds start held after
  | .ok value => Holds start (more value + held) after

theorem undone_stage (sound : AllocatorSound fw) {α : Type} {more : α → Multiset Held} {format : List UInt16}
    {args : List Arg} {compressed : Nat} {status : EfiStatus} {outcome : Except EfiStatus α}
    (holds : Holds start (owned compressed + held) before)
    (run : (do
      printf fw format args
      free fw compressed
      return .error status : Boot (Except EfiStatus α)) before = (outcome, after)) :
    Stage start after held more outcome := by
  have failed : outcome = .error status := (congrArg Prod.fst run).symm
  subst failed
  exact undone_holds sound holds run

theorem readPayload_holds (sound : AllocatorSound fw) {file : Nat} {outcome : Except EfiStatus Nat}
    (holds : Holds start held before) (run : readPayload fw header file before = (outcome, after)) :
    Stage start after held owned outcome := by
  unfold readPayload at run
  rw [run_bind] at run
  obtain ⟨compressed, allocated, allocation, run⟩ := run
  have taken := malloc_holds sound holds allocation
  rw [run_ite] at run
  rcases run with ⟨null, run⟩ | ⟨-, run⟩
  · rw [run_bind] at run
    obtain ⟨errno, _, here, run⟩ := run
    obtain ⟨rfl, rfl⟩ := Prod.mk.inj here
    rw [run_bind] at run
    obtain ⟨_, told, tells, run⟩ := run
    cases run
    have none := (printf_kept sound _ _).run tells _ _ taken
    rwa [null, owned, if_pos rfl, Multiset.zero_add] at none
  rw [run_bind] at run
  obtain ⟨status, positioned, positions, run⟩ := run
  have seeking := (fileSetPosition_kept file _).run positions _ _ taken
  rw [run_ite] at run
  -- a failed seek, a failed read and a short read all free the buffer they hold
  rcases run with ⟨-, run⟩ | ⟨-, run⟩
  · exact undone_stage sound seeking run
  rw [run_bind] at run
  obtain ⟨reply, read, reads, run⟩ := run
  have reading := (fileReadInto_kept file _ _).run reads _ _ seeking
  rw [run_ite] at run
  rcases run with ⟨-, run⟩ | ⟨-, run⟩
  · exact undone_stage sound reading run
  rw [run_ite] at run
  rcases run with ⟨-, run⟩ | ⟨-, run⟩
  · exact undone_stage sound reading run
  · cases run
    exact reading

theorem lacksMagic_kept (size magic : Nat) (word : Prog Ram Nat) : Relates Kept (lacksMagic size magic word) :=
  .ite (fun _ => .pure true) fun _ => (inRam_kept _).bind fun _ => .pure _

theorem payloadFrame_holds (sound : AllocatorSound fw) {compressed : Nat} {outcome : Except EfiStatus Nat}
    (holds : Holds start (owned compressed + held) before)
    (run : payloadFrame fw zstd header compressed before = (outcome, after)) :
    Stage start after held (fun _ => owned compressed) outcome := by
  unfold payloadFrame at run
  rw [run_bind] at run
  obtain ⟨lacking, tested, tests, run⟩ := run
  have testing := (lacksMagic_kept _ _ _).run tests _ _ holds
  rw [run_ite] at run
  rcases run with ⟨-, run⟩ | ⟨-, run⟩
  · rw [run_bind] at run
    obtain ⟨word, read, reads, run⟩ := run
    exact undone_stage sound ((inRam_kept _).run reads _ _ testing) run
  rw [run_bind] at run
  obtain ⟨frame, _, here, run⟩ := run
  obtain ⟨rfl, rfl⟩ := Prod.mk.inj here
  rw [run_ite] at run
  rcases run with ⟨-, run⟩ | ⟨-, run⟩
  · exact undone_stage sound testing run
  · cases run
    exact testing

theorem allocateImage_holds (sound : AllocatorSound fw) {reply : EfiStatus × Nat} (holds : Holds start held before)
    (run : allocateImage fw header before = (reply, after)) :
    Holds start (if efiError reply.1 then held else .pages reply.2 (kernelPages header) ::ₘ held) after := by
  unfold allocateImage at run
  rw [run_ite] at run
  rcases run with ⟨-, run⟩ | ⟨-, run⟩
  · exact allocatePages_holds holds run
  rw [run_bind] at run
  obtain ⟨preferred, tried, tries, run⟩ := run
  have trying := allocatePages_holds holds tries
  rw [run_ite] at run
  rcases run with ⟨taken, run⟩ | ⟨-, run⟩
  · rw [if_pos taken] at trying
    rw [run_bind] at run
    obtain ⟨_, warned, warns, run⟩ := run
    exact allocatePages_holds ((printf_kept sound _ _).run warns _ _ trying) run
  · cases run
    exact trying

/-- An image that is refused is given back before the buffer is. -/
theorem unpackImage_holds (sound : AllocatorSound fw) {compressed frame image : Nat} {outcome : Except EfiStatus Nat}
    (holds : Holds start (.pages image (kernelPages header) ::ₘ (owned compressed + held)) before)
    (run : unpackImage fw zstd header compressed frame image before = (outcome, after)) :
    Stage start after held (fun _ => .pages image (kernelPages header) ::ₘ owned compressed) outcome := by
  -- both refusals give back the pages first and the payload after them
  have refused {format : List UInt16} {args : List Arg} {world : World}
      (holds : Holds start (.pages image (kernelPages header) ::ₘ (owned compressed + held)) world)
      (run : (do
        printf fw format args
        let _ ← freePages fw image (kernelPages header)
        free fw compressed
        return .error efiInvalidParameter : Boot (Except EfiStatus Nat)) world = (outcome, after)) :
      Stage start after held (fun _ => .pages image (kernelPages header) ::ₘ owned compressed) outcome := by
    simp only [run_bind] at run
    obtain ⟨_, told, tells, _, unmapped, unmaps, ⟨⟩, freed, frees, run⟩ := run
    cases run
    exact free_holds (freePages_holds ((printf_kept sound _ _).run tells _ _ holds) unmaps) frees
  have decompresses : Relates Kept (zstdDecompress zstd image (header.get Hdr.initSize) compressed frame) :=
    (Relates.read _).bind fun _ => (inRam_kept _).bind fun _ => .pure _
  unfold unpackImage at run
  rw [run_bind] at run
  obtain ⟨size, unpacked, unpacks, run⟩ := run
  have unpacking := decompresses.run unpacks _ _ holds
  rw [run_ite] at run
  rcases run with ⟨-, run⟩ | ⟨-, run⟩
  · exact refused unpacking run
  rw [run_bind] at run
  obtain ⟨lacking, tested, tests, run⟩ := run
  have testing := (lacksMagic_kept _ _ _).run tests _ _ unpacking
  rw [run_ite] at run
  rcases run with ⟨-, run⟩ | ⟨-, run⟩
  · rw [run_bind] at run
    obtain ⟨word, read, reads, run⟩ := run
    exact refused ((inRam_kept _).run reads _ _ testing) run
  · cases run
    change Holds start (.pages image (kernelPages header) ::ₘ owned compressed + held) after
    rwa [Multiset.cons_add]

/-- What zstd wrote, as far as the capacity goes, is what is left in the pages. -/
theorem unpackImage_text {compressed frame image size : Nat}
    (run : unpackImage fw zstd header compressed frame image before = (.ok size, after)) :
    after.mem = storeBytes before.mem image ((zstd.decompressDCtx before.history (header.get Hdr.initSize)
      (bytesAt before.mem compressed frame)).2.take (header.get Hdr.initSize)) := by
  unfold unpackImage at run
  rw [run_bind] at run
  obtain ⟨found, unpacked, unpacks, run⟩ := run
  have written : unpacked.mem = storeBytes before.mem image ((zstd.decompressDCtx before.history
      (header.get Hdr.initSize) (bytesAt before.mem compressed frame)).2.take (header.get Hdr.initSize)) := by
    cases unpacks
    rfl
  rw [run_ite] at run
  rcases run with ⟨-, run⟩ | ⟨-, run⟩
  · simp only [run_bind] at run
    obtain ⟨_, _, -, _, _, -, _, _, -, done⟩ := run
    cases done
  rw [run_bind] at run
  obtain ⟨lacking, tested, tests, run⟩ := run
  -- looking at the magic logs an access and writes nothing
  have same : tested.mem = unpacked.mem := by
    rw [lacksMagic, run_ite] at tests
    rcases tests with ⟨-, tests⟩ | ⟨-, tests⟩
    · cases tests
      rfl
    · rw [run_bind] at tests
      obtain ⟨word, looked, looks, tests⟩ := tests
      cases looks
      cases tests
      rfl
  rw [run_ite] at run
  rcases run with ⟨-, run⟩ | ⟨-, run⟩
  · simp only [run_bind] at run
    obtain ⟨_, _, -, _, _, -, _, _, -, _, _, -, done⟩ := run
    cases done
  · cases run
    exact same.trans written

end Stages

/-! ### The whole function -/

/-- The image stands in pages of its own, which are all that is left. -/
structure KernelLoaded (fw : Firmware) (zstd : Zstd) (firstFrame : List UInt8 → Option (Nat × List UInt8))
    (header : SetupHeader) (file : Nat) (content : List UInt8) (before after : World) (kernel : KernelBuffer) :
    Prop where
  settles : Settles before after {.pages kernel.pointer (kernelPages header)}
  placed : ∃ payload, payloadReached fw zstd header file before = some payload ∧
    kernel.pointer = (imagePages fw header payload.history).1.2 ∧
    (header.get Hdr.prefAddress ≠ 0 → efiError (fw.allocatePages payload.history .address (kernelPages header)
      (header.get Hdr.prefAddress)).1 = false → kernel.pointer = header.get Hdr.prefAddress)
  fits : kernel.size ≤ header.get Hdr.initSize
  image : ∃ length image, firstFrame ((content.drop (payloadStart header)).take (header.get Hdr.payloadLength)) =
      some (length, image) ∧ image.length = kernel.size ∧ TextAt after.mem kernel.pointer image ∧
    4 ≤ image.length ∧ firstWord image = elfMagic

section Unpacking
variable {fw : Firmware} {zstd : Zstd} {header : SetupHeader} {file : Nat} {before after : World}

/-- The payload is what the file has where the header says. -/
theorem payloadOf_bytes {content : List UInt8} {history : History} {payload : Payload}
    (reads : ∀ size pointer status, ReadsHere fw file content (.allocatePool size status pointer :: history))
    (found : payloadOf fw header file history = some payload) :
    payload.bytes = (content.drop (payloadStart header)).take (header.get Hdr.payloadLength) := by
  unfold payloadOf at found
  dsimp only at found
  split at found
  · cases found
  · rename_i fine
    simp only [not_or, Bool.not_eq_true] at fine
    obtain ⟨-, -, sought, answered, whole⟩ := fine
    cases found
    have delivered := reads _ _ _ _ _ (header.get Hdr.payloadLength) sought answered
    have start := List.prefix_iff_eq_take.mp delivered
    rwa [Decidable.not_not.mp whole] at start

theorem payloadReached_bytes {content : List UInt8} {payload : Payload}
    (reads : ∀ size pointer status, ReadsHere fw file content (.allocatePool size status pointer :: before.history))
    (found : payloadReached fw zstd header file before = some payload) :
    payload.bytes = (content.drop (payloadStart header)).take (header.get Hdr.payloadLength) := by
  unfold payloadReached at found
  split at found
  · exact payloadOf_bytes reads found
  · cases found

theorem imagePages_placed (sound : AllocatorSound fw) (history : History)
    (preferred : header.get Hdr.prefAddress ≠ 0) (granted : efiError (fw.allocatePages history .address
      (kernelPages header) (header.get Hdr.prefAddress)).1 = false) :
    (imagePages fw header history).1.2 = header.get Hdr.prefAddress := by
  have here := sound.atAddress history (kernelPages header) (header.get Hdr.prefAddress) granted
  simpa only [imagePages, preferred, granted, ↓reduceIte, Bool.false_eq_true] using here

section Steps

theorem Delivering.holds (sound : AllocatorSound fw) (holds : Holds start held before)
    (steps : Delivering fw zstd header file before) :
    Holds start (owned steps.payload.pointer + held) steps.delivered :=
  readPayload_holds sound (readyContext_kept.run steps.prepares _ _ holds) steps.reads

theorem Placing.holds (sound : AllocatorSound fw) (holds : Holds start held before)
    (steps : Placing fw zstd header file before) :
    Holds start (if efiError steps.reply.1 then owned steps.payload.pointer + held
      else .pages steps.reply.2 (kernelPages header) ::ₘ (owned steps.payload.pointer + held)) steps.allocated := by
  have framed := payloadFrame_holds sound (Delivering.holds sound holds steps.toDelivering) steps.frames
  exact allocateImage_holds sound framed steps.allocates

/-- What is in the pages at the end: the content of the first frame. -/
theorem Placing.image {firstFrame : List UInt8 → Option (Nat × List UInt8)} {content : List UInt8} {size : Nat}
    {unpacked : World} (frames : ZstdFrames zstd firstFrame) (steps : Placing fw zstd header file before)
    (payload : steps.payload.bytes = (content.drop (payloadStart header)).take (header.get Hdr.payloadLength))
    (unpacks : unpackImage fw zstd header steps.payload.pointer
      (zstd.findFrameCompressedSize steps.payload.bytes) steps.reply.2 steps.allocated = (.ok size, unpacked)) :
    size ≤ header.get Hdr.initSize ∧ ∃ length image,
      firstFrame ((content.drop (payloadStart header)).take (header.get Hdr.payloadLength)) = some (length, image) ∧
        image.length = size ∧ TextAt unpacked.mem steps.reply.2 image ∧ 4 ≤ image.length ∧
        firstWord image = elfMagic := by
  have inside := frames.frame _ steps.good
  obtain ⟨result, produced⟩ : ∃ result, zstd.decompressDCtx steps.allocated.history (header.get Hdr.initSize)
      (steps.payload.bytes.take (zstd.findFrameCompressedSize steps.payload.bytes)) = result := ⟨_, rfl⟩
  obtain ⟨-, ending⟩ := @unpackImage_run fw zstd header steps.allocated unpacked 0 result.1 _ _ _ _ _ result
    frames.toZstdSound steps.held inside produced (fun _ => rfl) unpacks
  rcases ending with ⟨done, -⟩ | ⟨same, fine, large, elf⟩
  · cases done
  cases same
  have sized := frames.size steps.allocated.history (header.get Hdr.initSize)
    (steps.payload.bytes.take (zstd.findFrameCompressedSize steps.payload.bytes))
  rw [produced] at sized
  obtain ⟨length, fits⟩ := sized fine
  obtain ⟨image, first⟩ := frames.found steps.payload.bytes steps.good
  have same : result.2 = image := by
    have decompressed := frames.content _ _ _ steps.allocated.history (header.get Hdr.initSize) first
    rw [produced] at decompressed
    exact decompressed fine
  subst same
  -- all of it fits, so all of it was written
  have written := unpackImage_text unpacks
  rw [bytesAt_textAt steps.held _ inside, produced, List.take_of_length_le (by omega)] at written
  rw [payload] at first
  refine ⟨fits, _, result.2, first, length, ?_, by rwa [length], elf⟩
  rw [written]
  exact textAt_storeBytes _ _ _

end Steps

/-- The pages of the image, if there is one. -/
def imageHeld (header : SetupHeader) (outcome : EfiStatus × KernelBuffer) : Multiset Held :=
  if efiError outcome.1 then 0 else {.pages outcome.2.pointer (kernelPages header)}

theorem wbootDecompressKernel_adds {out : KernelBuffer} {outcome : EfiStatus × KernelBuffer} (sound : AllocatorSound fw)
    (holds : Holds start held before) (run : wbootDecompressKernel fw zstd header file out before = (outcome, after)) :
    Holds start (imageHeld header outcome + held) after := by
  have nothing {status : EfiStatus} (failed : efiError status = true) (holds : Holds start held after) :
      Holds start (imageHeld header (status, out) + held) after := by
    rwa [imageHeld, if_pos failed, zero_add]
  have preparing {ready : Bool} {prepared : World} (prepares : readyContext zstd before = (ready, prepared)) :
      Holds start held prepared :=
    readyContext_kept.run prepares _ _ holds
  cases wbootDecompressKernel_course holds.early run with
  | unready prepares _ tells => exact nothing (by decide) ((printf_kept sound _ _).run tells _ _ (preparing prepares))
  | unread prepares reads bad => exact nothing bad (readPayload_holds sound (preparing prepares) reads)
  | unframed steps frames =>
      exact nothing (by decide) (payloadFrame_holds sound (Delivering.holds sound holds steps) frames)
  | unplaced steps failed tells frees =>
      have placing := Placing.holds sound holds steps
      rw [if_pos failed] at placing
      exact nothing failed (free_holds ((printf_kept sound _ _).run tells _ _ placing) frees)
  | unpacked steps granted unpacks =>
      have placing := Placing.holds sound holds steps
      rw [if_neg (by simp [granted])] at placing
      have unpacking := unpackImage_holds sound placing unpacks
      rcases Survival.unpackImage_stays unpacks with same | ⟨⟨size, done⟩, -⟩
      · cases same
        exact nothing (by decide) unpacking
      · cases done
  | placed steps granted unpacks frees =>
      have placing := Placing.holds sound holds steps
      rw [if_neg (by simp [granted])] at placing
      have unpacking := unpackImage_holds sound placing unpacks
      change Holds start (.pages steps.reply.2 (kernelPages header) ::ₘ owned steps.payload.pointer + held) _ at unpacking
      -- the payload is freed and the pages of the image stay
      have order : .pages steps.reply.2 (kernelPages header) ::ₘ owned steps.payload.pointer + held =
          owned steps.payload.pointer + ({.pages steps.reply.2 (kernelPages header)} + held) := by
        rw [← Multiset.singleton_add, add_assoc, add_left_comm]
      rw [order] at unpacking
      have fine : efiError efiSuccess = false := by decide
      simpa only [imageHeld, fine, Bool.false_eq_true, ↓reduceIte] using free_holds unpacking frees

theorem wbootDecompressKernel_holds {firstFrame : List UInt8 → Option (Nat × List UInt8)} {content : List UInt8}
    {out : KernelBuffer} {outcome : EfiStatus × KernelBuffer} (sound : AllocatorSound fw)
    (frames : ZstdFrames zstd firstFrame) (reads : ReadsAt fw file content) (early : before.bsExited = false)
    (run : wbootDecompressKernel fw zstd header file out before = (outcome, after)) :
    (efiError outcome.1 = true ∧ outcome.2 = out ∧ Settles before after 0) ∨
      (outcome.1 = efiSuccess ∧ KernelLoaded fw zstd firstFrame header file content before after outcome.2) := by
  have refused : efiError efiInvalidParameter = true := by decide
  have scarce : efiError efiOutOfResources = true := by decide
  have adds := (wbootDecompressKernel_adds sound (.nothing early) run).settles
  have nothing {status : EfiStatus} (failed : efiError status = true)
      (settles : Settles before after (imageHeld header (status, out) + 0)) : Settles before after 0 := by
    rwa [imageHeld, if_pos failed, zero_add] at settles
  -- every course but the last one leaves the outputs alone
  cases wbootDecompressKernel_course early run with
  | unready => exact Or.inl ⟨scarce, rfl, nothing scarce adds⟩
  | unread _ _ bad => exact Or.inl ⟨bad, rfl, nothing bad adds⟩
  | unframed => exact Or.inl ⟨refused, rfl, nothing refused adds⟩
  | unplaced _ failed => exact Or.inl ⟨failed, rfl, nothing failed adds⟩
  | unpacked steps granted unpacks =>
      rcases Survival.unpackImage_stays unpacks with same | ⟨⟨size, done⟩, -⟩
      · cases same
        exact Or.inl ⟨refused, rfl, nothing refused adds⟩
      · cases done
  | placed steps granted unpacks frees =>
      have placing := Placing.holds sound (.nothing early) steps
      rw [if_neg (by simp [granted])] at placing
      have released := free_releases fw (unpackImage_holds sound placing unpacks).early frees
      have answer : steps.reply = (imagePages fw header steps.payload.history).1 := (congrArg Prod.fst steps.asked).symm
      have payload := payloadReached_bytes (fun _ _ _ => reads _) steps.reached
      obtain ⟨fits, length, image, first, long, text, large, elf⟩ := Placing.image frames steps payload unpacks
      have same : after.mem = _ := congrArg Ram.mem released.ram
      rw [← same] at text
      refine Or.inr ⟨rfl, adds, ⟨steps.payload, steps.reached, congrArg Prod.snd answer,
        fun preferred given => ?_⟩, fits, length, image, first, long, text, large, elf⟩
      exact (congrArg Prod.snd answer).trans (imagePages_placed sound _ preferred given)

/-- All or nothing: an error leaves the outputs alone and has given everything back; a
success has left the image in its pages, and nothing more. -/
theorem wbootDecompressKernel_settles {firstFrame : List UInt8 → Option (Nat × List UInt8)} {content : List UInt8}
    (sound : AllocatorSound fw) (frames : ZstdFrames zstd firstFrame) (reads : ReadsAt fw file content)
    (header : SetupHeader) (out : KernelBuffer) (world : World) (early : world.bsExited = false) :
    let result := wbootDecompressKernel fw zstd header file out world
    (efiError result.1.1 = true ∧ result.1.2 = out ∧ Settles world result.2 0) ∨
      (result.1.1 = efiSuccess ∧ KernelLoaded fw zstd firstFrame header file content world result.2 result.1.2) :=
  wbootDecompressKernel_holds sound frames reads early Prod.mk.eta.symm

end Unpacking

/-! A volume with one kernel on it, whose payload follows the setup sectors. -/

def kernelFile : List UInt8 := List.replicate 2560 0 ++ storedImage 0x2000000

def seekingFirmware : Firmware := { idleFirmware with
  fileRead := fun history _ size =>
    match history with
    | .fileSetPosition _ position _ :: _ => (efiSuccess, (kernelFile.drop position).take size)
    | _ => (efiSuccess, []) }

theorem seekingFirmware_sound : AllocatorSound seekingFirmware :=
  ⟨idleFirmware_sound.pool, idleFirmware_sound.pages, idleFirmware_sound.text, idleFirmware_sound.atAddress⟩

theorem seekingFirmware_reads : ReadsAt seekingFirmware 1 kernelFile := by
  intro history position status size _ _
  exact (List.take_prefix _ _).trans (List.take_prefix _ _)

theorem storingZstd_frames : ZstdFrames storingZstd firstRawFrame where
  toZstdSound := storingZstd_sound
  found := fun bytes fine => by
    simp only [storingZstd] at fine ⊢
    cases first : firstRawFrame bytes with
    | none =>
        rw [first] at fine
        exact absurd fine (by decide)
    | some frame => exact ⟨frame.2, rfl⟩
  content := fun bytes length content history capacity first fine => by
    obtain ⟨_, _, again, -, same⟩ := storingZstd_fine fine
    obtain ⟨-, rfl⟩ := Prod.mk.inj (Option.some.inj ((firstRawFrame_take first).symm.trans again))
    rw [same]

theorem stored_kernel_settles :
    let result := wbootDecompressKernel seekingFirmware storingZstd (acceptedHeader 193) 1 ⟨0, 0⟩ bootWorld
    result.1.1 = efiSuccess ∧ ((efiError result.1.1 = true ∧ result.1.2 = ⟨0, 0⟩ ∧ Settles bootWorld result.2 0) ∨
      (result.1.1 = efiSuccess ∧ KernelLoaded seekingFirmware storingZstd firstRawFrame (acceptedHeader 193) 1
        kernelFile bootWorld result.2 result.1.2)) :=
  ⟨by decide +kernel, wbootDecompressKernel_settles seekingFirmware_sound storingZstd_frames seekingFirmware_reads
    (acceptedHeader 193) ⟨0, 0⟩ bootWorld rfl⟩

end Wboot.KernelCleanup
