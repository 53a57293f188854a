import Wboot.ConfigSearch
import Wboot.Phase2

/-! `wboot_locate_kernel` (src/phase2/wboot.c) wants the kernel and its initramfs on one
volume. A volume with only one of them is passed over, and what it has stays open. -/

namespace Wboot.KernelSearch
open StateProgram ByteMemory Machine Wstdlib Effects ConfigEffects Phase2
open ConfigSearch (Visit)

section Effects
variable {fw : Firmware} {step : World → World → Prop} [IsPreorder World step]

theorem Searches.printDevicePath (searches : Searches fw step) (handle : Nat) :
    Relates step (Phase2.printDevicePath fw handle) := by
  refine Relates.bind (searches.looks _ _ fun _ => trivial) fun found =>
    .ite (fun _ => ?_) fun _ => searches.shows _ _
  have rest (text : Nat) : Relates step (do
      printf fw (wide "  Device path: %s\r\n") [.widePointer text]
      let _ ← freePool fw text
      return () : Boot Unit) :=
    (searches.shows _ _).bind fun _ => (searches.drops _).bind fun _ => .pure _
  refine (searches.texts _).bind fun text => .ite (fun _ => ?_) fun _ => rest _
  exact (searches.shows _ _).bind fun _ => rest _

theorem Searches.openFiles (searches : Searches fw step) (handle : Nat) (out : FoundFiles) :
    Relates step (openFiles fw handle out) := by
  have opens (root : Nat) (path : List UInt16) : Relates step (fileOpen fw root path) :=
    searches.files _ _ fun _ => trivial
  have told (message : List UInt16) (status : EfiStatus) (result : Bool × FoundFiles) : Relates step (do
      perror fw message status
      return result : Boot (Bool × FoundFiles)) :=
    (searches.shows _ _).bind fun _ => .pure _
  refine Relates.bind (searches.looks _ _ fun _ => trivial) fun fs => .ite (fun _ => told _ _ _) fun _ => ?_
  refine Relates.bind (searches.looks _ _ fun _ => trivial) fun root => .ite (fun _ => told _ _ _) fun _ => ?_
  refine (opens _ _).bind fun kernel => .ite (fun _ => told _ _ _) fun _ => (searches.shows _ _).bind fun _ => ?_
  refine (opens _ _).bind fun initramfs => .ite (fun _ => told _ _ _) fun _ => ?_
  exact (searches.shows _ _).bind fun _ => .pure _

theorem Searches.tryVolume (searches : Searches fw step) (handle : Nat) (out : FoundFiles) :
    Relates step (tryVolume fw handle out) :=
  (Searches.printDevicePath searches handle).bind fun _ => Searches.openFiles searches handle out

theorem Searches.tryVolumes (searches : Searches fw step) (handles : List Nat) (out : FoundFiles) :
    Relates step (tryVolumes fw handles out) := by
  induction handles generalizing out with
  | nil => exact .pure _
  | cons handle rest ih =>
      exact (Searches.tryVolume searches handle out).bind fun tried => .ite (fun _ => .pure _) fun _ => ih _

theorem Searches.wbootLocateKernel (searches : Searches fw step) (out : FoundFiles) :
    Relates step (wbootLocateKernel fw out) := by
  have asks : Relates step (Phase2.getDevicePathToText fw) :=
    Relates.bind (searches.looks _ _ fun _ => trivial) fun _ =>
      .ite (fun _ => (searches.shows _ _).bind fun _ => .pure _) fun _ => .pure _
  refine (searches.shows _ _).bind fun _ => asks.bind fun status => .ite (fun _ => .pure _) fun _ => ?_
  refine Relates.bind (searches.looks _ _ fun _ => trivial) fun handles => .ite (fun _ => ?_) fun _ => ?_
  · exact (searches.shows _ _).bind fun _ => .pure _
  refine (searches.shows _ _).bind fun _ => (Searches.tryVolumes searches _ _).bind fun tried => ?_
  exact .ite (fun _ => .pure _) fun _ => (searches.shows _ _).bind fun _ => .pure _

end Effects

/-! ### The first volume with both -/

section Search
variable (fw : Firmware)

/-- The root of the volume, if it opens, and the world after that. -/
def volumeOf (visit : Visit) : Option (Nat × World) :=
  let (fs, found) := handleProtocol fw visit.handle .simpleFileSystem
    (printDevicePath fw visit.handle visit.before).2
  if efiError fs.1 then none
  else
    let (root, opened) := openVolume fw fs.2 found
    if efiError root.1 then none else some (root.2, opened)

/-- The kernel of the volume, and the initramfs if that opens too. -/
def filesOf (visit : Visit) : Option (Nat × Option Nat) :=
  (volumeOf fw visit).bind fun (root, opened) =>
    let (kernel, found) := fileOpen fw root (wide "vmlinuz-linux") opened
    if efiError kernel.1 then none
    else
      let (initramfs, _) := fileOpen fw root (wide "initramfs-linux.img")
        (printf fw (wide "  Found vmlinuz-linux!\r\n") [] found).2
      some (kernel.2, if efiError initramfs.1 then none else some initramfs.2)

def pairOf (visit : Visit) : Option FoundFiles :=
  (filesOf fw visit).bind fun (kernel, initramfs) => initramfs.map (FoundFiles.mk kernel)

/-- `*kernel_file` behind the visit. -/
def kernelOf (visit : Visit) (out : Nat) : Nat := ((filesOf fw visit).map Prod.fst).getD out

def visits : List Nat → FoundFiles → World → List Visit
  | [], _, _ => []
  | handle :: rest, out, world =>
      ⟨handle, world⟩ :: visits rest (tryVolume fw handle out world).1.2 (tryVolume fw handle out world).2

theorem tryVolume_files (visit : Visit) (out : FoundFiles) :
    (tryVolume fw visit.handle out visit.before).1 = match pairOf fw visit with
      | some files => (true, files)
      | none => (false, { out with kernel := kernelOf fw visit out.kernel }) := by
  unfold tryVolume openFiles pairOf kernelOf filesOf volumeOf
  obtain ⟨printed, prints⟩ : ∃ printed, (Phase2.printDevicePath fw visit.handle visit.before).2 = printed := ⟨_, rfl⟩
  obtain ⟨fs, found, finds⟩ : ∃ fs found, handleProtocol fw visit.handle .simpleFileSystem printed = (fs, found) :=
    ⟨_, _, rfl⟩
  simp only [bind_apply, branch_apply, prints, finds, pure_apply]
  by_cases missing : efiError fs.1 = true
  · simp only [missing, ↓reduceIte, Option.bind_none, Option.map_none, Option.getD_none]
  obtain ⟨root, opened, opens⟩ : ∃ root opened, openVolume fw fs.2 found = (root, opened) := ⟨_, _, rfl⟩
  simp only [missing, Bool.false_eq_true, ↓reduceIte, opens]
  by_cases closed : efiError root.1 = true
  · simp only [closed, ↓reduceIte, Option.bind_none, Option.map_none, Option.getD_none]
  obtain ⟨kernel, seen, sees⟩ : ∃ kernel seen, fileOpen fw root.2 (wide "vmlinuz-linux") opened = (kernel, seen) :=
    ⟨_, _, rfl⟩
  simp only [closed, Bool.false_eq_true, ↓reduceIte, sees, Option.bind_some]
  by_cases absent : efiError kernel.1 = true
  · simp only [absent, ↓reduceIte, Option.bind_none, Option.map_none, Option.getD_none]
  simp only [absent, Bool.false_eq_true, ↓reduceIte, Option.bind_some, Option.map_some, Option.getD_some]
  cases efiError (fileOpen fw root.2 (wide "initramfs-linux.img")
    (printf fw (wide "  Found vmlinuz-linux!\r\n") [] seen).2).1.1 with
  | true => rfl
  | false => rfl

/-- The handles, and the world after the calls that list them; none if a call fails. -/
def listed (world : World) : (EfiStatus × List Nat) × World :=
  let (status, asked) := getDevicePathToText fw (printf fw (wide "Locating kernel...\r\n") [] world).2
  if efiError status then ((status, []), asked) else locateHandle fw .simpleFileSystem asked

/-- Where the visits begin. -/
def announced (world : World) : World :=
  (printf fw (wide "Enumerating SIMPLE_FILE_SYSTEM_PROTOCOL devices\r\n")
    [.num (listed fw world).1.2.length] (listed fw world).2).2

def searched (out : FoundFiles) (world : World) : List Visit :=
  if efiError (listed fw world).1.1 then [] else visits fw (listed fw world).1.2 out (announced fw world)

theorem tryVolumes_first (handles : List Nat) (out : FoundFiles) (world : World) :
    (tryVolumes fw handles out world).1 = match (visits fw handles out world).findSome? (pairOf fw) with
      | some files => (true, files)
      | none => (false, { out with
          kernel := (visits fw handles out world).foldl (fun kernel visit => kernelOf fw visit kernel) out.kernel }) := by
  induction handles generalizing out world with
  | nil => rfl
  | cons handle rest ih =>
      have first := tryVolume_files fw ⟨handle, world⟩ out
      rw [visits, List.findSome?_cons, List.foldl_cons, tryVolumes, bind_apply, first]
      cases found : pairOf fw ⟨handle, world⟩ with
      | some files => rfl
      | none => exact ih _ _

/-- The status, and what the two outputs are then. -/
def locateOutcome (out : FoundFiles) (world : World) : EfiStatus × FoundFiles :=
  if efiError (listed fw world).1.1 then ((listed fw world).1.1, out)
  else match (searched fw out world).findSome? (pairOf fw) with
    | some files => (efiSuccess, files)
    | none => (efiNotFound, { out with
        kernel := (searched fw out world).foldl (fun kernel visit => kernelOf fw visit kernel) out.kernel })

/-- The first volume that has both is taken, whatever the others have. -/
theorem wbootLocateKernel_first (fw : Firmware) (out : FoundFiles) (world : World) :
    (wbootLocateKernel fw out world).1 = locateOutcome fw out world := by
  have found := tryVolumes_first fw (listed fw world).1.2 out (announced fw world)
  unfold locateOutcome searched announced listed at *
  unfold wbootLocateKernel
  obtain ⟨status, asked, asks⟩ : ∃ status asked,
      getDevicePathToText fw (printf fw (wide "Locating kernel...\r\n") [] world).2 = (status, asked) := ⟨_, _, rfl⟩
  simp only [bind_apply, branch_apply, asks, pure_apply] at found ⊢
  by_cases unable : efiError status = true
  · simp only [unable, ↓reduceIte]
  obtain ⟨reply, answered, answers⟩ : ∃ reply answered, locateHandle fw .simpleFileSystem asked = (reply, answered) :=
    ⟨_, _, rfl⟩
  simp only [unable, Bool.false_eq_true, ↓reduceIte, answers] at found ⊢
  by_cases unlisted : efiError reply.1 = true
  · simp only [unlisted, ↓reduceIte]
  simp only [unlisted, Bool.false_eq_true, ↓reduceIte]
  rw [found]
  cases (visits fw reply.2 out _).findSome? (pairOf fw) with
  | some files => rfl
  | none => rfl

end Search

end Wboot.KernelSearch
