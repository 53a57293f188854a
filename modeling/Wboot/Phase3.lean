import Wboot.BootParams
import Wboot.E820Sizing
import Wboot.ElfPlacement
import Wboot.ExitBootServices
import Wboot.Graphics

/-! `efi_main` (src/phase3/main.c), in three parts: the files, the boot
parameters, and everything from `wboot_exit_bs` on. Every part but the last runs
with boot services. A `goto exit` leaves a part with the value `status` has. -/

namespace Wboot.Phase3
open StateProgram ByteMemory Machine LinuxBoot Wstdlib ConfigParser KernelImage BootParams Graphics
  E820Translation E820Sizing ExitBootServices ElfPlacement Effects

def logo : List UInt16 :=
  wide "\r\n\r\n    |_  _  __|_ \r\n\\/\\/|_)(_)(_)|_\r\n\r\n"

structure LoadedFiles where
  status : EfiStatus
  config : WbootConfig
  header : SetupHeader
  kernel : KernelBuffer
  initramfs : Initramfs

structure Prepared extends LoadedFiles where
  params : Nat
  e820ext : E820Buffer

section Code
variable (fw : Firmware) (zstd : Zstd)

/-- An INT32 passed as an INTN. -/
def signExtend (value : Int) : Nat := (value % 2 ^ 64).toNat

def printConfig (config : WbootConfig) : Boot Unit := do
  printf fw (wide "[wboot] config kernel = %s\r\n") [.widePointer config.kernelPath]
  printf fw (wide "[wboot] config initrd = %s\r\n") [.widePointer config.initrdPath]
  printf fw (wide "[wboot] config cmdline = %-s\r\n") [.narrowPointer config.cmdline]
  printf fw (wide "[wboot] config mode = %ux%u, format=%d, depth=%u\r\n")
    [.num config.modeWidth, .num config.modeHeight, .num (signExtend config.modeFormat),
      .num config.modeDepth]

/-- From the opened kernel file on; `stack` is what the uninitialised header holds. -/
def loadKernel (config : WbootConfig) (stack : SetupHeader) :
    Boot (Except EfiStatus (SetupHeader × KernelBuffer)) := do
  printf fw (wide "[wboot] opening kernel file\r\n") []
  let file ← wbootOpenKernel fw config
  if efiError file.1 then return .error file.1
  printf fw (wide "[wboot] reading kernel setup header\r\n") []
  let header ← wbootReadSetupHeader fw file.2 stack
  if efiError header.1 then return .error header.1
  printf fw (wide "[wboot] decompressing kernel\r\n") []
  let kernel ← wbootDecompressKernel fw zstd header.2 file.2 ⟨0, 0⟩
  if efiError kernel.1 then return .error kernel.1
  return .ok (header.2, kernel.2)

def loadFiles (stack : SetupHeader) : Boot (Except EfiStatus LoadedFiles) := do
  printf fw logo []
  printf fw (wide "[wboot] hello from wboot!\r\n") []
  printf fw (wide "[wboot] locating config...\r\n") []
  let located ← wbootLocateConfig fw
  if efiError located.1 then return .error located.1
  let config := located.2.getD (emptyConfig 0)
  printConfig fw config
  match ← loadKernel fw zstd config stack with
  | .error status => return .error status
  | .ok (header, kernel) =>
      printf fw (wide "[wboot] reading initramfs into memory\r\n") []
      let initramfs ← wbootLoadInitramfs fw config ⟨0, 0⟩
      if efiError initramfs.1 then return .error initramfs.1
      return .ok ⟨initramfs.1, config, header, kernel, initramfs.2⟩

/-- Without boot parameters `status` is still that of the initramfs. -/
def prepareHandoff (files : LoadedFiles) : Boot (Except EfiStatus Prepared) := do
  printf fw (wide "[wboot] preparing boot params\r\n") []
  let params ← wbootPrepareBootparams fw files.config files.header files.initramfs
  if params = 0 then
    printf fw (wide "[wboot] error preparing boot params\r\n") []
    return .error files.status
  printf fw (wide "[wboot] setting up graphics\r\n") []
  let status ← wbootSetupGraphics fw files.config params
  if efiError status then
    perror fw (wide "[wboot] error setting up graphics") status
    return .error status
  printf fw (wide "[wboot] allocating e820 memory map\r\n") []
  let e820ext ← wbootAllocateE820 fw noBuffer
  if efiError e820ext.1 then
    perror fw (wide "[wboot] error allocating e820ext") e820ext.1
    return .error e820ext.1
  return .ok { files with status := e820ext.1, params := params, e820ext := e820ext.2 }

def wbootHandoff (params entry : Nat) : Boot Unit :=
  service (fun _ => ()) fun _ => .handoff params entry

/-- Everything after the exit; a kernel that returns falls through to the exit label.
Where the translation never returns, nothing after it happens: `none`. -/
def afterExit (prepared : Prepared) (memmap : Nat) : Boot (Option EfiStatus) := do
  printf fw (wide "[wboot] exited boot services, acquired memory map at %p\r\n") [.num memmap]
  printf fw (wide "[wboot] translating EFI memory map to e820\r\n") []
  match ← inRam (wbootTranslateMemmap prepared.params prepared.e820ext.node prepared.e820ext.size) with
  | none => return none
  | some status =>
      if efiError status then
        perror fw (wide "[wboot] error translating memory map") status
        return some status
      let entry ← inRam (wbootGetKernelEntry prepared.kernel.pointer)
      printf fw (wide "[wboot] handing off to kernel entry point at %p\r\n") [.num entry]
      wbootHandoff prepared.params entry
      printf fw (wide "[wboot] returned from wboot_handoff, something went wrong!\r\n") []
      return some status

/-- A failed exit leaves `status` as `wboot_allocate_e820` set it. -/
def enterKernel (prepared : Prepared) : Boot (Option EfiStatus) := do
  printf fw (wide "[wboot] exiting boot services!\r\n") []
  let memmap ← wbootExitBs fw prepared.params
  if memmap = 0 then
    printf fw (wide "[wboot] error exiting boot services\r\n") []
    return some prepared.status
  afterExit fw prepared memmap

def bootStages (stack : SetupHeader) : Boot (Option EfiStatus) := do
  match ← loadFiles fw zstd stack with
  | .error status => return some status
  | .ok files =>
      match ← prepareHandoff fw files with
      | .error status => return some status
      | .ok prepared => enterKernel fw prepared

/-- `none` when the run hangs before the exit label. -/
def efiMain (stack : SetupHeader) : Boot (Option EfiStatus) := do
  match ← bootStages fw zstd stack with
  | none => return none
  | some status =>
      printf fw (wide "[wboot] press any key to continue...\r\n") []
      let _ ← readChar fw
      return some status

/-- The key prompt follows the stages, unless they hang. -/
theorem efiMain_ends {stack : SetupHeader} {before after : World} {outcome : Option EfiStatus}
    (run : efiMain fw zstd stack before = (outcome, after)) :
    (outcome = none ∧ bootStages fw zstd stack before = (none, after)) ∨
      ∃ status staged printed key, outcome = some status ∧
        bootStages fw zstd stack before = (some status, staged) ∧
        printf fw (wide "[wboot] press any key to continue...\r\n") [] staged = ((), printed) ∧
        readChar fw printed = (key, after) := by
  unfold efiMain at run
  rw [run_bind] at run
  obtain ⟨status, staged, stages, run⟩ := run
  cases status with
  | none =>
      obtain ⟨rfl, rfl⟩ := Prod.mk.inj run
      exact Or.inl ⟨rfl, stages⟩
  | some status =>
      dsimp only at run
      simp only [run_bind] at run
      obtain ⟨_, printed, prints, key, _, reads, run⟩ := run
      obtain ⟨rfl, rfl⟩ := Prod.mk.inj run
      exact Or.inr ⟨status, staged, printed, key, rfl, stages, prints, reads⟩

end Code

/-! ### The messages -/

def messages : List (List UInt16) :=
  [Phase3.logo,
   wide "[wboot] hello from wboot!\r\n",
   wide "[wboot] locating config...\r\n",
   wide "[wboot] opening kernel file\r\n",
   wide "[wboot] reading kernel setup header\r\n",
   wide "[wboot] decompressing kernel\r\n",
   wide "[wboot] reading initramfs into memory\r\n",
   wide "[wboot] preparing boot params\r\n",
   wide "[wboot] setting up graphics\r\n",
   wide "[wboot] allocating e820 memory map\r\n",
   wide "[wboot] exiting boot services!\r\n",
   wide "[wboot] error exiting boot services\r\n",
   wide "[wboot] exited boot services, acquired memory map at %p\r\n",
   wide "[wboot] translating EFI memory map to e820\r\n",
   wide "[wboot] handing off to kernel entry point at %p\r\n",
   wide "[wboot] returned from wboot_handoff, something went wrong!\r\n",
   wide "[wboot] press any key to continue...\r\n"]

/-- No message of these stages has a `%-s` in it, which would allocate. -/
theorem plainMessages : ∀ message ∈ messages, plain message = true := by decide +kernel

theorem message_prints (fw : Firmware) {format : List UInt16} (said : format ∈ messages) (args : List Arg) :
    Relates Prints (printf fw format args) :=
  printf_prints fw format args (plainMessages format said)

end Wboot.Phase3
