import Wboot.LinuxBoot
import Wboot.Effects
import Wboot.ConfigParser

/-! The kernel file (src/phase3/wboot.c): opening it, reading the setup header at
0x1f1, and unpacking the zstd payload into pages at the preferred address or, when
these are taken, anywhere. -/

namespace Wboot.KernelImage
open StateProgram ByteMemory CString Machine LinuxBoot Wstdlib Effects ConfigParser

/-- `*decompressed_kernel` and `*decompressed_kernel_size`. -/
structure KernelBuffer where
  pointer : Nat
  size : Nat

def zstdMagic : Nat := 0xFD2FB528
def elfMagic : Nat := 0x464C457F

/-- The bytes a short read leaves in place stay in the header. -/
def overwritten (header : SetupHeader) (bytes : List UInt8) : SetupHeader where
  bytes := bytes.take sizeofSetupHeader ++ header.bytes.drop bytes.length
  length_eq := by
    have whole := header.length_eq
    simp only [List.length_append, List.length_take, List.length_drop]
    omega

def headerMagic (header : SetupHeader) : List UInt8 :=
  (header.bytes.drop Hdr.header.offset).take Hdr.header.width

def payloadStart (header : SetupHeader) : Nat :=
  let sects := if header.get Hdr.setupSects ≠ 0 then header.get Hdr.setupSects else 4
  (1 + sects) * 512 + header.get Hdr.payloadOffset

def kernelPages (header : SetupHeader) : Nat :=
  (header.get Hdr.initSize + efiPageSize - 1) / efiPageSize

section Code
variable (fw : Firmware) (zstd : Zstd)

def openFile (root path : Nat) : Boot (EfiStatus × Nat) := do
  let text ← readState fun world => wideString world.mem path
  fileOpen fw root text

def wbootOpenKernel (config : WbootConfig) : Boot (EfiStatus × Nat) :=
  openFile fw config.root config.kernelPath

def wbootReadSetupHeader (file : Nat) (header : SetupHeader) : Boot (EfiStatus × SetupHeader) := do
  let status ← fileSetPosition fw file 0x1f1
  if efiError status then
    perror fw (wide "[read_setup_header] error seeking to kernel header") status
    return (status, header)
  let reply ← fileRead fw file sizeofSetupHeader
  let header := overwritten header reply.2
  if efiError reply.1 then
    perror fw (wide "[read_setup_header] error reading kernel header") reply.1
    return (reply.1, header)
  if reply.2.length ≠ sizeofSetupHeader then
    printf fw (wide ("[read_setup_header] error: expected to read %u bytes for kernel " ++
      "header, but only read %u\r\n")) [.num sizeofSetupHeader, .num reply.2.length]
    return (efiInvalidParameter, header)
  if header.get Hdr.bootFlag ≠ 0xAA55 then
    printf fw (wide ("[read_setup_header] error: invalid kernel header magic (expected " ++
      "0xAA55, got 0x%x)\r\n")) [.num (header.get Hdr.bootFlag)]
    return (efiInvalidParameter, header)
  if headerMagic header ≠ ascii "HdrS" then
    printf fw (wide ("[read_setup_header] error: invalid kernel header magic (expected " ++
      "'HdrS', got '%c%c%c%c')\r\n")) ((headerMagic header).map fun c => .num c.toNat)
    return (efiInvalidParameter, header)
  return (efiSuccess, header)

/-- The context is created once and reset afterwards. -/
def readyContext : Boot Bool := do
  let dctx ← readState World.dctx
  if dctx ≠ 0 then return true
  let created ← readState fun world => zstd.createDCtx world.history
  modifyState fun world => { world with dctx := created }
  return decide (created ≠ 0)

/-- The compressed payload in a pool buffer, or the status to return. -/
def readPayload (header : SetupHeader) (file : Nat) : Boot (Except EfiStatus Nat) := do
  let size := header.get Hdr.payloadLength
  let compressed ← malloc fw size
  if compressed = 0 then
    let errno ← readState World.errno
    perror fw (wide "[decompress_kernel] error allocating memory for compressed kernel\r\n") errno
    return .error efiOutOfResources
  let status ← fileSetPosition fw file (payloadStart header)
  if efiError status then
    perror fw (wide "[decompress_kernel] error setting kernel file position\r\n") status
    free fw compressed
    return .error status
  let reply ← fileReadInto fw file size compressed
  if efiError reply.1 then
    perror fw (wide "[decompress_kernel] error reading compressed kernel\r\n") reply.1
    free fw compressed
    return .error reply.1
  if reply.2 ≠ size then
    printf fw (wide ("[decompress_kernel] error: expected to read %u bytes for compressed " ++
      "kernel, but only read %u\r\n")) [.num size, .num reply.2]
    free fw compressed
    return .error efiInvalidParameter
  return .ok compressed

/-- `*(UINT32 *)compressed_kernel` -/
def payloadWord (compressed : Nat) : Prog Ram Nat := do
  recordAccess (.payload 0 4)
  readState fun ram => load ram.mem compressed 4

/-- `*(UINT32 *)decompressed_kernel_ptr` -/
def imageWord (image : Nat) : Prog Ram Nat := do
  recordAccess (.image 0 4)
  readState fun ram => load ram.mem image 4

/-- `size < 4 || word != magic`: a short buffer is not read by the test. -/
def lacksMagic (size magic : Nat) (word : Prog Ram Nat) : Boot Bool := do
  if size < 4 then return true
  let found ← inRam word
  return decide (found ≠ magic)

/-- The magic of the payload, then the size of its frame. -/
def payloadFrame (header : SetupHeader) (compressed : Nat) : Boot (Except EfiStatus Nat) := do
  let size := header.get Hdr.payloadLength
  let lacking ← lacksMagic size zstdMagic (payloadWord compressed)
  if lacking then
    let word ← inRam (payloadWord compressed)
    printf fw (wide ("[decompress_kernel] error: compressed kernel does not have zstd magic " ++
      "(different compression format or not compressed at all?) expected " ++
      "0xFD2FB528, got 0x%x\r\n")) [.num word]
    free fw compressed
    return .error efiInvalidParameter
  let frame ← readState fun world =>
    zstd.findFrameCompressedSize (bytesAt world.mem compressed size)
  if zstd.isError frame then
    printf fw (wide "[decompress_kernel] error finding zstd compressed frame size: %-s\r\n")
      [.narrowText (zstd.getErrorName frame)]
    free fw compressed
    return .error efiInvalidParameter
  return .ok frame

/-- Pages at the preferred address if there is one and they are free, else
anywhere. The address passed in is ignored by AllocateAnyPages. -/
def allocateImage (header : SetupHeader) : Boot (EfiStatus × Nat) := do
  let pref := header.get Hdr.prefAddress
  if pref = 0 then
    allocatePages fw .anyPages (kernelPages header) pref
  else
    let preferred ← allocatePages fw .address (kernelPages header) pref
    if efiError preferred.1 then
      printf fw (wide ("warning: couldn't allocate pages for decompressed kernel at " ++
        "preferred address 0x%x: %s\r\n")) [.num pref, .wideText (strerror preferred.1)]
      allocatePages fw .anyPages (kernelPages header) pref
    else return preferred

def zstdDecompress (image capacity compressed frame : Nat) : Boot Nat := do
  let result ← readState fun world =>
    zstd.decompressDCtx world.history capacity (bytesAt world.mem compressed frame)
  inRam (deliver image (result.2.take capacity))
  return result.1

/-- Decompression into the pages, and the magic of what came out. -/
def unpackImage (header : SetupHeader) (compressed frame image : Nat) :
    Boot (Except EfiStatus Nat) := do
  let size ← zstdDecompress zstd image (header.get Hdr.initSize) compressed frame
  if zstd.isError size then
    printf fw (wide "[decompress_kernel] error decompressing kernel: %-s\r\n")
      [.narrowText (zstd.getErrorName size)]
    let _ ← freePages fw image (kernelPages header)
    free fw compressed
    return .error efiInvalidParameter
  let lacking ← lacksMagic size elfMagic (imageWord image)
  if lacking then
    let word ← inRam (imageWord image)
    printf fw (wide ("[decompress_kernel] error: decompressed kernel does not have ELF " ++
      "magic (invalid kernel format?) expected 0x464C457F, got 0x%x\r\n")) [.num word]
    let _ ← freePages fw image (kernelPages header)
    free fw compressed
    return .error efiInvalidParameter
  return .ok size

def wbootDecompressKernel (header : SetupHeader) (file : Nat) (out : KernelBuffer) :
    Boot (EfiStatus × KernelBuffer) := do
  let ready ← readyContext zstd
  if ¬ ready then
    printf fw (wide "[decompress_kernel] error creating ZSTD decompression context\r\n") []
    return (efiOutOfResources, out)
  match ← readPayload fw header file with
  | .error status => return (status, out)
  | .ok compressed =>
      match ← payloadFrame fw zstd header compressed with
      | .error status => return (status, out)
      | .ok frame =>
          let image ← allocateImage fw header
          if efiError image.1 then
            printf fw (wide ("[decompress_kernel] error allocating pages for decompressed kernel: " ++
              "%s\r\n")) [.wideText (strerror image.1)]
            free fw compressed
            return (image.1, out)
          match ← unpackImage fw zstd header compressed frame image.2 with
          | .error status => return (status, out)
          | .ok size =>
              free fw compressed
              return (efiSuccess, ⟨image.2, size⟩)

end Code

end Wboot.KernelImage
