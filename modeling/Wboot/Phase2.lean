import Wboot.BootParams
import Wboot.NumberRoundTrip

/-! Phase 2 (src/phase2/wboot.c and main.c), the stage before the configuration: it looks
for `vmlinuz-linux` and `initramfs-linux.img` by name, unpacks the one and reads the other,
and waits for a key. What it has in common with phase 3, text for text, is defined once. -/

namespace Wboot.Phase2
open StateProgram ByteMemory CString Machine LinuxBoot Wstdlib ConfigParser KernelImage BootParams NumberRoundTrip Effects

/-- `*kernel_file` and `*initramfs_file`. -/
structure FoundFiles where
  kernel : Nat
  initramfs : Nat

section Code
variable (fw : Firmware) (zstd : Zstd)

/-! ### The volumes -/

def getDevicePathToText : Boot EfiStatus := do
  let status ← locateProtocol fw .devicePathToText
  if efiError status then
    printf fw (wide "Error locating DEVICE_PATH_TO_TEXT_PROTOCOL: %u\r\n") [.num status]
  return status

def printDevicePath (handle : Nat) : Boot Unit := do
  let found ← handleProtocol fw handle .devicePath
  if ¬ efiError found.1 then
    let devicePathStr ← convertDevicePathToText fw found.2
    if devicePathStr = 0 then
      printf fw (wide "  Device path: unknown error\r\n") []
    printf fw (wide "  Device path: %s\r\n") [.widePointer devicePathStr]
    let _ ← freePool fw devicePathStr
  else perror fw (wide "  Device path") found.1

/-- The two files of a volume. The kernel is noted before the initramfs is opened. -/
def openFiles (handle : Nat) (out : FoundFiles) : Boot (Bool × FoundFiles) := do
  let fs ← handleProtocol fw handle .simpleFileSystem
  if efiError fs.1 then
    perror fw (wide "  Error getting file system protocol") fs.1
    return (false, out)
  let root ← openVolume fw fs.2
  if efiError root.1 then
    perror fw (wide "  Error opening volume") root.1
    return (false, out)
  let kernel ← fileOpen fw root.2 (wide "vmlinuz-linux")
  if efiError kernel.1 then
    perror fw (wide "  Error opening vmlinuz-linux") kernel.1
    return (false, out)
  printf fw (wide "  Found vmlinuz-linux!\r\n") []
  let initramfs ← fileOpen fw root.2 (wide "initramfs-linux.img")
  if efiError initramfs.1 then
    perror fw (wide "  Error opening initramfs-linux.img") initramfs.1
    return (false, { out with kernel := kernel.2 })
  printf fw (wide "  Found initramfs-linux.img!\r\n") []
  return (true, ⟨kernel.2, initramfs.2⟩)

/-- One handle; `true` ends the search. -/
def tryVolume (handle : Nat) (out : FoundFiles) : Boot (Bool × FoundFiles) := do
  printDevicePath fw handle
  openFiles fw handle out

def tryVolumes : List Nat → FoundFiles → Boot (Bool × FoundFiles)
  | [], out => return (false, out)
  | handle :: rest, out => do
      let tried ← tryVolume fw handle out
      if tried.1 then return tried
      tryVolumes rest tried.2

def wbootLocateKernel (out : FoundFiles) : Boot (EfiStatus × FoundFiles) := do
  printf fw (wide "Locating kernel...\r\n") []
  let status ← getDevicePathToText fw
  if efiError status then return (status, out)
  let handles ← locateHandle fw .simpleFileSystem
  if efiError handles.1 then
    perror fw (wide "Error locating handles") handles.1
    return (handles.1, out)
  printf fw (wide "Enumerating SIMPLE_FILE_SYSTEM_PROTOCOL devices\r\n") [.num handles.2.length]
  let tried ← tryVolumes fw handles.2 out
  if tried.1 then return (efiSuccess, tried.2)
  printf fw (wide ("Could not find vmlinuz-linux and initramfs-linux.img together on any " ++
    "device\r\n")) []
  return (efiNotFound, tried.2)

/-! ### The setup header -/

def wbootReadSetupHeader (file : Nat) (header : SetupHeader) : Boot (EfiStatus × SetupHeader) := do
  let status ← fileSetPosition fw file 0x1f1
  if efiError status then
    perror fw (wide "Error seeking to kernel header") status
    return (status, header)
  let reply ← fileRead fw file sizeofSetupHeader
  let header := overwritten header reply.2
  if efiError reply.1 then
    perror fw (wide "Error reading kernel header") reply.1
    return (reply.1, header)
  if reply.2.length ≠ sizeofSetupHeader then
    printf fw (wide "Error: expected to read %u bytes for kernel header, but only read %u\r\n")
      [.num sizeofSetupHeader, .num reply.2.length]
    return (efiInvalidParameter, header)
  if header.get Hdr.bootFlag ≠ 0xAA55 then
    printf fw (wide "Error: invalid kernel header magic (expected 0xAA55, got 0x%x)\r\n")
      [.num (header.get Hdr.bootFlag)]
    return (efiInvalidParameter, header)
  if headerMagic header ≠ ascii "HdrS" then
    printf fw (wide "Error: invalid kernel header magic (expected 'HdrS', got '%c%c%c%c')\r\n")
      ((headerMagic header).map fun c => .num c.toNat)
    return (efiInvalidParameter, header)
  return (efiSuccess, header)

/-- A line of the dump: what stands before the number, how it is printed, and the field. -/
structure DumpLine where
  label : List UInt16
  conversion : UInt16
  field : Field

def lineEnd : List UInt16 := wide "\r\n"

def DumpLine.print (header : SetupHeader) (line : DumpLine) : Boot Unit :=
  printf fw (line.label ++ percent :: line.conversion :: lineEnd) [.num (header.get line.field)]

/-- The lines before the one of the magic. -/
def linesBefore : List DumpLine :=
  [⟨wide "  setup_sects: ", letterU, Hdr.setupSects⟩,
    ⟨wide "  root_flags: 0x", letterX, Hdr.rootFlags⟩,
    ⟨wide "  syssize: ", letterU, Hdr.syssize⟩,
    ⟨wide "  ram_size: ", letterU, Hdr.ramSize⟩,
    ⟨wide "  vid_mode: 0x", letterX, Hdr.vidMode⟩,
    ⟨wide "  root_dev: 0x", letterX, Hdr.rootDev⟩,
    ⟨wide "  boot_flag: 0x", letterX, Hdr.bootFlag⟩,
    ⟨wide "  jump: 0x", letterX, Hdr.jump⟩]

def linesAfter : List DumpLine :=
  [⟨wide "  version: 0x", letterX, Hdr.version⟩,
    ⟨wide "  realmode_swtch: 0x", letterX, Hdr.realmodeSwtch⟩,
    ⟨wide "  start_sys_seg: 0x", letterX, Hdr.startSysSeg⟩,
    ⟨wide "  kernel_version: ", letterU, Hdr.kernelVersion⟩,
    ⟨wide "  type_of_loader: ", letterU, Hdr.typeOfLoader⟩,
    ⟨wide "  loadflags: 0x", letterX, Hdr.loadflags⟩,
    ⟨wide "  setup_move_size: ", letterU, Hdr.setupMoveSize⟩,
    ⟨wide "  code32_start: 0x", letterX, Hdr.code32Start⟩,
    ⟨wide "  ramdisk_image: 0x", letterX, Hdr.ramdiskImage⟩,
    ⟨wide "  ramdisk_size: ", letterU, Hdr.ramdiskSize⟩,
    ⟨wide "  bootsect_kludge: 0x", letterX, Hdr.bootsectKludge⟩,
    ⟨wide "  heap_end_ptr: 0x", letterX, Hdr.heapEndPtr⟩,
    ⟨wide "  ext_loader_ver: ", letterU, Hdr.extLoaderVer⟩,
    ⟨wide "  ext_loader_type: ", letterU, Hdr.extLoaderType⟩,
    ⟨wide "  cmd_line_ptr: 0x", letterX, Hdr.cmdLinePtr⟩,
    ⟨wide "  initrd_addr_max: 0x", letterX, Hdr.initrdAddrMax⟩,
    ⟨wide "  kernel_alignment: 0x", letterX, Hdr.kernelAlignment⟩,
    ⟨wide "  relocatable_kernel: ", letterU, Hdr.relocatableKernel⟩,
    ⟨wide "  min_alignment: ", letterU, Hdr.minAlignment⟩,
    ⟨wide "  xloadflags: 0x", letterX, Hdr.xloadflags⟩,
    ⟨wide "  cmdline_size: ", letterU, Hdr.cmdlineSize⟩,
    ⟨wide "  hardware_subarch: 0x", letterX, Hdr.hardwareSubarch⟩,
    ⟨wide "  hardware_subarch_data: 0x", letterX, Hdr.hardwareSubarchData⟩,
    ⟨wide "  payload_offset: 0x", letterX, Hdr.payloadOffset⟩,
    ⟨wide "  payload_length: ", letterU, Hdr.payloadLength⟩,
    ⟨wide "  setup_data: 0x", letterX, Hdr.setupData⟩,
    ⟨wide "  pref_address: 0x", letterX, Hdr.prefAddress⟩,
    ⟨wide "  init_size: 0x", letterX, Hdr.initSize⟩,
    ⟨wide "  handover_offset: 0x", letterX, Hdr.handoverOffset⟩,
    ⟨wide "  kernel_info_offset: 0x", letterX, Hdr.kernelInfoOffset⟩]

def printLines (header : SetupHeader) : List DumpLine → Boot Unit
  | [] => pure ()
  | line :: rest => do
      line.print fw header
      printLines header rest

def wbootDumpSetupHeader (header : SetupHeader) : Boot Unit := do
  printf fw (wide "Kernel header:\r\n") []
  printLines fw header linesBefore
  printf fw (wide "  header: %c%c%c%c\r\n") ((headerMagic header).map fun c => .num c.toNat)
  printLines fw header linesAfter

/-! ### The kernel -/

/-- The compressed payload in a pool buffer, or the status to return. -/
def readPayload (header : SetupHeader) (file : Nat) : Boot (Except EfiStatus Nat) := do
  let size := header.get Hdr.payloadLength
  let compressed ← malloc fw size
  if compressed = 0 then
    printf fw (wide "Error allocating memory for compressed kernel\r\n") []
    return .error efiOutOfResources
  let sects := if header.get Hdr.setupSects ≠ 0 then header.get Hdr.setupSects else 4
  printf fw (wide "Kernel setup size: %u bytes (%u setup sectors)\r\n") [.num (sects * 512), .num sects]
  printf fw (wide ("Seeking to kernel payload at offset 0x%x and reading %u bytes of compressed " ++
    "kernel\r\n")) [.num (payloadStart header), .num size]
  let status ← fileSetPosition fw file (payloadStart header)
  if efiError status then
    printf fw (wide "Error setting kernel file position\r\n") []
    free fw compressed
    return .error status
  let reply ← fileReadInto fw file size compressed
  if efiError reply.1 then
    printf fw (wide "Error reading compressed kernel\r\n") []
    free fw compressed
    return .error reply.1
  if reply.2 ≠ size then
    printf fw (wide "Error: expected to read %u bytes for compressed kernel, but only read %u\r\n")
      [.num size, .num reply.2]
    free fw compressed
    return .error efiInvalidParameter
  return .ok compressed

/-- The magic of the payload, then the size of its frame. -/
def payloadFrame (header : SetupHeader) (compressed : Nat) : Boot (Except EfiStatus Nat) := do
  let size := header.get Hdr.payloadLength
  let lacking ← lacksMagic size zstdMagic (payloadWord compressed)
  if lacking then
    let word ← inRam (payloadWord compressed)
    printf fw (wide ("Error: compressed kernel does not have zstd magic (different compression " ++
      "format or not compressed at all?) expected 0xFD2FB528, got 0x%x\r\n")) [.num word]
    free fw compressed
    return .error efiInvalidParameter
  let frame ← readState fun world =>
    zstd.findFrameCompressedSize (bytesAt world.mem compressed size)
  if zstd.isError frame then
    printf fw (wide "Error finding zstd compressed frame size: %-s\r\n")
      [.narrowText (zstd.getErrorName frame)]
    free fw compressed
    return .error efiInvalidParameter
  printf fw (wide "Exact zstd compressed size: %u bytes\r\n") [.num frame]
  return .ok frame

/-- `header->pref_address` is passed to this message too, which has no conversion for it. -/
def allocateAnywhere (header : SetupHeader) : Boot (EfiStatus × Nat) := do
  printf fw (wide ("Asking for %u bytes for decompressed kernel at any address since " ++
    "preferred address allocation failed or was not specified\r\n"))
    [.num (kernelPages header * efiPageSize), .num (header.get Hdr.prefAddress)]
  allocatePages fw .anyPages (kernelPages header) (header.get Hdr.prefAddress)

/-- Pages at the preferred address if there is one and they are free, else anywhere. -/
def allocateImage (header : SetupHeader) : Boot (EfiStatus × Nat) := do
  let pref := header.get Hdr.prefAddress
  if pref = 0 then allocateAnywhere fw header
  else
    printf fw (wide ("Asking for %u bytes for decompressed kernel at preferred address " ++
      "0x%x\r\n")) [.num (kernelPages header * efiPageSize), .num pref]
    let preferred ← allocatePages fw .address (kernelPages header) pref
    if efiError preferred.1 then
      printf fw (wide ("Error allocating pages for decompressed kernel at preferred address " ++
        "0x%x: %s\r\n")) [.num pref, .wideText (strerror preferred.1)]
      allocateAnywhere fw header
    else return preferred

/-- Decompression into the pages, and the magic of what came out. -/
def unpackImage (header : SetupHeader) (compressed frame image : Nat) :
    Boot (Except EfiStatus Nat) := do
  let size ← zstdDecompress zstd image (header.get Hdr.initSize) compressed frame
  if zstd.isError size then
    printf fw (wide "Error decompressing kernel: %-s\r\n") [.narrowText (zstd.getErrorName size)]
    let _ ← freePages fw image (kernelPages header)
    free fw compressed
    return .error efiInvalidParameter
  let lacking ← lacksMagic size elfMagic (imageWord image)
  if lacking then
    let word ← inRam (imageWord image)
    printf fw (wide ("Error: decompressed kernel does not have ELF magic (invalid kernel " ++
      "format?) expected 0x464C457F, got 0x%x\r\n")) [.num word]
    let _ ← freePages fw image (kernelPages header)
    free fw compressed
    return .error efiInvalidParameter
  return .ok size

def wbootDecompressKernel (header : SetupHeader) (file : Nat) (out : KernelBuffer) :
    Boot (EfiStatus × KernelBuffer) := do
  let ready ← readyContext zstd
  if ¬ ready then
    printf fw (wide "Error creating ZSTD decompression context\r\n") []
    return (efiOutOfResources, out)
  match ← readPayload fw header file with
  | .error status => return (status, out)
  | .ok compressed =>
      match ← payloadFrame fw zstd header compressed with
      | .error status => return (status, out)
      | .ok frame =>
          printf fw (wide "Decompressed kernel size: %u bytes, which requires %u pages\r\n")
            [.num (header.get Hdr.initSize), .num (kernelPages header)]
          let image ← allocateImage fw header
          if efiError image.1 then
            printf fw (wide "Error allocating pages for decompressed kernel: %s\r\n")
              [.wideText (strerror image.1)]
            free fw compressed
            return (image.1, out)
          printf fw (wide "Decompressing kernel to address %p...\r\n") [.num image.2]
          match ← unpackImage fw zstd header compressed frame image.2 with
          | .error status => return (status, out)
          | .ok size =>
              free fw compressed
              return (efiSuccess, ⟨image.2, size⟩)

/-! ### The initramfs -/

/-- The size of the file, or the status to return. -/
def initramfsFileSize (file : Nat) : Boot (Except EfiStatus Nat) := do
  let query ← fileGetInfo fw file 0 0
  if query.status ≠ efiBufferTooSmall then
    printf fw (wide "Error getting initramfs file info size: %s\r\n") [.wideText (strerror query.status)]
    return .error query.status
  printf fw (wide "Allocating %u bytes for initramfs file info\r\n") [.num query.size]
  let fileInfo ← malloc fw query.size
  if fileInfo = 0 then
    let errno ← readState World.errno
    printf fw (wide "Error allocating memory for initramfs file info: %s\r\n") [.wideText (strerror errno)]
    let errno ← readState World.errno
    return .error errno
  let info ← fileGetInfo fw file query.size fileInfo
  if efiError info.status then
    printf fw (wide "Error getting initramfs file info: %s\r\n") [.wideText (strerror info.status)]
    free fw fileInfo
    return .error info.status
  let fileSize ← inRam (loadField fileInfo fileSizeField)
  free fw fileInfo
  return .ok fileSize

/-- A pool buffer of the file's size. How much of it was read is not looked at. -/
def wbootLoadInitramfs (file : Nat) (out : Initramfs) : Boot (EfiStatus × Initramfs) := do
  match ← initramfsFileSize fw file with
  | .error status => return (status, out)
  | .ok fileSize =>
      let buffer ← malloc fw fileSize
      if buffer = 0 then
        let errno ← readState World.errno
        printf fw (wide "Error allocating memory for initramfs: %s\r\n") [.wideText (strerror errno)]
        let errno ← readState World.errno
        return (errno, out)
      let reply ← fileReadInto fw file fileSize buffer
      if efiError reply.1 then
        printf fw (wide "Error reading initramfs file: %s\r\n") [.wideText (strerror reply.1)]
        free fw buffer
        return (reply.1, out)
      return (efiSuccess, ⟨buffer, fileSize⟩)

/-! ### efi_main -/

/-- What the locals hold before they are set, and at the end. -/
structure Locals where
  files : FoundFiles
  header : SetupHeader
  kernel : KernelBuffer
  initramfs : Initramfs

/-- `FileName` of EFI_FILE_INFO. -/
def fileNameOffset : Nat := 80

/-- The name and the size of a file, read into the one buffer for both. -/
def showFile (file fileInfo : Nat) (failed found sized : List UInt16) : Boot EfiStatus := do
  let info ← fileGetInfo fw file configInfoSize fileInfo
  if efiError info.status then
    perror fw failed info.status
    return info.status
  printf fw found [.widePointer (fileInfo + fileNameOffset)]
  let fileSize ← inRam (loadField fileInfo fileSizeField)
  printf fw sized [.num fileSize]
  return info.status

/-- Up to the label `exit`; an error is a jump to it with the value `status` has. -/
def loadStages (stack : Locals) : Boot (Except EfiStatus (EfiStatus × Locals)) := do
  let found ← wbootLocateKernel fw stack.files
  if efiError found.1 then return .error found.1
  let fileInfo ← malloc fw configInfoSize
  if fileInfo = 0 then
    perror fw (wide "Error allocating pool for file info") found.1
    return .error found.1
  let status ← showFile fw found.2.kernel fileInfo (wide "Error getting file info")
    (wide "Kernel file found: %s\r\n") (wide "Kernel file size: %u bytes\r\n")
  if efiError status then return .error status
  let status ← showFile fw found.2.initramfs fileInfo (wide "Error getting initramfs file info")
    (wide "Initramfs file found: %s\r\n") (wide "Initramfs file size: %u bytes\r\n")
  if efiError status then return .error status
  let header ← wbootReadSetupHeader fw found.2.kernel stack.header
  if efiError header.1 then return .error header.1
  wbootDumpSetupHeader fw header.2
  let status ← freePool fw fileInfo
  if efiError status then
    perror fw (wide "Error freeing pool for file info") status
    return .error status
  let kernel ← wbootDecompressKernel fw zstd header.2 found.2.kernel stack.kernel
  if efiError kernel.1 then return .error kernel.1
  printf fw (wide "Decompressed kernel size: %u bytes\r\n") [.num kernel.2.size]
  let initramfs ← wbootLoadInitramfs fw found.2.initramfs stack.initramfs
  if efiError initramfs.1 then return .error initramfs.1
  printf fw (wide "Read initramfs into memory at %p\r\n") [.num initramfs.2.pointer]
  return .ok (initramfs.1, ⟨found.2, header.2, kernel.2, initramfs.2⟩)

def efiMain (stack : Locals) : Boot EfiStatus := do
  let outcome ← loadStages fw zstd stack
  let status := match outcome with
    | .error status => status
    | .ok loaded => loaded.1
  printf fw (wide "Press any key to continue...\r\n") []
  let _ ← readChar fw
  return status

end Code

/-! ### The messages -/

def messages : List (List UInt16) :=
  [wide "Locating kernel...\r\n",
   wide "  Device path: unknown error\r\n",
   wide "Error locating DEVICE_PATH_TO_TEXT_PROTOCOL: %u\r\n",
   wide "  Device path: %s\r\n",
   wide "  Found vmlinuz-linux!\r\n",
   wide "  Found initramfs-linux.img!\r\n",
   wide "Enumerating SIMPLE_FILE_SYSTEM_PROTOCOL devices\r\n",
   wide ("Could not find vmlinuz-linux and initramfs-linux.img together on any " ++
     "device\r\n"),
   wide "Error: expected to read %u bytes for kernel header, but only read %u\r\n",
   wide "Error: invalid kernel header magic (expected 0xAA55, got 0x%x)\r\n",
   wide "Error: invalid kernel header magic (expected 'HdrS', got '%c%c%c%c')\r\n",
   wide "Error creating ZSTD decompression context\r\n",
   wide "Error allocating memory for compressed kernel\r\n",
   wide "Kernel setup size: %u bytes (%u setup sectors)\r\n",
   wide ("Seeking to kernel payload at offset 0x%x and reading %u bytes of compressed " ++
     "kernel\r\n"),
   wide "Error setting kernel file position\r\n",
   wide "Error reading compressed kernel\r\n",
   wide "Error: expected to read %u bytes for compressed kernel, but only read %u\r\n",
   wide ("Error: compressed kernel does not have zstd magic (different compression " ++
     "format or not compressed at all?) expected 0xFD2FB528, got 0x%x\r\n"),
   wide "Exact zstd compressed size: %u bytes\r\n",
   wide "Decompressed kernel size: %u bytes, which requires %u pages\r\n",
   wide ("Asking for %u bytes for decompressed kernel at preferred address " ++
     "0x%x\r\n"),
   wide ("Error allocating pages for decompressed kernel at preferred address " ++
     "0x%x: %s\r\n"),
   wide ("Asking for %u bytes for decompressed kernel at any address since " ++
     "preferred address allocation failed or was not specified\r\n"),
   wide "Error allocating pages for decompressed kernel: %s\r\n",
   wide "Decompressing kernel to address %p...\r\n",
   wide ("Error: decompressed kernel does not have ELF magic (invalid kernel " ++
     "format?) expected 0x464C457F, got 0x%x\r\n")]

/-- None of these has a `%-s` in it, which would allocate. -/
theorem plainMessages : ∀ message ∈ messages, plain message = true := by decide +kernel

end Wboot.Phase2
