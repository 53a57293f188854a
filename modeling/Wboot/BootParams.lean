import Wboot.KernelImage

/-! What the kernel is handed (src/phase3/wboot.c): the initramfs, read into pages
below 4 GiB if there are any, and the boot parameters with the header of the
kernel file in them. -/

namespace Wboot.BootParams
open StateProgram ByteMemory CString Machine LinuxBoot Wstdlib ConfigParser KernelImage

/-- `*initramfs` and `*initramfs_size`. -/
structure Initramfs where
  pointer : Nat
  size : Nat

section Code
variable (fw : Firmware)

/-- The size of the file, or the status to return. -/
def initramfsFileSize (file : Nat) : Boot (Except EfiStatus Nat) := do
  let query ← fileGetInfo fw file 0 0
  if query.status ≠ efiBufferTooSmall then
    printf fw (wide "[load_initramfs] error getting initramfs file info size: %s\r\n")
      [.wideText (strerror query.status)]
    return .error query.status
  let fileInfo ← malloc fw query.size
  if fileInfo = 0 then
    let errno ← readState World.errno
    printf fw (wide ("[load_initramfs] error allocating memory for initramfs file info: " ++
      "%s\r\n")) [.wideText (strerror errno)]
    let errno ← readState World.errno
    return .error errno
  let info ← fileGetInfo fw file query.size fileInfo
  if efiError info.status then
    printf fw (wide "[load_initramfs] error getting initramfs file info: %s\r\n")
      [.wideText (strerror info.status)]
    free fw fileInfo
    return .error info.status
  let fileSize ← inRam (loadField fileInfo fileSizeField)
  free fw fileInfo
  return .ok fileSize

/-- Below 4 GiB, else anywhere. -/
def allocateInitramfs (pages : Nat) : Boot (EfiStatus × Nat) := do
  let low ← allocatePages fw .maxAddress pages 0xFFFFFFFF
  if efiError low.1 then allocatePages fw .anyPages pages 0
  else return low

/-- `*initramfs` and `*initramfs_size` are set on success only. -/
def wbootLoadInitramfs (config : WbootConfig) (out : Initramfs) : Boot (EfiStatus × Initramfs) := do
  let opened ← openFile fw config.root config.initrdPath
  if efiError opened.1 then
    printf fw (wide "[load_initramfs] error opening initramfs file '%s': %s\r\n")
      [.widePointer config.initrdPath, .wideText (strerror opened.1)]
    return (opened.1, out)
  match ← initramfsFileSize fw opened.2 with
  | .error status => return (status, out)
  | .ok fileSize =>
      let pages := u64 (fileSize + efiPageSize - 1) / efiPageSize
      let buffer ← allocateInitramfs fw pages
      if efiError buffer.1 then
        printf fw (wide "[load_initramfs] error allocating pages for initramfs: %s\r\n")
          [.wideText (strerror buffer.1)]
        return (buffer.1, out)
      inRam (memset buffer.2 0 (pages * efiPageSize))
      let reply ← fileReadInto fw opened.2 fileSize buffer.2
      if efiError reply.1 then
        printf fw (wide "[load_initramfs] error reading initramfs file: %s\r\n")
          [.wideText (strerror reply.1)]
        let _ ← freePages fw buffer.2 pages
        return (reply.1, out)
      if reply.2 ≠ fileSize then
        printf fw (wide "[load_initramfs] error: expected to read %u bytes but read %u bytes\r\n")
          [.num fileSize, .num reply.2]
        let _ ← freePages fw buffer.2 pages
        return (efiBadBufferSize, out)
      return (efiSuccess, ⟨buffer.2, fileSize⟩)

/-- The stores into `params` once it is allocated. -/
def fillBootparams (config : WbootConfig) (header : SetupHeader) (initramfs : Initramfs)
    (params : Nat) : Prog Ram Unit := do
  memset params 0 sizeofBootParams
  memcpyFrom (params + Params.hdr) header.bytes
  storeField (params + Params.hdr) Hdr.ramdiskImage initramfs.pointer
  storeField params Params.extRamdiskImage (initramfs.pointer >>> 32)
  storeField (params + Params.hdr) Hdr.ramdiskSize initramfs.size
  storeField params Params.extRamdiskSize (initramfs.size >>> 32)
  storeField (params + Params.hdr) Hdr.typeOfLoader 0xFF
  storeField (params + Params.hdr) Hdr.initrdAddrMax 0xFFFFFFFF
  storeField (params + Params.hdr) Hdr.cmdLinePtr config.cmdline
  storeField params Params.extCmdLinePtr (config.cmdline >>> 32)
  let length ← readState fun ram => strlen8 ram.mem config.cmdline
  storeField (params + Params.hdr) Hdr.cmdlineSize length

/-- NULL when there is no memory. -/
def wbootPrepareBootparams (config : WbootConfig) (header : SetupHeader) (initramfs : Initramfs) :
    Boot Nat := do
  let params ← malloc fw sizeofBootParams
  if params = 0 then
    let errno ← readState World.errno
    printf fw (wide "[prepare_bootparams] error allocating memory for boot params: %s\r\n")
      [.wideText (strerror errno)]
    return 0
  inRam (fillBootparams config header initramfs params)
  return params

end Code

end Wboot.BootParams
