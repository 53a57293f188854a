import Wboot.BootParams

/-! src/phase3/wboot_graphics.c: choosing a graphics output, its mode, and filling
`screen_info` and `edid_info` of the boot parameters. -/

namespace Wboot.Graphics
open StateProgram ByteMemory Machine LinuxBoot Wstdlib ConfigParser

def pixelRedGreenBlueReserved8BitPerColor : Int := 0
def pixelBitMask : Int := 2
def pixelBltOnly : Int := 3
def pixelFormatMax : Int := 4

def videoTypeEfi : Nat := 0x70
def videoCapabilitySkipQuirks : Nat := 1
def videoCapability64BitBase : Nat := 2

def hasFramebuffer (info : ModeInfo) : Bool :=
  decide (info.pixelFormat ≠ pixelBltOnly ∧ info.pixelFormat < pixelFormatMax)

/-- The lowest set bit of a mask that is not 0, and the highest. -/
def ffs (mask : Nat) : Nat := ((List.range 32).find? fun i => mask.testBit i).getD 0
def fls (mask : Nat) : Nat := Nat.log2 mask

/-- `*pos` and `*size`, both bytes. -/
def findBits (mask : Nat) : Nat × Nat :=
  if mask = 0 then (0, 0) else (u8 (ffs mask), u8 (fls mask - ffs mask + 1))

def pixelBpp (info : ModeInfo) : Nat :=
  if info.pixelFormat = pixelBitMask then
    let mask := info.redMask ||| info.greenMask ||| info.blueMask ||| info.reservedMask
    if mask = 0 then 0 else u8 (fls mask - ffs mask + 1)
  else 32

def matchRes (config : WbootConfig) (info : ModeInfo) : Bool :=
  hasFramebuffer info &&
    decide (config.modeWidth = info.horizontalResolution ∧
      config.modeHeight = info.verticalResolution ∧
      (config.modeFormat < 0 ∨ config.modeFormat = info.pixelFormat) ∧
      (config.modeDepth = 0 ∨ config.modeDepth = pixelBpp info))

section Code
variable (fw : Firmware)

/-- The scan over the handles, with the first usable one so far (0 for NULL). -/
def findHandleFrom (first : Nat × Nat) : List Nat → Boot (Nat × Nat)
  | [] => return first
  | h :: rest => do
      let gop ← handleProtocol fw h .graphicsOutput
      if gop.1 ≠ efiSuccess then findHandleFrom first rest
      else
        let mode ← gopMode fw gop.2
        if ¬ hasFramebuffer mode.info then findHandleFrom first rest
        else
          let console ← handleProtocol fw h .simpleTextOutput
          if console.1 = efiSuccess then return (h, gop.2)
          else findHandleFrom (if first.1 = 0 then (h, gop.2) else first) rest

def findHandleWithPrimaryGop (handles : List Nat) : Boot (Nat × Nat) :=
  findHandleFrom fw (0, 0) handles

/-- `choose_mode` with `match_res`: the first mode that matches, else `ctx`. -/
def chooseModeFrom (config : WbootConfig) (gop ctx m : Nat) : Nat → Boot Nat
  | 0 => return ctx
  | left + 1 => do
      let reply ← queryMode fw gop m
      if reply.1 ≠ efiSuccess then chooseModeFrom config gop ctx (m + 1) left
      else if matchRes config reply.2 then return m
      else chooseModeFrom config gop ctx (m + 1) left

def chooseModeRes (config : WbootConfig) (gop : Nat) : Boot Nat := do
  let mode ← gopMode fw gop
  if matchRes config mode.info then return mode.mode
  chooseModeFrom fw config gop mode.mode 0 mode.maxMode

def setGraphicsMode (config : WbootConfig) (gop : Nat) : Boot Unit := do
  let mode ← gopMode fw gop
  let newMode ← chooseModeRes fw config gop
  if newMode = mode.mode then return ()
  let status ← setMode fw gop newMode
  if efiError status then
    printf fw (wide "    [set_mode] error setting graphics mode to %u: %s\r\n")
      [.num newMode, .wideText (strerror status)]

end Code

/-! ### screen_info and edid_info -/

/-- A position and a size, for one of the four channels. -/
def storeChannel (params : Nat) (pos size : Field) (bits : Nat × Nat) : Prog Ram Unit := do
  storeField params pos bits.1
  storeField params size bits.2

def setupMaskedFormat (params : Nat) (info : ModeInfo) : Prog Ram Unit := do
  storeChannel params Params.redPos Params.redSize (findBits info.redMask)
  storeChannel params Params.greenPos Params.greenSize (findBits info.greenMask)
  storeChannel params Params.bluePos Params.blueSize (findBits info.blueMask)
  storeChannel params Params.rsvdPos Params.rsvdSize (findBits info.reservedMask)
  let red ← loadField params Params.redSize
  let green ← loadField params Params.greenSize
  let blue ← loadField params Params.blueSize
  let rsvd ← loadField params Params.rsvdSize
  storeField params Params.lfbDepth (red + green + blue + rsvd)
  let depth ← loadField params Params.lfbDepth
  storeField params Params.lfbLinelength (u32 (info.pixelsPerScanLine * depth) / 8)

def setupByteFormat (params : Nat) (info : ModeInfo) : Prog Ram Unit := do
  let redFirst := info.pixelFormat = pixelRedGreenBlueReserved8BitPerColor
  storeChannel params Params.redPos Params.redSize (if redFirst then 0 else 16, 8)
  storeChannel params Params.bluePos Params.blueSize (if redFirst then 16 else 0, 8)
  storeChannel params Params.greenPos Params.greenSize (8, 8)
  storeChannel params Params.rsvdPos Params.rsvdSize (24, 8)
  storeField params Params.lfbDepth 32
  storeField params Params.lfbLinelength (u32 (info.pixelsPerScanLine * 4))

def setupScreenInfo (params : Nat) (mode : GopMode) : Prog Ram Unit := do
  let info := mode.info
  storeField params Params.origVideoIsVGA videoTypeEfi
  storeField params Params.lfbWidth info.horizontalResolution
  storeField params Params.lfbHeight info.verticalResolution
  storeField params Params.lfbBase mode.frameBufferBase
  storeField params Params.extLfbBase (mode.frameBufferBase >>> 32)
  let high ← loadField params Params.extLfbBase
  if high ≠ 0 then
    let capabilities ← loadField params Params.capabilities
    storeField params Params.capabilities (capabilities ||| videoCapability64BitBase)
  storeField params Params.pages 1
  if info.pixelFormat = pixelBitMask then setupMaskedFormat params info
  else setupByteFormat params info
  let linelength ← loadField params Params.lfbLinelength
  let height ← loadField params Params.lfbHeight
  storeField params Params.lfbSize (linelength * height)
  let capabilities ← loadField params Params.capabilities
  storeField params Params.capabilities (capabilities ||| videoCapabilitySkipQuirks)

def setupEdidInfo (params sizeOfEdid : Nat) : Option (List UInt8) → Prog Ram Unit
  | none => memset (params + Params.edidInfo) 0 Params.sizeofEdidInfo
  | some edid =>
      if sizeOfEdid < 128 then memset (params + Params.edidInfo) 0 Params.sizeofEdidInfo
      else memcpyFrom (params + Params.edidInfo) (edid.take (min sizeOfEdid Params.sizeofEdidInfo))

section Setup
variable (fw : Firmware)

/-- The active EDID, else the discovered one, else none. -/
def readEdid (handle : Nat) : Boot (Nat × Option (List UInt8)) := do
  let active ← handleProtocol fw handle .edidActive
  if active.1 = efiSuccess then readState fun world => fw.edid world.history active.2
  else
    let discovered ← handleProtocol fw handle .edidDiscovered
    if discovered.1 = efiSuccess then readState fun world => fw.edid world.history discovered.2
    else return (0, none)

def wbootSetupGraphics (config : WbootConfig) (params : Nat) : Boot EfiStatus := do
  inRam (memset (params + Params.screenInfo) 0 Params.sizeofScreenInfo)
  inRam (memset (params + Params.edidInfo) 0 Params.sizeofEdidInfo)
  let handles ← locateHandleBuffer fw .graphicsOutput
  if handles.1 ≠ efiSuccess then return handles.1
  let (handle, gop) ← findHandleWithPrimaryGop fw handles.2
  if handle = 0 then return efiNotFound
  setGraphicsMode fw config gop
  let mode ← gopMode fw gop
  inRam (setupScreenInfo params mode)
  let (size, edid) ← readEdid fw handle
  inRam (setupEdidInfo params size edid)
  return efiSuccess

end Setup

end Wboot.Graphics
