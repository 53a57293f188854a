import Wboot.Wstdlib

/-! src/phase3/wboot_config.c up to `wboot_load_config`. The file is read into one
buffer and parsed where it stands: lines and mode tokens are cut out with
terminators, and each accepted value is copied to the heap. The configuration is
a value here; its strings are pointers into memory. -/

namespace Wboot.ConfigParser
open StateProgram ByteMemory CString Machine Wstdlib

structure WbootConfig where
  kernelPath : Nat
  initrdPath : Nat
  cmdline : Nat
  modeWidth : Nat
  modeHeight : Nat
  modeFormat : Int
  modeDepth : Nat
  root : Nat

def sizeofWbootConfig : Nat := 48

structure ConfigParseState where
  hasKernel : Bool
  hasInitrd : Bool
  hasCmdline : Bool
  hasMode : Bool

def isWs (c : UInt8) : Bool := c.toNat = 32 || c.toNat = 9 || c.toNat = 13

/-- From the end of the string of this length. -/
def trimTrailingWs (memory : Memory) (str : Nat) : Nat → Memory
  | 0 => memory
  | len + 1 =>
      if isWs (memory (str + len)) then trimTrailingWs (poke memory (str + len) 0) str len
      else memory

/-- A NULL or empty value is refused; a value of 0 has no text. -/
def parseU32 (value : List UInt8) : Option Nat :=
  let (parsed, rest) := strtoul value 10
  if value = [] then none else if rest ≠ [] ∨ parsed > 0xFFFFFFFF then none else some (u32 parsed)

def parseModeFormat (value : List UInt8) : Option Int :=
  if value = [] then none
  else if strcmp8 value (ascii "-1") = 0 then some (-1)
  else match parseU32 value with
    | some parsed => if parsed > 0x7FFFFFFF then none else some parsed
    | none => none

def lineDelim : List UInt8 := [10]
def modeDelim : List UInt8 := [32, 9]

/-- `strtok_r` on memory; the token start is returned and `*saveptr` passed on. -/
def nextToken (str : Nat) (delim : List UInt8) (saveptr : Nat) : Boot (Nat × Nat) := do
  let token ← readState fun world => strtokR world.mem str delim saveptr
  inRam (modifyState fun ram => { ram with mem := token.mem })
  return (token.start, token.saveptr)

def stringAt (pointer : Nat) : Boot (List UInt8) := readState fun world => cstring world.mem pointer

/-- `FileSize` of EFI_FILE_INFO, which has 88 bytes before the rest of its name. -/
def fileSizeField : Field := ⟨8, 8⟩
def sizeofEfiFileInfo : Nat := 88
def configInfoSize : Nat := sizeofEfiFileInfo + 512 * 2

section Code
variable (fw : Firmware)

def strdup8To16 (src : Nat) : Boot Nat := do
  let text ← stringAt src
  let dst ← malloc fw (u64 ((text.length + 1) * 2))
  if dst = 0 then return 0
  heapStore dst (wideBytes (text.map UInt8.toUInt16 ++ [0]))
  return dst

def freeConfigFields (config : WbootConfig) : Boot Unit := do
  free fw config.kernelPath
  free fw config.initrdPath
  free fw config.cmdline

def modeUsage : List UInt16 :=
  wide ("error parsing wboot.conf line %u: mode must be 'mode <width> <height> " ++
    "[format] [depth]'\r\n")

/-- The numbers of a mode line whose tokens have been cut out; `none` is a
failure that has been printed. A format or depth that is left out is NULL. -/
def parseModeTokens (width height format depth lineNo : Nat) : Boot (Option (Nat × Nat × Int × Nat)) := do
  let widthText ← stringAt width
  let heightText ← stringAt height
  match parseU32 widthText, parseU32 heightText with
  | some width, some height =>
      let formatText ← stringAt format
      match if format = 0 then some (-1) else parseModeFormat formatText with
      | none => do
          printf fw (wide "error parsing wboot.conf line %u: invalid mode format '%-s'\r\n")
            [.num lineNo, .narrowPointer format]
          return none
      | some modeFormat =>
          let depthText ← stringAt depth
          match if depth = 0 then some 0 else parseU32 depthText with
          | none => do
              printf fw (wide "error parsing wboot.conf line %u: invalid mode depth '%-s'\r\n")
                [.num lineNo, .narrowPointer depth]
              return none
          | some modeDepth => return some (width, height, modeFormat, modeDepth)
  | _, _ => do
      printf fw (wide "error parsing wboot.conf line %u: invalid mode width/height\r\n") [.num lineNo]
      return none

def parseConfigMode (config : WbootConfig) (value lineNo : Nat) : Boot (Option WbootConfig) := do
  let (width, saveptr) ← nextToken value modeDelim 0
  let (height, saveptr) ← nextToken 0 modeDelim saveptr
  let (format, saveptr) ← nextToken 0 modeDelim saveptr
  let (depth, saveptr) ← nextToken 0 modeDelim saveptr
  let (extra, _) ← nextToken 0 modeDelim saveptr
  if width = 0 ∨ height = 0 ∨ extra ≠ 0 then
    printf fw modeUsage [.num lineNo]
    return none
  match ← parseModeTokens fw width height format depth lineNo with
  | none => return none
  | some (width, height, format, depth) =>
      return some { config with
        modeWidth := width, modeHeight := height, modeFormat := format, modeDepth := depth }

def missingValue (line lineNo : Nat) : Boot (Option (WbootConfig × ConfigParseState)) := do
  printf fw (wide "error parsing wboot.conf line %u: missing value for key '%-s'\r\n")
    [.num lineNo, .narrowPointer line]
  return none

/-- The `if` chain over the four keys, with the key terminated at `line` and the
trimmed value at `value`. -/
def applySetting (config : WbootConfig) (state : ConfigParseState) (line value lineNo : Nat) :
    Boot (Option (WbootConfig × ConfigParseState)) := do
  let key ← stringAt line
  if strcmp8 key (ascii "kernel") = 0 then
    let kernel ← strdup8To16 fw value
    if kernel = 0 then
      perror fw (wide "error allocating kernel path") efiOutOfResources
      return none
    free fw config.kernelPath
    return some ({ config with kernelPath := kernel }, { state with hasKernel := true })
  if strcmp8 key (ascii "initrd") = 0 then
    let initrd ← strdup8To16 fw value
    if initrd = 0 then
      perror fw (wide "error allocating initrd path") efiOutOfResources
      return none
    free fw config.initrdPath
    return some ({ config with initrdPath := initrd }, { state with hasInitrd := true })
  if strcmp8 key (ascii "cmdline") = 0 then
    let cmdline ← strdup8 fw value
    if cmdline = 0 then
      perror fw (wide "error allocating cmdline") efiOutOfResources
      return none
    free fw config.cmdline
    return some ({ config with cmdline := cmdline }, { state with hasCmdline := true })
  if strcmp8 key (ascii "mode") = 0 then
    match ← parseConfigMode fw config value lineNo with
    | none => return none
    | some config => return some (config, { state with hasMode := true })
  printf fw (wide "error parsing wboot.conf line %u: unknown key '%-s'\r\n")
    [.num lineNo, .narrowPointer line]
  return none

/-- `none` is FALSE; `some` carries what the two structures became. -/
def parseConfigLine (config : WbootConfig) (state : ConfigParseState) (line lineNo : Nat) :
    Boot (Option (WbootConfig × ConfigParseState)) := do
  let line ← readState fun world => scan isWs world.mem line
  let first ← readState fun world => world.mem line
  if first = 0 ∨ first.toNat = 35 then return some (config, state)
  let stop ← readState fun world => scan (fun c => c ≠ 0 && !isWs c) world.mem line
  let after ← readState fun world => world.mem stop
  if after = 0 then missingValue fw line lineNo
  else
    inRam (modifyState fun ram => { ram with mem := poke ram.mem stop 0 })
    let value ← readState fun world => scan isWs world.mem (stop + 1)
    inRam (modifyState fun ram =>
      { ram with mem := trimTrailingWs ram.mem value (strlen8 ram.mem value) })
    let head ← readState fun world => world.mem value
    if head = 0 then missingValue fw line lineNo
    else applySetting fw config state line value lineNo

/-- The loop over the lines. Each round consumes a byte, so an address space of
rounds is never used up. -/
def parseLines : Nat → WbootConfig → ConfigParseState → Nat → Nat → Nat →
    Boot (Except WbootConfig (WbootConfig × ConfigParseState))
  | 0, config, state, _, _, _ => return .ok (config, state)
  | fuel + 1, config, state, line, saveptr, lineNo => do
      if line = 0 then return .ok (config, state)
      match ← parseConfigLine fw config state line lineNo with
      | none => return .error config
      | some (config, state) =>
          let (line, saveptr) ← nextToken 0 lineDelim saveptr
          parseLines fuel config state line saveptr (lineNo + 1)

def printIfMissing (present : Bool) (message : List UInt16) : Boot Unit :=
  if ¬ present then printf fw message [] else pure ()

def printMissing (state : ConfigParseState) : Boot Unit := do
  printIfMissing fw state.hasKernel
    (wide "error parsing wboot.conf: missing required line 'kernel'\r\n")
  printIfMissing fw state.hasInitrd
    (wide "error parsing wboot.conf: missing required line 'initrd'\r\n")
  printIfMissing fw state.hasCmdline
    (wide "error parsing wboot.conf: missing required line 'cmdline'\r\n")
  printIfMissing fw state.hasMode
    (wide "error parsing wboot.conf: missing required line 'mode'\r\n")

/-- Size and bytes of the file, in a buffer with a terminator; `none` after
everything has been undone. -/
def readConfigData (file : Nat) : Boot (Option Nat) := do
  let fileInfo ← malloc fw configInfoSize
  if fileInfo = 0 then
    let errno ← readState World.errno
    perror fw (wide "error allocating memory for config file info") errno
    return none
  let info ← fileGetInfo fw file configInfoSize fileInfo
  if efiError info.status then
    perror fw (wide "error getting config file info") info.status
    free fw fileInfo
    return none
  let configSize ← inRam (loadField fileInfo fileSizeField)
  free fw fileInfo
  let configData ← malloc fw (u64 (configSize + 1))
  if configData = 0 then
    let errno ← readState World.errno
    perror fw (wide "error allocating memory for config data") errno
    return none
  let reply ← fileReadInto fw file configSize configData
  if efiError reply.1 then
    perror fw (wide "error reading config file") reply.1
    free fw configData
    return none
  if reply.2 ≠ configSize then
    printf fw (wide "error: expected to read %u bytes but read %u bytes\n")
      [.num configSize, .num reply.2]
    free fw configData
    return none
  inRam (modifyState fun ram => { ram with mem := poke ram.mem (configData + reply.2) 0 })
  return some configData

def emptyConfig (root : Nat) : WbootConfig := ⟨0, 0, 0, 0, 0, -1, 0, root⟩

/-- The lines of the buffer, and the check that no key is missing. -/
def parseConfigData (root configData : Nat) : Boot (Except WbootConfig WbootConfig) := do
  let (line, saveptr) ← nextToken configData lineDelim 0
  match ← parseLines fw addressSpace (emptyConfig root) ⟨false, false, false, false⟩ line saveptr 1 with
  | .error config => return .error config
  | .ok (config, state) =>
      if state.hasKernel && state.hasInitrd && state.hasCmdline && state.hasMode then
        return .ok config
      printMissing fw state
      return .error config

/-- NULL is `none`. -/
def wbootLoadConfig (root : Nat) : Boot (Option WbootConfig) := do
  let config ← malloc fw sizeofWbootConfig
  if config = 0 then return none
  let opened ← fileOpen fw root (wide "wboot.conf")
  if efiError opened.1 then
    free fw config
    return none
  match ← readConfigData fw opened.2 with
  | none =>
      let _ ← fileClose fw opened.2
      free fw config
      return none
  | some configData =>
      match ← parseConfigData fw root configData with
      | .error fields =>
          free fw configData
          let _ ← fileClose fw opened.2
          freeConfigFields fw fields
          free fw config
          return none
      | .ok fields =>
          free fw configData
          let _ ← fileClose fw opened.2
          return some fields

/-! ### Looking for the file -/

def getDevicePathToText : Boot EfiStatus := do
  let status ← locateProtocol fw .devicePathToText
  if efiError status then
    printf fw (wide "error locating DEVICE_PATH_TO_TEXT_PROTOCOL: %u\r\n") [.num status]
  return status

def printDevicePath (handle : Nat) : Boot Unit := do
  let found ← handleProtocol fw handle .devicePath
  if ¬ efiError found.1 then
    let devicePathStr ← convertDevicePathToText fw found.2
    if devicePathStr = 0 then
      printf fw (wide "[locate_config] device path: unknown error\r\n") []
    printf fw (wide "[locate_config] device path: %s\r\n") [.widePointer devicePathStr]
    let _ ← freePool fw devicePathStr
  else perror fw (wide "[locate_config] error getting device path") found.1

/-- One handle; `none` goes on with the next. -/
def tryHandle (handle : Nat) : Boot (Option WbootConfig) := do
  printDevicePath fw handle
  let fs ← handleProtocol fw handle .simpleFileSystem
  if efiError fs.1 then
    perror fw (wide "[locate_config] error getting file system protocol") fs.1
    return none
  let root ← openVolume fw fs.2
  if efiError root.1 then
    perror fw (wide " [locate_config] error opening volume") root.1
    return none
  wbootLoadConfig fw root.2

def tryHandles : List Nat → Boot (Option WbootConfig)
  | [] => return none
  | handle :: rest => do
      match ← tryHandle fw handle with
      | some config => return some config
      | none => tryHandles rest

def wbootLocateConfig : Boot (EfiStatus × Option WbootConfig) := do
  let status ← getDevicePathToText fw
  if efiError status then return (status, none)
  let handles ← locateHandle fw .simpleFileSystem
  if efiError handles.1 then return (handles.1, none)
  match ← tryHandles fw handles.2 with
  | some config => return (efiSuccess, some config)
  | none => do
      printf fw (wide "[locate_config] could not find config file on any device\r\n") []
      return (efiNotFound, none)

end Code

end Wboot.ConfigParser
