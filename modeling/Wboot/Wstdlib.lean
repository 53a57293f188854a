import Wboot.CString
import Wboot.Machine

/-! src/shared/wstdlib.c: printing to the serial line through a buffer, errno,
the guarded pool allocator, and the string and memory routines. The functions
printf and malloc call each other: printf allocates for `%-s`, and malloc prints
when called too late. The message malloc prints has no conversion, so it is
printed by a printf without the allocating case. -/

namespace Wboot.Wstdlib
open StateProgram ByteMemory CString Machine

def wide (text : String) : List UInt16 := text.toList.map fun c => UInt16.ofNat c.toNat

def ascii (text : String) : List UInt8 := text.toList.map fun c => UInt8.ofNat c.toNat

/-! ### Printing -/

def printfBufferSize : Nat := 1024

def percent : UInt16 := UInt16.ofNat 37
def minus : UInt16 := UInt16.ofNat 45
def letterS : UInt16 := UInt16.ofNat 115

def printfFlush (console : Console) : Console :=
  { console with
    serial := ((List.range console.pos).map fun i => (console.buffer i).toUInt8).reverse
      ++ console.serial
    pos := 0 }

def printfPut (console : Console) (c : UInt16) : Console :=
  { console with
    buffer := fun i => if i = console.pos then c else console.buffer i
    stores := console.pos :: console.stores
    pos := console.pos + 1 }

def printfPutAll (console : Console) : List UInt16 → Console
  | [] => console
  | c :: rest => printfPutAll (printfPut console c) rest

/-- `_printf_write`: one flush test for the whole string. -/
def printfWrite (console : Console) (text : List UInt16) : Console :=
  printfPutAll (if console.pos + text.length ≥ printfBufferSize then printfFlush console else console) text

def printfWriteChar (console : Console) (c : UInt16) : Console :=
  printfPut (if console.pos + 1 ≥ printfBufferSize then printfFlush console else console) c

/-- The two loops shared by `_printf_write_uintn` and `_printf_write_hex`: find
the leading divisor, then emit one digit for each divisor. -/
def leadingDivisor (base : Nat) : Nat → Nat → Nat → Nat
  | 0, _, divisor => divisor
  | fuel + 1, temp, divisor =>
      if temp ≥ base then leadingDivisor base fuel (temp / base) (u64 (divisor * base)) else divisor

def digitChar (digit : Nat) : UInt16 :=
  if digit < 10 then UInt16.ofNat (digit + 48) else UInt16.ofNat (digit - 10 + 97)

def writeDigits (base num : Nat) : Nat → Nat → Console → Console
  | 0, _, console => console
  | fuel + 1, divisor, console =>
      if divisor > 0 then
        writeDigits base num fuel (divisor / base)
          (printfWriteChar console (digitChar (num / divisor % base)))
      else console

/-- A 64-bit number has at most 64 digits in any base, so 65 rounds are never used up. -/
def printfWriteNumber (base num : Nat) (console : Console) : Console :=
  if num = 0 then printfWriteChar console (UInt16.ofNat 48)
  else writeDigits base num 65 (leadingDivisor base 65 num 1) console

def printfWriteUintn (num : Nat) : Console → Console := printfWriteNumber 10 num

def printfWriteHex (num : Nat) : Console → Console := printfWriteNumber 16 num

def printfWritePointer (num : Nat) (console : Console) : Console :=
  writeDigits 16 num 17 (2 ^ 60) (printfWrite console (wide "0x"))

/-- A variadic argument. Strings are pointers into memory or literals of the image. -/
inductive Arg where
  | widePointer (pointer : Nat)
  | wideText (text : List UInt16)
  | narrowPointer (pointer : Nat)
  | narrowText (text : List UInt8)
  | num (value : Nat)

def console (update : Console → Console) : Boot Unit :=
  modifyState fun world => { world with console := update world.console }

def readText (memory : Memory) : Arg → List UInt16
  | .widePointer pointer => wideString memory pointer
  | .wideText text => text
  | _ => []

def readNarrow (memory : Memory) : Arg → List UInt8
  | .narrowPointer pointer => cstring memory pointer
  | .narrowText text => text
  | _ => []

def recordRead : Arg → Boot Unit
  | .widePointer pointer | .narrowPointer pointer => inRam (recordAccess (.stringRead pointer))
  | _ => pure ()

/-- `_printf_write(str)` for the argument of `%s`. -/
def printfWriteArg (arg : Arg) : Boot Unit := do
  recordRead arg
  let text ← readState fun world => readText world.mem arg
  console fun old => printfWrite old text

/-- INTN printing: the sign, then the magnitude as UINTN. -/
def writeSigned (num : Nat) (old : Console) : Console :=
  if 2 ^ 63 ≤ num then printfWriteUintn (u64 (2 ^ 64 - num)) (printfWriteChar old minus)
  else printfWriteUintn num old

def Arg.value : Arg → Nat
  | .num value => value
  | _ => 0

/-- The conversions that take at most one argument and do not allocate. -/
def convert (c : UInt16) (arg : Arg) : Boot Unit :=
  if c = letterS then printfWriteArg arg
  else if c = UInt16.ofNat 117 then console (printfWriteUintn arg.value)
  else if c = UInt16.ofNat 100 then console (writeSigned arg.value)
  else if c = UInt16.ofNat 120 then console (printfWriteHex arg.value)
  else if c = UInt16.ofNat 112 then console (printfWritePointer arg.value)
  else console fun old => printfWriteChar old (UInt16.ofNat arg.value)

def takesArgument (c : UInt16) : Bool :=
  [115, 117, 100, 120, 112, 99].contains c.toNat

def literal (c : UInt16) : Boot Unit :=
  console fun old => printfWriteChar (printfWriteChar old percent) c

/-- A conversion cut off by the end of the format prints the terminator, and the
loop goes on to read behind it. -/
def cutOff : Boot Unit :=
  console fun old =>
    { printfWriteChar (printfWriteChar old percent) 0 with overran := true }

def printfScan (narrow : Arg → Boot Unit) : List UInt16 → List Arg → Boot Unit
  | [], _ => pure ()
  | c :: rest, args =>
      if c ≠ percent then do
        console fun old => printfWriteChar old c
        printfScan narrow rest args
      else match rest with
        | [] => cutOff
        | d :: rest =>
            if takesArgument d then do
              convert d (args.headD (.num 0))
              printfScan narrow rest args.tail
            else if d = percent then do
              console fun old => printfWriteChar old percent
              printfScan narrow rest args
            else if d = minus then
              match rest with
              | [] => cutOff
              | e :: rest =>
                  if e = letterS then do
                    narrow (args.headD (.num 0))
                    printfScan narrow rest args.tail
                  else do
                    literal e
                    printfScan narrow rest args
            else do
              literal d
              printfScan narrow rest args

def printfWith (narrow : Arg → Boot Unit) (format : List UInt16) (args : List Arg) : Boot Unit := do
  printfScan narrow format args
  console printfFlush

/-! ### Allocation -/

def setErrno (status : EfiStatus) : Boot Unit :=
  modifyState fun world => { world with errno := status }

def bug (format : List UInt16) : Boot Unit := printfWith (fun _ => pure ()) format []

def malloc (fw : Firmware) (size : Nat) : Boot Nat := do
  if ← readState World.bsExited then
    bug (wide "    [wstdlib] BUG: malloc called after exiting boot services\r\n")
    setErrno efiOutOfResources
    return 0
  let reply ← allocatePool fw size
  if efiError reply.1 then
    setErrno reply.1
    return 0
  return reply.2

def free (fw : Firmware) (ptr : Nat) : Boot Unit := do
  if ← readState World.bsExited then
    bug (wide "    [wstdlib] BUG: free called after exiting boot services\r\n")
    return ()
  if ptr ≠ 0 then
    let status ← freePool fw ptr
    setErrno status

/-- A store of wstdlib through a pointer malloc returned. -/
def heapStore (ptr : Nat) (bytes : List UInt8) : Boot Unit := do
  inRam (recordAccess (.heapStore ptr))
  inRam (deliver ptr bytes)

/-- `%-s`: widen at most 255 characters into a temporary buffer and print that. -/
def printfNarrow (fw : Firmware) (arg : Arg) : Boot Unit := do
  recordRead arg
  let str ← readState fun world => readNarrow world.mem arg
  let buffer ← malloc fw (u64 ((str.length + 1) * 2))
  heapStore buffer (wideBytes ((str.take 255).map UInt8.toUInt16 ++ [0]))
  printfWriteArg (.widePointer buffer)
  free fw buffer

section Library
variable (fw : Firmware)

def printf (format : List UInt16) (args : List Arg) : Boot Unit :=
  printfWith (printfNarrow fw) format args

def statusTexts : List (Nat × String) :=
  [(1, "load error"), (2, "invalid parameter"), (3, "unsupported"), (4, "bad buffer size"),
   (5, "buffer too small"), (6, "not ready"), (7, "device error"), (8, "write protected"),
   (9, "out of resources"), (10, "volume corrupted"), (11, "volume full"), (12, "no media"),
   (13, "media changed"), (14, "not found"), (15, "access denied"), (16, "no response"),
   (17, "no mapping"), (18, "timeout"), (19, "not started"), (20, "already started"),
   (21, "aborted"), (22, "ICMP error"), (23, "TFTP error"), (24, "protocol error"),
   (25, "incompatible version"), (26, "security violation"), (27, "CRC error"),
   (28, "end of media"), (31, "end of file"), (32, "invalid language"),
   (33, "compromised data"), (34, "IP address conflict"), (35, "HTTP error")]

def strerror (status : EfiStatus) : List UInt16 :=
  if status = efiSuccess then wide "success"
  else match statusTexts.find? fun entry => errorStatus entry.1 = status with
    | some entry => wide entry.2
    | none => wide "unknown error"

def perror (message : List UInt16) (status : EfiStatus) : Boot Unit :=
  printf fw (wide "%s: %s\r\n") [.wideText message, .wideText (strerror status)]

/-- Before exit: wait for the console's key event. After: poll the keyboard port. -/
def readChar : Boot UInt16 := do
  if ← readState World.bsExited then
    readState fun world => fw.scanCode world.history
  else
    waitForEvent
    let delay ← readState fun world => fw.keyDelay world.history
    readKeyStrokes fw delay

def calloc (nmemb size : Nat) : Boot Nat := do
  let totalSize := u64 (nmemb * size)
  let ptr ← malloc fw totalSize
  if ptr ≠ 0 then
    inRam (recordAccess (.heapStore ptr))
    inRam (modifyState fun ram => { ram with mem := setLoop ram.mem ptr 0 totalSize })
  return ptr

def strdup8 (src : Nat) : Boot Nat := do
  let text ← readState fun world => cstring world.mem src
  let dst ← malloc fw (u64 (text.length + 1))
  if dst = 0 then return 0
  heapStore dst (text ++ [0])
  return dst

end Library

/-! ### Memory and strings -/

def memset (s : Nat) (c : UInt8) (n : Nat) : Prog Ram Unit :=
  modifyState fun ram => { ram with mem := setLoop ram.mem s c n }

/-- `memcpy` from an object outside the modelled memory: a stack variable or
firmware data. -/
def memcpyFrom (dest : Nat) (bytes : List UInt8) : Prog Ram Unit := deliver dest bytes

/-- Backward when the destination is above the source, not at all when equal. -/
def memmoveMemory (memory : Memory) (dest src n : Nat) : Memory :=
  if dest < src then copyUp memory dest src n
  else if dest > src then copyDown memory dest src n
  else memory

def memmove (dest src n : Nat) : Prog Ram Unit :=
  modifyState fun ram => { ram with mem := memmoveMemory ram.mem dest src n }

theorem memmoveMemory_moved (memory : Memory) (dest src n : Nat) :
    memmoveMemory memory dest src n = moved memory dest src n := by
  unfold memmoveMemory
  by_cases below : dest < src
  · rw [if_pos below, copyUp_moved memory dest src n below]
  · by_cases above : dest > src
    · rw [if_neg below, if_pos above, copyDown_moved memory dest src n above]
    · have equal : dest = src := by omega
      subst equal
      funext x
      have source (lower : dest ≤ x) : dest + (x - dest) = x := by omega
      simp +contextual [moved, source]

/-- Both loops of `strcmp8` and the final difference. -/
def strcmp8 : List UInt8 → List UInt8 → Int
  | [], [] => 0
  | [], d :: _ => 0 - d.toNat
  | c :: _, [] => c.toNat
  | c :: rest, d :: other => if c ≠ d then (c.toNat : Int) - d.toNat else strcmp8 rest other

/-- The value of a digit character, as `strtoul` classifies it. -/
def digitOf (c : UInt8) : Option Nat :=
  if 48 ≤ c.toNat ∧ c.toNat ≤ 57 then some (c.toNat - 48)
  else if 97 ≤ c.toNat ∧ c.toNat ≤ 102 then some (c.toNat - 97 + 10)
  else if 65 ≤ c.toNat ∧ c.toNat ≤ 70 then some (c.toNat - 65 + 10)
  else none

/-- The accumulator wraps at 64 bits; the second component is what `*endptr` points at. -/
def strtoulLoop (base : Nat) : Nat → List UInt8 → Nat × List UInt8
  | result, [] => (result, [])
  | result, c :: rest =>
      match digitOf c with
      | none => (result, c :: rest)
      | some digit =>
          if digit ≥ base then (result, c :: rest)
          else strtoulLoop base (u64 (result * base + digit)) rest

def strtoul (str : List UInt8) (base : Nat) : Nat × List UInt8 := strtoulLoop base 0 str

/-- `strchr(delim, c) != NULL` for a character other than NUL. -/
def strchr (str : List UInt8) (c : UInt8) : Bool := str.contains c

def strlen8 (memory : Memory) (str : Nat) : Nat := (cstring memory str).length

structure Token where
  start : Nat
  saveptr : Nat
  mem : Memory

/-- Pointers, with 0 for NULL. A NULL `str` resumes at `saveptr`. -/
def strtokR (memory : Memory) (str : Nat) (delim : List UInt8) (saveptr : Nat) : Token :=
  let cursor := if str ≠ 0 then str else saveptr
  if cursor = 0 then ⟨0, cursor, memory⟩
  else
    let start := scan (fun c => c ≠ 0 && strchr delim c) memory cursor
    if memory start = 0 then ⟨0, 0, memory⟩
    else
      let stop := scan (fun c => c ≠ 0 && !strchr delim c) memory start
      if memory stop ≠ 0 then ⟨start, stop + 1, poke memory stop 0⟩
      else ⟨start, 0, memory⟩

/-- A wide string that stands in memory with its terminator is read back. -/
theorem wideString_at {memory : Memory} {p : Nat} {text : List UInt16} (bounded : text.length < addressSpace)
    (nonzero : ∀ c ∈ text, c ≠ 0) (here : TextAt memory p (wideBytes (text ++ [0]))) :
    wideString memory p = text := by
  have unit (p : Nat) (c : UInt16) (low : memory p = c.toUInt8) (high : memory (p + 1) = (c >>> 8).toUInt8) :
      load memory p 2 = c.toNat := by
    have size := c.toNat_lt
    have shift : c.toNat >>> 8 = c.toNat / 256 := by rw [Nat.shiftRight_eq_div_pow]
    simp only [load, low, high, UInt16.toNat_toUInt8, UInt16.toNat_shiftRight, UInt16.reduceToNat, shift]
    omega
  unfold wideString
  generalize addressSpace = fuel at bounded
  induction text generalizing fuel p with
  | nil =>
      obtain ⟨low, high, -⟩ := here
      cases fuel with
      | zero => rfl
      | succ fuel => rw [wideFrom, unit p 0 low high]; rfl
  | cons c rest ih =>
      obtain ⟨first, others⟩ := List.forall_mem_cons.mp nonzero
      obtain ⟨low, high, later⟩ := here
      obtain ⟨fuel, rfl⟩ : ∃ less, fuel = less + 1 := ⟨fuel - 1, by simp at bounded; omega⟩
      have present : c.toNat ≠ 0 := fun null => first (UInt16.toNat_inj.mp null)
      have tail := ih others later fuel (by simpa using bounded)
      rw [wideFrom, unit p c low high, if_neg present, tail, UInt16.ofNat_toNat]

end Wboot.Wstdlib
