import Wboot.BitRuns
import Wboot.Graphics

/-! What `setup_screen_info` tells the kernel of a framebuffer, and the depth that the
masks of its pixels give. -/

namespace Wboot.ScreenInfo
open StateProgram ByteMemory Machine LinuxBoot Wstdlib ConfigParser Graphics BitRuns

def channelMasks (info : ModeInfo) : List Nat :=
  [info.redMask, info.greenMask, info.blueMask, info.reservedMask]

/-- `lfb_depth`: the sizes of the channels, or four bytes. -/
def depthOf (info : ModeInfo) : Nat :=
  if info.pixelFormat = pixelBitMask then ((channelMasks info).map fun mask => (findBits mask).2).sum else 32

def lineBytes (info : ModeInfo) : Nat :=
  if info.pixelFormat = pixelBitMask then u32 (info.pixelsPerScanLine * depthOf info) / 8
  else u32 (info.pixelsPerScanLine * 4)

section Fields
variable {params : Nat}

/-- The fields that describe the framebuffer. -/
structure Describes (memory : Memory) (params width height depth line size : Nat) : Prop where
  width : Params.lfbWidth.get memory params = width
  height : Params.lfbHeight.get memory params = height
  depth : Params.lfbDepth.get memory params = depth
  line : Params.lfbLinelength.get memory params = line
  size : Params.lfbSize.get memory params = size

theorem findBits_byte (mask : Nat) : (findBits mask).2 < 256 := by
  unfold findBits
  split
  · decide
  · exact Nat.mod_lt _ (by decide)

/-- The loads of a record whose fields were stored one after the other. -/
theorem setupScreenInfo_describes (mode : GopMode) (ram : Ram) :
    Describes (setupScreenInfo params mode ram).2.mem params (mode.info.horizontalResolution % 2 ^ 16)
      (mode.info.verticalResolution % 2 ^ 16) (depthOf mode.info) (lineBytes mode.info % 2 ^ 16)
      ((lineBytes mode.info % 2 ^ 16) * (mode.info.verticalResolution % 2 ^ 16)) := by
  have red := findBits_byte mode.info.redMask
  have green := findBits_byte mode.info.greenMask
  have blue := findBits_byte mode.info.blueMask
  have reserved := findBits_byte mode.info.reservedMask
  have word : 256 ^ 1 = 256 := rfl
  have half : 256 ^ 2 = 2 ^ 16 := rfl
  have full : 256 ^ 4 = 2 ^ 32 := rfl
  have sum : ((findBits mode.info.redMask).2 % 256 + (findBits mode.info.greenMask).2 % 256 +
      (findBits mode.info.blueMask).2 % 256 + (findBits mode.info.reservedMask).2 % 256) % 2 ^ 16 =
        (findBits mode.info.redMask).2 + ((findBits mode.info.greenMask).2 +
          ((findBits mode.info.blueMask).2 + ((findBits mode.info.reservedMask).2 + 0))) := by omega
  have area (line height : Nat) : line % 2 ^ 16 * (height % 2 ^ 16) % 2 ^ 32 = line % 2 ^ 16 * (height % 2 ^ 16) := by
    have positive := Nat.two_pow_pos 16
    have small := Nat.mul_lt_mul'' (Nat.mod_lt line positive) (Nat.mod_lt height positive)
    exact Nat.mod_eq_of_lt (lt_of_lt_of_eq small (by norm_num))
  by_cases masked : mode.info.pixelFormat = pixelBitMask <;>
    by_cases above : (mode.frameBufferBase >>> 32) % 256 ^ Params.extLfbBase.width = 0
  all_goals
    simp (disch := decide) only [setupScreenInfo, setupMaskedFormat, setupByteFormat, storeChannel, loadField,
      storeField, bind_apply, modifyState_apply, readState_apply, Field.get_set_other, Field.get_set_same, masked,
      above, ↓reduceIte, ne_eq, not_true_eq_false, not_false_eq_true]
    constructor <;>
      simp (disch := decide) only [Field.get_set_other, Field.get_set_same, masked, ↓reduceIte, depthOf, lineBytes,
        channelMasks, List.map_cons, List.map_nil, List.sum_cons, List.sum_nil] <;>
      simp only [Params.redSize, Params.greenSize, Params.blueSize, Params.rsvdSize, Params.lfbDepth,
        Params.lfbLinelength, Params.lfbSize, Params.lfbWidth, Params.lfbHeight, word, half, full, sum, area] <;>
      rfl
end Fields

/-! ### The masks of a pixel -/

section Masks
variable {pos size : Nat}

theorem ffs_run (some : 0 < size) (small : (2 ^ size - 1) <<< pos < 2 ^ 32) :
    ffs ((2 ^ size - 1) <<< pos) = pos := by
  have bounded := run_bounded some small
  have first : (List.range 32).find? (fun i => ((2 ^ size - 1) <<< pos).testBit i) = Option.some pos := by
    refine List.find?_range_eq_some.mpr ⟨?_, List.mem_range.mpr (by omega), fun i early => ?_⟩
    · rw [run_testBit]
      exact decide_eq_true ⟨Nat.le_refl pos, by omega⟩
    · rw [run_testBit, decide_eq_false (by omega)]
      rfl
  unfold ffs
  rw [first]
  rfl

/-- The span from the first to the last bit of a run, as one byte. -/
theorem span_run (some : 0 < size) (small : (2 ^ size - 1) <<< pos < 2 ^ 32) :
    u8 (fls ((2 ^ size - 1) <<< pos) - ffs ((2 ^ size - 1) <<< pos) + 1) = size := by
  have bounded := run_bounded some small
  rw [ffs_run some small, fls, log2_run some]
  have length : pos + size - 1 - pos + 1 = size := by omega
  rw [length]
  exact Nat.mod_eq_of_lt (by omega)

theorem run_present (some : 0 < size) : (2 ^ size - 1) <<< pos ≠ 0 := by
  intro none
  have set := run_testBit pos size pos
  rw [none, Nat.zero_testBit, decide_eq_true (by omega)] at set
  exact Bool.noConfusion set

theorem findBits_run (some : 0 < size) (small : (2 ^ size - 1) <<< pos < 2 ^ 32) :
    findBits ((2 ^ size - 1) <<< pos) = (pos, size) := by
  have bounded := run_bounded some small
  unfold findBits
  have place : u8 pos = pos := Nat.mod_eq_of_lt (by omega)
  rw [if_neg (run_present some), span_run some small, ffs_run some small, place]

end Masks

theorem findBits_exact {mask : Nat} (small : mask < 2 ^ 32) (run : Run mask) :
    mask = (1 <<< (findBits mask).2 - 1) <<< (findBits mask).1 ∧
      (findBits mask).2 = (bits 32 mask).card := by
  by_cases present : mask = 0
  · subst present
    exact ⟨rfl, rfl⟩
  · obtain ⟨pos, size, some, rfl⟩ := run.positive present
    rw [findBits_run some small, card_bits_run small, Nat.one_shiftLeft]
    exact ⟨rfl, rfl⟩

/-- What the masks of a pixel promise: each is a run of 32 bits, and no two share one. -/
structure MasksSound (info : ModeInfo) : Prop where
  small : ∀ mask ∈ channelMasks info, mask < 2 ^ 32
  runs : ∀ mask ∈ channelMasks info, Run mask
  apart : (channelMasks info).Pairwise fun left right => left &&& right = 0

def allMasks (info : ModeInfo) : Nat :=
  info.redMask ||| info.greenMask ||| info.blueMask ||| info.reservedMask

section Depth
variable {info : ModeInfo}

/-- The four sizes add up to the number of bits that have a meaning. -/
theorem sizes_sum (sound : MasksSound info) :
    ((channelMasks info).map fun mask => (findBits mask).2).sum = (bits 32 (allMasks info)).card := by
  obtain ⟨small, runs, apart⟩ := sound
  simp only [channelMasks, List.forall_mem_cons, List.not_mem_nil, false_implies, implies_true, and_true,
    List.pairwise_cons, List.Pairwise.nil] at small runs apart
  obtain ⟨smallRed, smallGreen, smallBlue, smallReserved⟩ := small
  obtain ⟨red, green, blue, reserved⟩ := runs
  obtain ⟨⟨redGreen, redBlue, redReserved⟩, ⟨greenBlue, greenReserved⟩, blueReserved⟩ := apart
  have third := and_or_zero redBlue greenBlue
  have fourth := and_or_zero (and_or_zero redReserved greenReserved) blueReserved
  have total := card_bits_or 32 fourth
  rw [card_bits_or 32 third, card_bits_or 32 redGreen] at total
  simp only [channelMasks, List.map_cons, List.map_nil, List.sum_cons, List.sum_nil,
    (findBits_exact smallRed red).2, (findBits_exact smallGreen green).2, (findBits_exact smallBlue blue).2,
    (findBits_exact smallReserved reserved).2, allMasks, total]
  omega

theorem allMasks_small (small : ∀ mask ∈ channelMasks info, mask < 2 ^ 32) : allMasks info < 2 ^ 32 := by
  simp only [channelMasks, List.forall_mem_cons, List.not_mem_nil, false_implies, implies_true, and_true] at small
  obtain ⟨red, green, blue, reserved⟩ := small
  exact Nat.or_lt_two_pow (Nat.or_lt_two_pow (Nat.or_lt_two_pow red green) blue) reserved

theorem allMasks_eq_zero : allMasks info = 0 ↔ ∀ mask ∈ channelMasks info, mask = 0 := by
  simp [allMasks, channelMasks, Nat.or_eq_zero_iff, and_assoc]

/-- The span of the union is as long as the union has bits, when there is no gap. -/
theorem pixelBpp_bits (masked : info.pixelFormat = pixelBitMask) (small : allMasks info < 2 ^ 32)
    (whole : Run (allMasks info)) : pixelBpp info = (bits 32 (allMasks info)).card := by
  have same : info.redMask ||| info.greenMask ||| info.blueMask ||| info.reservedMask = allMasks info := rfl
  unfold pixelBpp
  rw [if_pos masked]
  dsimp only
  rw [same]
  by_cases present : allMasks info = 0
  · rw [if_pos present, present]
    rfl
  · rw [if_neg present]
    obtain ⟨pos, size, some, run⟩ := whole.positive present
    rw [run] at small ⊢
    rw [span_run some small, card_bits_run small]

/-- The depth handed to the kernel is the one that the mode was matched with. -/
theorem depths_agree (params : Nat) (mode : GopMode) (ram : Ram) (masked : mode.info.pixelFormat = pixelBitMask)
    (sound : MasksSound mode.info) (whole : Run (allMasks mode.info)) :
    (∀ mask ∈ channelMasks mode.info, mask = (1 <<< (findBits mask).2 - 1) <<< (findBits mask).1) ∧
      Params.lfbDepth.get (setupScreenInfo params mode ram).2.mem params = pixelBpp mode.info ∧
      (pixelBpp mode.info = 0 ↔ ∀ mask ∈ channelMasks mode.info, mask = 0) := by
  have small := allMasks_small sound.small
  have span := pixelBpp_bits masked small whole
  refine ⟨fun mask member => (findBits_exact (sound.small mask member) (sound.runs mask member)).1, ?_, ?_⟩
  · rw [(setupScreenInfo_describes mode ram).depth, depthOf, if_pos masked, sizes_sum sound, span]
  · rw [span, Finset.card_eq_zero, bits_eq_empty small, allMasks_eq_zero]

end Depth

/-! A display of 32-bit pixels, and one with a line of 64 KiB. -/

def packedInfo (width : Nat) : ModeInfo :=
  ⟨width, 768, pixelBitMask, 0xFF0000, 0xFF00, 0xFF, 0xFF000000, width⟩

theorem packedInfo_sound (width : Nat) : MasksSound (packedInfo width) where
  small := by
    simp only [channelMasks, packedInfo]
    decide
  runs := by
    simp only [channelMasks, packedInfo, List.forall_mem_cons, List.not_mem_nil, false_implies, implies_true, and_true]
    exact ⟨⟨16, 8, rfl⟩, ⟨8, 8, rfl⟩, ⟨0, 8, rfl⟩, 24, 8, rfl⟩
  apart := by
    simp only [channelMasks, packedInfo]
    decide

theorem packed_depths_agree :
    Params.lfbDepth.get (setupScreenInfo 0x1000 ⟨1, 0, packedInfo 1024, 0⟩ ⟨fun _ => 0, []⟩).2.mem 0x1000 =
      pixelBpp (packedInfo 1024) :=
  (depths_agree 0x1000 ⟨1, 0, packedInfo 1024, 0⟩ ⟨fun _ => 0, []⟩ rfl (packedInfo_sound 1024) ⟨0, 32, rfl⟩).2.1

/-! ### The framebuffer as it is -/

def bitsPerPixel (info : ModeInfo) : Nat :=
  if info.pixelFormat = pixelBitMask then (bits 32 (allMasks info)).card else 32

def lineBits (info : ModeInfo) : Nat := info.pixelsPerScanLine * bitsPerPixel info

/-- The mode with lines of so many bytes, nothing cut off. -/
structure Exact (memory : Memory) (params : Nat) (info : ModeInfo) (bytes : Nat) : Prop where
  width : Params.lfbWidth.get memory params = info.horizontalResolution
  height : Params.lfbHeight.get memory params = info.verticalResolution
  line : Params.lfbLinelength.get memory params = bytes
  size : Params.lfbSize.get memory params = bytes * info.verticalResolution

/-- The mode fits the 16-bit fields. -/
structure Fits (info : ModeInfo) : Prop where
  width : info.horizontalResolution < 2 ^ 16
  height : info.verticalResolution < 2 ^ 16
  line : lineBits info / 8 < 2 ^ 16

theorem lineBytes_whole {info : ModeInfo} (masks : info.pixelFormat = pixelBitMask → MasksSound info)
    (fits : lineBits info / 8 < 2 ^ 16) : lineBytes info = lineBits info / 8 := by
  unfold lineBits bitsPerPixel at fits ⊢
  unfold lineBytes
  by_cases masked : info.pixelFormat = pixelBitMask
  · rw [if_pos masked] at fits ⊢
    rw [if_pos masked, depthOf, if_pos masked, sizes_sum (masks masked)]
    congr 1
    exact Nat.mod_eq_of_lt (by omega)
  · rw [if_neg masked] at fits ⊢
    rw [if_neg masked]
    have small : u32 (info.pixelsPerScanLine * 4) = info.pixelsPerScanLine * 4 := Nat.mod_eq_of_lt (by omega)
    omega

/-- Nothing is cut off exactly when the fields are wide enough, and a line is a whole
number of bytes. -/
theorem screen_info_exact_iff (params : Nat) (mode : GopMode) (ram : Ram)
    (masks : mode.info.pixelFormat = pixelBitMask → MasksSound mode.info) :
    (Exact (setupScreenInfo params mode ram).2.mem params mode.info (lineBits mode.info / 8) ↔ Fits mode.info) ∧
      ((∃ bytes, 8 * bytes = lineBits mode.info ∧
          Exact (setupScreenInfo params mode ram).2.mem params mode.info bytes) ↔
        Fits mode.info ∧ 8 ∣ lineBits mode.info) := by
  obtain ⟨width, height, -, line, size⟩ := @setupScreenInfo_describes params mode ram
  -- the fields of the page have 16 bits: a value is exact if and only if it fits
  have whole : Exact (setupScreenInfo params mode ram).2.mem params mode.info (lineBits mode.info / 8) ↔
      Fits mode.info := by
    constructor
    · intro holds
      have positive := Nat.two_pow_pos 16
      exact
        { width := by
            rw [← holds.width, width]
            exact Nat.mod_lt _ positive
          height := by
            rw [← holds.height, height]
            exact Nat.mod_lt _ positive
          line := by
            rw [← holds.line, line]
            exact Nat.mod_lt _ positive }
    · intro fits
      have same := lineBytes_whole masks fits.line
      rw [same, Nat.mod_eq_of_lt fits.line] at line size
      rw [Nat.mod_eq_of_lt fits.height] at height size
      exact ⟨width.trans (Nat.mod_eq_of_lt fits.width), height, line, size⟩
  refine ⟨whole, ?_⟩
  constructor
  · rintro ⟨bytes, exactly, holds⟩
    have quotient : lineBits mode.info / 8 = bytes := by omega
    exact ⟨whole.mp (quotient.symm ▸ holds), bytes, exactly.symm⟩
  · rintro ⟨fits, bytes, exactly⟩
    have quotient : lineBits mode.info / 8 = bytes := by omega
    exact ⟨bytes, exactly.symm, quotient ▸ whole.mpr fits⟩

def EveryModeExact : Prop :=
  ∀ (params : Nat) (mode : GopMode) (ram : Ram), hasFramebuffer mode.info = true →
    (mode.info.pixelFormat = pixelBitMask → MasksSound mode.info) →
      Exact (setupScreenInfo params mode ram).2.mem params mode.info (lineBits mode.info / 8)

theorem long_line_cut_off : ¬ EveryModeExact := by
  intro every
  have holds := every 0x1000 ⟨1, 0, packedInfo 16384, 0⟩ ⟨fun _ => 0, []⟩ rfl fun _ => packedInfo_sound 16384
  have line := holds.line
  rw [(setupScreenInfo_describes _ _).line] at line
  revert line
  decide

theorem short_line_exact :
    Exact (setupScreenInfo 0x1000 ⟨1, 0, packedInfo 1024, 0⟩ ⟨fun _ => 0, []⟩).2.mem 0x1000 (packedInfo 1024)
      (lineBits (packedInfo 1024) / 8) :=
  (screen_info_exact_iff 0x1000 ⟨1, 0, packedInfo 1024, 0⟩ ⟨fun _ => 0, []⟩ fun _ => packedInfo_sound 1024).1.mpr
    ⟨by decide, by decide, by decide⟩

end Wboot.ScreenInfo
