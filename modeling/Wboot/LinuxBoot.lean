import Wboot.Machine

/-! src/shared/linux.h: the packed records of the boot protocol as offsets and
widths, for the fields the loader reads or writes. `setup_header_t` is also held
by value, as the 123 bytes read from the kernel file. -/

namespace Wboot.LinuxBoot
open StateProgram ByteMemory Machine

def e820MaxEntriesZeropage : Nat := 128
def efiMmapNrSlackSlots : Nat := 32
def sizeofBootE820Entry : Nat := 20
def sizeofSetupData : Nat := 16
def sizeofSetupHeader : Nat := 123
def sizeofBootParams : Nat := 4096
def setupE820Ext : Nat := 1

/-! ### setup_header_t -/

namespace Hdr
def setupSects : Field := ⟨0, 1⟩
def rootFlags : Field := ⟨1, 2⟩
def syssize : Field := ⟨3, 4⟩
def ramSize : Field := ⟨7, 2⟩
def vidMode : Field := ⟨9, 2⟩
def rootDev : Field := ⟨11, 2⟩
def bootFlag : Field := ⟨13, 2⟩
def jump : Field := ⟨15, 2⟩
def header : Field := ⟨17, 4⟩
def version : Field := ⟨21, 2⟩
def realmodeSwtch : Field := ⟨23, 4⟩
def startSysSeg : Field := ⟨27, 2⟩
def kernelVersion : Field := ⟨29, 2⟩
def typeOfLoader : Field := ⟨31, 1⟩
def loadflags : Field := ⟨32, 1⟩
def setupMoveSize : Field := ⟨33, 2⟩
def code32Start : Field := ⟨35, 4⟩
def ramdiskImage : Field := ⟨39, 4⟩
def ramdiskSize : Field := ⟨43, 4⟩
def bootsectKludge : Field := ⟨47, 4⟩
def heapEndPtr : Field := ⟨51, 2⟩
def extLoaderVer : Field := ⟨53, 1⟩
def extLoaderType : Field := ⟨54, 1⟩
def cmdLinePtr : Field := ⟨55, 4⟩
def initrdAddrMax : Field := ⟨59, 4⟩
def kernelAlignment : Field := ⟨63, 4⟩
def relocatableKernel : Field := ⟨67, 1⟩
def minAlignment : Field := ⟨68, 1⟩
def xloadflags : Field := ⟨69, 2⟩
def cmdlineSize : Field := ⟨71, 4⟩
def hardwareSubarch : Field := ⟨75, 4⟩
def hardwareSubarchData : Field := ⟨79, 8⟩
def payloadOffset : Field := ⟨87, 4⟩
def payloadLength : Field := ⟨91, 4⟩
def setupData : Field := ⟨95, 8⟩
def prefAddress : Field := ⟨103, 8⟩
def initSize : Field := ⟨111, 4⟩
def handoverOffset : Field := ⟨115, 4⟩
def kernelInfoOffset : Field := ⟨119, 4⟩
end Hdr

structure SetupHeader where
  bytes : List UInt8
  length_eq : bytes.length = sizeofSetupHeader

def SetupHeader.get (header : SetupHeader) (field : Field) : Nat :=
  field.get (fun x => header.bytes.getD x 0) 0

/-! ### boot_params_t -/

namespace Params
def screenInfo : Nat := 0
def sizeofScreenInfo : Nat := 64
def origVideoIsVGA : Field := ⟨15, 1⟩
def lfbWidth : Field := ⟨18, 2⟩
def lfbHeight : Field := ⟨20, 2⟩
def lfbDepth : Field := ⟨22, 2⟩
def lfbBase : Field := ⟨24, 4⟩
def lfbSize : Field := ⟨28, 4⟩
def lfbLinelength : Field := ⟨36, 2⟩
def redSize : Field := ⟨38, 1⟩
def redPos : Field := ⟨39, 1⟩
def greenSize : Field := ⟨40, 1⟩
def greenPos : Field := ⟨41, 1⟩
def blueSize : Field := ⟨42, 1⟩
def bluePos : Field := ⟨43, 1⟩
def rsvdSize : Field := ⟨44, 1⟩
def rsvdPos : Field := ⟨45, 1⟩
def pages : Field := ⟨50, 2⟩
def capabilities : Field := ⟨54, 4⟩
def extLfbBase : Field := ⟨58, 4⟩
def extRamdiskImage : Field := ⟨0x0c0, 4⟩
def extRamdiskSize : Field := ⟨0x0c4, 4⟩
def extCmdLinePtr : Field := ⟨0x0c8, 4⟩
def edidInfo : Nat := 0x140
def sizeofEdidInfo : Nat := 128
def efiLoaderSignature : Field := ⟨0x1c0, 4⟩
def efiSystab : Field := ⟨0x1c4, 4⟩
def efiMemdescSize : Field := ⟨0x1c8, 4⟩
def efiMemdescVersion : Field := ⟨0x1cc, 4⟩
def efiMemmap : Field := ⟨0x1d0, 4⟩
def efiMemmapSize : Field := ⟨0x1d4, 4⟩
def efiSystabHi : Field := ⟨0x1d8, 4⟩
def efiMemmapHi : Field := ⟨0x1dc, 4⟩
def e820Entries : Field := ⟨0x1e8, 1⟩
def hdr : Nat := 0x1f1
def e820Table : Nat := 0x2d0
end Params

/-! ### boot_e820_entry_t and setup_data_t -/

namespace Entry
def addr : Field := ⟨0, 8⟩
def size : Field := ⟨8, 8⟩
def type : Field := ⟨16, 4⟩
end Entry

namespace Node
def next : Field := ⟨0, 8⟩
def type : Field := ⟨8, 4⟩
def len : Field := ⟨12, 4⟩
end Node

/-! ### EFI_MEMORY_DESCRIPTOR, as UEFI lays it out -/

namespace Desc
def type : Field := ⟨0, 4⟩
def physicalStart : Field := ⟨8, 8⟩
def numberOfPages : Field := ⟨24, 8⟩
end Desc

end Wboot.LinuxBoot
