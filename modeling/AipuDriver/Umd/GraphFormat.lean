import AipuDriver.Lib.ByteReader
import AipuDriver.Umd.Interface

/-!
# Graph binaries (`graph/common.h`, `graph/graph_v0_0_0_3.h`, `graph/graph_info.h`)

The structures of a loadable graph as they lie in the file, with what `memcpy` makes of them, and
the structures that the parser fills.  The words of the file are `uint32_t`, little-endian.  Fields
of the header that no step of the parser reads (its type, the misc section, the extra data) are left
out.

Pointers are addresses.  User-space addresses are far below `2 ^ 64`, and what the parser adds to
one is far smaller, so sums of addresses are exact; sums of `uint32_t` fields wrap.
-/

namespace Aipu

open ByteReader

/-! ## Macros -/

/-- `ALIGN_PAGE` -/
def alignPageBytes (bytes : UInt32) : UInt32 := (bytes + 4096 - 1) &&& ~~~(4096 - 1)

/-- `ALIGN_ADDR` -/
def alignAddr (bytes : UInt32) : UInt32 := alignPageBytes bytes / 4096

/-- `AIPU_ARCH` -/
def aipuArch (device : UInt32) : UInt32 := device >>> 20

/-- `AIPU_VERSION` -/
def aipuVersion (device : UInt32) : UInt32 := (device >>> 16) &&& 0xF

/-- `AIPU_CONFIG` -/
def aipuConfig (device : UInt32) : UInt32 := device &&& 0xFFFF

/-- `GVERSION_MINOR` -/
def gversionMinor (gversion : UInt32) : UInt32 := gversion >>> 24

/-- `GET_ASID_FLAG` -/
def getAsidFlag (flag : UInt32) : UInt32 := flag &&& 0xF

/-- `GET_LINKED_LIST_FLAG` -/
def getLinkedListFlag (flag : UInt32) : UInt32 := (flag >>> 4) &&& 0x1

/-- `AIPU_LOADABLE_GRAPH_V0003` -/
def aipuLoadableGraphV0003 : UInt32 := 3

/-- `AIPU_LOADABLE_GRAPH_V0004` -/
def aipuLoadableGraphV0004 : UInt32 := 4

/-- `MAGIC`, the characters of `"AIPU BIN"`. -/
def magic : List UInt8 := [0x41, 0x49, 0x50, 0x55, 0x20, 0x42, 0x49, 0x4E]

/-! ## The file -/

/-- `bin_hdr_t` -/
structure BinHdr where
  ident : List UInt8
  device : UInt32
  version : UInt32
  buildVersion : UInt32
  hdrsize : UInt32
  filesize : UInt32
  flag : UInt32
  entry : UInt32
  textOffset : UInt32
  textSize : UInt32
  rodataOffset : UInt32
  rodataSize : UInt32
  dcrOffset : UInt32
  dcrSize : UInt32
  dataOffset : UInt32
  dataSize : UInt32
  bssOffset : UInt32
  bssSize : UInt32
deriving DecidableEq, Repr

/-- `BIN_HDR_SIZE` -/
def binHdrSize : UInt32 := 104

/-- The header at an address. -/
def BinHdr.load (mem : Memory) (p : ℕ) : BinHdr where
  ident := (List.range 16).map fun i => mem (p + i)
  device := mem.word (p + 16)
  version := mem.word (p + 20)
  buildVersion := mem.word (p + 24)
  hdrsize := mem.word (p + 28)
  filesize := mem.word (p + 32)
  flag := mem.word (p + 40)
  entry := mem.word (p + 44)
  textOffset := mem.word (p + 48)
  textSize := mem.word (p + 52)
  rodataOffset := mem.word (p + 56)
  rodataSize := mem.word (p + 60)
  dcrOffset := mem.word (p + 64)
  dcrSize := mem.word (p + 68)
  dataOffset := mem.word (p + 72)
  dataSize := mem.word (p + 76)
  bssOffset := mem.word (p + 80)
  bssSize := mem.word (p + 84)

/-- `bss_hdr_v3_t` -/
structure BssHdrV3 where
  stackSize : UInt32
  stackAlignBytes : UInt32
  staticSectionDescCnt : UInt32
  reuseSectionDescCnt : UInt32
deriving DecidableEq, Repr

/-- `sizeof(bss_hdr_v3_t)` -/
def bssHdrV3Size : ℕ := 16

/-- The bss header at an address. -/
def BssHdrV3.load (mem : Memory) (p : ℕ) : BssHdrV3 where
  stackSize := mem.word p
  stackAlignBytes := mem.word (p + 4)
  staticSectionDescCnt := mem.word (p + 8)
  reuseSectionDescCnt := mem.word (p + 12)

/-- `aipu_tensor_shape_t` -/
structure TensorShape where
  N : UInt32
  H : UInt32
  W : UInt32
  C : UInt32
deriving DecidableEq, Repr

/-- `sub_section_desc_v3_t` -/
structure SubSectionDescV3 where
  offsetInSectionExec : UInt32
  size : UInt32
  type : UInt32
  id : UInt32
  dtype : UInt32
  layout : UInt32
  shape : TensorShape
  addrMask : UInt32
  offsetInRoCnt : UInt32
deriving DecidableEq, Repr

/-- `sizeof(sub_section_desc_v3_t)` -/
def subSectionDescV3Size : ℕ := 48

/-- The sub-section descriptor at an address. -/
def SubSectionDescV3.load (mem : Memory) (p : ℕ) : SubSectionDescV3 where
  offsetInSectionExec := mem.word p
  size := mem.word (p + 4)
  type := mem.word (p + 8)
  id := mem.word (p + 12)
  dtype := mem.word (p + 16)
  layout := mem.word (p + 20)
  shape := ⟨mem.word (p + 24), mem.word (p + 28), mem.word (p + 32), mem.word (p + 36)⟩
  addrMask := mem.word (p + 40)
  offsetInRoCnt := mem.word (p + 44)

/-- `static_section_desc_v3_t` -/
structure StaticSectionDescV3 where
  offsetInFile : UInt32
  size : UInt32
  alignBytes : UInt32
  subSectionCnt : UInt32
deriving DecidableEq, Repr

/-- `sizeof(static_section_desc_v3_t)` -/
def staticSectionDescV3Size : ℕ := 16

/-- The static section descriptor at an address. -/
def StaticSectionDescV3.load (mem : Memory) (p : ℕ) : StaticSectionDescV3 where
  offsetInFile := mem.word p
  size := mem.word (p + 4)
  alignBytes := mem.word (p + 8)
  subSectionCnt := mem.word (p + 12)

/-- `reuse_section_desc_v3_t` -/
structure ReuseSectionDescV3 where
  size : UInt32
  alignBytes : UInt32
  subSectionCnt : UInt32
deriving DecidableEq, Repr

/-- `sizeof(reuse_section_desc_v3_t)` -/
def reuseSectionDescV3Size : ℕ := 12

/-- The reuse section descriptor at an address. -/
def ReuseSectionDescV3.load (mem : Memory) (p : ℕ) : ReuseSectionDescV3 where
  size := mem.word p
  alignBytes := mem.word (p + 4)
  subSectionCnt := mem.word (p + 8)

/-- `list_node_desc_t` and `dcr_map_load_desc_t` -/
structure ListNodeDesc where
  type : UInt32
  nextAddrEntryOffset : UInt32
  nextType : UInt32
  nextOffset : UInt32
deriving DecidableEq, Repr

/-- `sizeof(list_node_desc_t)` -/
def listNodeDescSize : ℕ := 16

/-- The list node at an address. -/
def ListNodeDesc.load (mem : Memory) (p : ℕ) : ListNodeDesc where
  type := mem.word p
  nextAddrEntryOffset := mem.word (p + 4)
  nextType := mem.word (p + 8)
  nextOffset := mem.word (p + 12)

/-- `sizeof(linked_list_desc_t)`, one word. -/
def linkedListDescSize : ℕ := 4

/-- `SECTION_TYPE_INPUT` -/
def sectionTypeInput : UInt32 := 0

/-- `SECTION_TYPE_OUTPUT` -/
def sectionTypeOutput : UInt32 := 1

/-- `SECTION_TYPE_INTER_DUMP` -/
def sectionTypeInterDump : UInt32 := 2

/-- `SECTION_TYPE_PROF_DATA` -/
def sectionTypeProfData : UInt32 := 10

/-- `SECTION_TYPE_PLOG_DATA` -/
def sectionTypePlogData : UInt32 := 12

/-! ## The results of the parser -/

/-- `param_map_load_type_t` -/
inductive ParamMapLoadType
  | reuse
  | static
deriving DecidableEq, Repr

/-- `param_map_load_desc_t` -/
structure ParamMapLoadDesc where
  offsetInMap : UInt32
  loadType : ParamMapLoadType
  refSectionIter : UInt32
  refSubSectionIter : UInt32
  subSectionOffset : UInt32
  addrMask : UInt32
deriving DecidableEq, Repr

/-- `section_desc_t`; a sub-section is its offset in the section, and the null pointer is zero. -/
structure SectionDesc where
  loadSrc : ℕ := 0
  size : UInt32 := 0
  alignInPage : UInt32 := 1
  subSections : List UInt32 := []
deriving DecidableEq, Repr

/-- `aipu_tensor_fmt_t`, with the words that the enumerations are cast from. -/
structure TensorFmt where
  layout : UInt32
  shape : TensorShape
  dataType : UInt32
deriving DecidableEq, Repr

/-- `io_tensor_desc_t` -/
structure IoTensorDesc where
  id : UInt32
  refSectionIter : UInt32
  offsetInSection : UInt32
  size : UInt32
  fmt : TensorFmt
deriving DecidableEq, Repr

/-- `pbuf_alloc_templ_t` -/
structure PbufAllocTempl where
  textSrc : ℕ := 0
  textSize : UInt32 := 0
  dataSrc : ℕ := 0
  dataSize : UInt32 := 0
  staticSections : List SectionDesc := []
deriving DecidableEq, Repr

/-- `tbuf_alloc_templ_t` -/
structure TbufAllocTempl where
  rodataSrc : ℕ := 0
  rodataSize : UInt32 := 0
  dcrSrc : ℕ := 0
  dcrSize : UInt32 := 0
  stackSize : UInt32 := 0
  stackAlignInPage : UInt32 := 0
  reuseSections : List SectionDesc := []
deriving DecidableEq, Repr

/-- `graph_info_t`, without the field `arch` that nobody sets.  The members of a fresh object that
the parser sets before it reads them are zero here. -/
structure GraphInfo where
  gbin : ℕ := 0
  gbinSize : UInt32 := 0
  device : UInt32 := 0
  version : UInt32 := 0
  buildVersion : UInt32 := 0
  entry : UInt32 := 0
  asidFlag : UInt32 := 0
  linkedListFlag : UInt32 := 0
  bssSrc : ℕ := 0
  pbufTempl : PbufAllocTempl := {}
  tbufTempl : TbufAllocTempl := {}
  inputs : List IoTensorDesc := []
  outputs : List IoTensorDesc := []
  interDumps : List IoTensorDesc := []
  pdata : List IoTensorDesc := []
  plogData : List IoTensorDesc := []
  paramMap : List ParamMapLoadDesc := []
  dcrMap : List ListNodeDesc := []
deriving DecidableEq, Repr

end Aipu
