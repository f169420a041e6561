import AipuDriver.Umd.GraphFormat

/-!
# The graph parser (`context.cpp`)

`parse_graph` copies the header, checks it, and goes through the descriptors of the bss section with
a cursor.  The parser here is a reader that also tells which ranges it has read.  The two loops over
static and over reuse sections contain the same loop over sub-sections, `parseSubSections`.
-/

namespace Aipu

open ByteReader

/-! ## Tensors -/

/-- The loop of `sort_io_tensor`, at the tensor `i` of `n`. -/
def sortIoTensorFrom (n : ℕ) : ℕ → List IoTensorDesc → List IoTensorDesc →
    AipuStatus × List IoTensorDesc
  | _, [], tensors => (.success, tensors)
  | i, tensor :: rest, tensors =>
    if n ≤ tensor.id.toNat then (.errorInvalidGbin, tensors)
    else sortIoTensorFrom n (i + 1) rest
      (if tensor.id.toNat ≠ i then tensors.set tensor.id.toNat tensor else tensors)

/-- `sort_io_tensor` -/
def sortIoTensor (tensors : List IoTensorDesc) : AipuStatus × List IoTensorDesc :=
  sortIoTensorFrom tensors.length 0 tensors tensors

/-- The tensor that `fill_io_tensor_desc_inner` makes of a sub-section. -/
def SubSectionDescV3.ioTensor (sub : SubSectionDescV3) (reuseSecIter : ℕ) : IoTensorDesc where
  id := sub.id
  refSectionIter := .ofNat reuseSecIter
  offsetInSection := sub.offsetInSectionExec
  size := sub.size
  fmt := { layout := sub.layout, shape := sub.shape, dataType := sub.dtype - 1 }

/-- `fill_io_tensor_desc_inner` -/
def fillIoTensorDescInner (reuseSecIter : ℕ) (sub : SubSectionDescV3) (info : GraphInfo) :
    GraphInfo :=
  let ioDesc := sub.ioTensor reuseSecIter
  if sub.type = sectionTypeInput then { info with inputs := info.inputs ++ [ioDesc] }
  else if sub.type = sectionTypeOutput then { info with outputs := info.outputs ++ [ioDesc] }
  else if sub.type = sectionTypeInterDump then
    { info with interDumps := info.interDumps ++ [ioDesc] }
  else if sub.type = sectionTypeProfData then { info with pdata := info.pdata ++ [ioDesc] }
  else if sub.type = sectionTypePlogData then { info with plogData := info.plogData ++ [ioDesc] }
  else info

/-- A sub-section of a reuse section may represent a tensor. -/
def fillReuseSubSection (reuseSecIter : ℕ) (sub : SubSectionDescV3) (info : GraphInfo) :
    GraphInfo :=
  if sub.type = sectionTypeInput ∨ sub.type = sectionTypeOutput ∨
      sub.type = sectionTypeInterDump ∨ sub.type = sectionTypeProfData ∨
      sub.type = sectionTypePlogData then
    fillIoTensorDescInner reuseSecIter sub info
  else info

/-! ## Descriptors -/

/-- `umd_is_valid_ptr` -/
def umdIsValidPtr (lowerBound upperBound ptr size : ℕ) : Bool :=
  decide (ptr ≥ lowerBound) && decide (ptr + size < upperBound)

section Parser

variable (mem : Memory) (loadLb loadUb : ℕ)

/-- `memcpy` of the next descriptor if it is within the bounds, and otherwise `goto overflow`. -/
def loadDesc {α : Type} (size : ℕ) (load : ℕ → α) : Reader AipuStatus α :=
  Reader.loadIf (umdIsValidPtr loadLb loadUb) .errorInvalidGbin size load

/-- The loop over the rodata offsets of a sub-section. -/
def parseRoEntries (loadType : ParamMapLoadType) (secIter subSecIter : ℕ) (sub : SubSectionDescV3)
    (info : GraphInfo) : Reader AipuStatus GraphInfo :=
  Reader.iterate (fun _ info => do
    let offsetInRo ← loadDesc loadLb loadUb 4 mem.word
    pure { info with paramMap := info.paramMap ++ [{
      offsetInMap := offsetInRo, loadType := loadType, refSectionIter := .ofNat secIter
      refSubSectionIter := .ofNat subSecIter, subSectionOffset := sub.offsetInSectionExec
      addrMask := sub.addrMask }] }) sub.offsetInRoCnt.toNat 0 info

/-- The loop over the sub-sections of a section; `fill` is what it does to `info` for a sub-section
apart from the parameter map. -/
def parseSubSections (loadType : ParamMapLoadType)
    (fill : SubSectionDescV3 → GraphInfo → GraphInfo) (secIter : ℕ) (subSectionCnt : UInt32)
    (info : GraphInfo) (sectionIr : SectionDesc) : Reader AipuStatus (GraphInfo × SectionDesc) :=
  Reader.iterate (fun subSecIter s => do
    let sub ← loadDesc loadLb loadUb subSectionDescV3Size (SubSectionDescV3.load mem)
    let info := fill sub s.1
    let sectionIr := { s.2 with subSections := s.2.subSections ++ [sub.offsetInSectionExec] }
    let info ← parseRoEntries mem loadLb loadUb loadType secIter subSecIter sub info
    pure (info, sectionIr)) subSectionCnt.toNat 0 (info, sectionIr)

/-- The loop over the static sections. -/
def parseStaticSections (cnt : UInt32) (info : GraphInfo) : Reader AipuStatus GraphInfo :=
  Reader.iterate (fun staticSecIter info => do
    let desc ← loadDesc loadLb loadUb staticSectionDescV3Size (StaticSectionDescV3.load mem)
    let (info, sectionIr) ← parseSubSections mem loadLb loadUb .static (fun _ info => info)
      staticSecIter desc.subSectionCnt info {}
    let sectionIr := { sectionIr with
      size := desc.size, alignInPage := alignAddr desc.alignBytes
      loadSrc := info.pbufTempl.dataSrc + desc.offsetInFile.toNat }
    pure { info with pbufTempl := { info.pbufTempl with
      staticSections := info.pbufTempl.staticSections ++ [sectionIr] } }) cnt.toNat 0 info

/-- The loop over the reuse sections. -/
def parseReuseSections (cnt : UInt32) (info : GraphInfo) : Reader AipuStatus GraphInfo :=
  Reader.iterate (fun reuseSecIter info => do
    let desc ← loadDesc loadLb loadUb reuseSectionDescV3Size (ReuseSectionDescV3.load mem)
    let (info, sectionIr) ← parseSubSections mem loadLb loadUb .reuse
      (fillReuseSubSection reuseSecIter) reuseSecIter desc.subSectionCnt info {}
    let sectionIr := { sectionIr with
      loadSrc := 0, alignInPage := alignAddr desc.alignBytes, size := desc.size }
    pure { info with tbufTempl := { info.tbufTempl with
      reuseSections := info.tbufTempl.reuseSections ++ [sectionIr] } }) cnt.toNat 0 info

/-- The linked list descriptor and its nodes; the nodes are copied without a check. -/
def parseLinkedList (info : GraphInfo) : Reader AipuStatus GraphInfo :=
  if gversionMinor info.version = aipuLoadableGraphV0004 ∧ info.linkedListFlag ≠ 0 then do
    let nodeCnt ← loadDesc loadLb loadUb linkedListDescSize mem.word
    if nodeCnt = 0 then Reader.fail .errorInvalidGbin
    else
      Reader.iterate (fun _ info => do
        let node ← Reader.load listNodeDescSize (ListNodeDesc.load mem)
        pure { info with dcrMap := info.dcrMap ++ [node] }) nodeCnt.toNat 0 info
  else pure info

end Parser

/-- The end of `parse_bss_section`: a failure of `sort_io_tensor` ends it with success, too. -/
def sortIoTensors (info : GraphInfo) : GraphInfo :=
  match sortIoTensor info.outputs with
  | (.success, outputs) =>
    { info with outputs := outputs, inputs := (sortIoTensor info.inputs).2 }
  | (_, outputs) => { info with outputs := outputs }

/-- `parse_bss_section` -/
def parseBssSection (mem : Memory) (info : GraphInfo) (bssSize : UInt32) :
    Reader AipuStatus GraphInfo := do
  let loadLb := info.bssSrc
  let loadUb := info.bssSrc + bssHdrV3Size + bssSize.toNat
  Reader.seek info.bssSrc
  let bssHeader ← Reader.load bssHdrV3Size (BssHdrV3.load mem)
  if bssHeader.stackSize = 0 ∨ bssHeader.stackAlignBytes = 0 ∨
      bssHeader.reuseSectionDescCnt = 0 then
    Reader.fail .errorInvalidGbin
  else
    let info := { info with tbufTempl := { info.tbufTempl with
      stackSize := bssHeader.stackSize, stackAlignInPage := alignAddr bssHeader.stackAlignBytes } }
    let info ← parseStaticSections mem loadLb loadUb bssHeader.staticSectionDescCnt info
    let info ← parseReuseSections mem loadLb loadUb bssHeader.reuseSectionDescCnt info
    let info ← parseLinkedList mem loadLb loadUb info
    pure (sortIoTensors info)

/-! ## The header -/

/-- The checks of `parse_graph_header`, in order. -/
def BinHdr.check (header : BinHdr) (size : UInt32) : Except AipuStatus Unit :=
  -- `strcmp` compares up to the first zero byte
  if header.ident.takeWhile (· ≠ 0) ≠ magic then .error .errorInvalidGbin
  else if size < header.filesize then .error .errorInvalidGbin
  else if gversionMinor header.version ≠ aipuLoadableGraphV0003 ∧
      gversionMinor header.version ≠ aipuLoadableGraphV0004 then .error .errorGversionUnsupported
  else if header.hdrsize ≠ binHdrSize then .error .errorInvalidGbin
  else if header.entry ≥ header.textSize then .error .errorInvalidGbin
  else if header.textOffset < binHdrSize ∨
      header.textOffset + header.textSize > header.rodataOffset ∨ header.textSize = 0 then
    .error .errorInvalidGbin
  else if header.rodataOffset + header.rodataSize > header.dataOffset ∨ header.rodataSize = 0 then
    .error .errorInvalidGbin
  else if header.dataOffset + header.dataSize > header.bssOffset then .error .errorInvalidGbin
  else if header.bssOffset + header.bssSize > header.filesize ∨ header.bssSize = 0 then
    .error .errorInvalidGbin
  else .ok ()

/-- What `parse_graph_header` makes of a header that passes the checks. -/
def BinHdr.info (header : BinHdr) (graph : ℕ) (size : UInt32) : GraphInfo where
  gbin := graph
  gbinSize := size
  device := header.device
  version := header.version
  buildVersion := header.buildVersion
  entry := header.entry
  asidFlag := getAsidFlag header.flag
  bssSrc := graph + header.bssOffset.toNat
  pbufTempl := {
    textSrc := graph + header.textOffset.toNat, textSize := header.textSize
    dataSrc := graph + header.dataOffset.toNat, dataSize := header.dataSize }
  tbufTempl := {
    rodataSrc := graph + header.rodataOffset.toNat, rodataSize := header.rodataSize
    dcrSrc := if header.dcrSize ≠ 0 then graph + header.dcrOffset.toNat else 0
    dcrSize := header.dcrSize }
  linkedListFlag :=
    if gversionMinor header.version = aipuLoadableGraphV0004 then
      getLinkedListFlag header.flag else 0

/-- `parse_graph_header`: the graph info and the size of the bss section. -/
def parseGraphHeader (mem : Memory) (graph : ℕ) (size : UInt32) :
    Reader AipuStatus (GraphInfo × UInt32) := do
  Reader.seek graph
  let header ← Reader.load binHdrSize.toNat (BinHdr.load mem)
  match header.check size with
  | .error e => Reader.fail e
  | .ok () => pure (header.info graph size, header.bssSize)

/-! ## The graph -/

/-- What `parse_graph` reads of the context: the device, as `DeviceCtrl` knows it, and the runtime
configuration. -/
structure ParserConfig where
  aipuArch : UInt32
  aipuVersion : UInt32
  aipuHwConfig : UInt32
  bypassVersionCheck : Bool
deriving DecidableEq, Repr

/-- `match_target_dev` -/
def matchTargetDev (ctrl : ParserConfig) (arch version hwConfig : UInt32) : Bool :=
  arch = ctrl.aipuArch ∧ version = ctrl.aipuVersion ∧ hwConfig = ctrl.aipuHwConfig

/-- `parse_graph` for the buffer of `size` bytes at `graph`. -/
def parseGraph (ctrl : ParserConfig) (mem : Memory) (graph : ℕ) (size : UInt32) :
    Outcome AipuStatus GraphInfo :=
  let parse : Reader AipuStatus GraphInfo := do
    if graph = 0 then Reader.fail .errorNullPtr
    else if size < binHdrSize then Reader.fail .errorInvalidSize
    else
      let (info, bssSize) ← parseGraphHeader mem graph size
      if gversionMinor info.version = aipuLoadableGraphV0003 ∨
          gversionMinor info.version = aipuLoadableGraphV0004 then
        let info ← parseBssSection mem info bssSize
        if matchTargetDev ctrl (aipuArch info.device) (aipuVersion info.device)
            (aipuConfig info.device) ∨ ctrl.bypassVersionCheck then pure info
        else Reader.fail .errorTargetNotFound
      else Reader.fail .errorGversionUnsupported
  parse graph

end Aipu
