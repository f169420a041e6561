import AipuDriver.Umd.GraphParser

/-!
# What a graph binary describes

`GraphDescr` is the description of a graph by itself: sections with their sub-sections, and
sub-sections with the offsets in rodata where their addresses go.  A file describes such a graph
through the counts in its descriptors (`graphAt`), whether or not its descriptors are within the
bounds of a section, and the description says what the graph info of the graph is
(`GraphDescr.info`).

The parser refines the description (`parseBssSection_overflow`, `parseBssSection_pass`): it goes
through the descriptors of `graphAt`, in order and up to the first one that its check refuses, and
when it succeeds, the graph info is the one of the description.
-/

namespace Aipu

open ByteReader

/-! ## Descriptions -/

/-- A sub-section and the offsets in rodata where its address goes. -/
structure SubSectionDescr where
  offsetInSection : UInt32
  size : UInt32
  type : UInt32
  id : UInt32
  dtype : UInt32
  layout : UInt32
  shape : TensorShape
  addrMask : UInt32
  roOffsets : List UInt32
deriving DecidableEq, Repr

/-- A static section. -/
structure StaticSectionDescr where
  offsetInFile : UInt32
  size : UInt32
  alignBytes : UInt32
  subSections : List SubSectionDescr
deriving DecidableEq, Repr

/-- A reuse section. -/
structure ReuseSectionDescr where
  size : UInt32
  alignBytes : UInt32
  subSections : List SubSectionDescr
deriving DecidableEq, Repr

/-- A graph; the nodes are those of its linked list of descriptors. -/
structure GraphDescr where
  stackSize : UInt32
  stackAlignBytes : UInt32
  staticSections : List StaticSectionDescr
  reuseSections : List ReuseSectionDescr
  nodes : List ListNodeDesc
deriving DecidableEq, Repr

/-- The descriptor of a sub-section. -/
def SubSectionDescr.desc (d : SubSectionDescr) : SubSectionDescV3 where
  offsetInSectionExec := d.offsetInSection
  size := d.size
  type := d.type
  id := d.id
  dtype := d.dtype
  layout := d.layout
  shape := d.shape
  addrMask := d.addrMask
  offsetInRoCnt := .ofNat d.roOffsets.length

/-- The descriptor of a static section. -/
def StaticSectionDescr.desc (d : StaticSectionDescr) : StaticSectionDescV3 where
  offsetInFile := d.offsetInFile
  size := d.size
  alignBytes := d.alignBytes
  subSectionCnt := .ofNat d.subSections.length

/-- The descriptor of a reuse section. -/
def ReuseSectionDescr.desc (d : ReuseSectionDescr) : ReuseSectionDescV3 where
  size := d.size
  alignBytes := d.alignBytes
  subSectionCnt := .ofNat d.subSections.length

/-- The bss header of a graph. -/
def GraphDescr.header (d : GraphDescr) : BssHdrV3 where
  stackSize := d.stackSize
  stackAlignBytes := d.stackAlignBytes
  staticSectionDescCnt := .ofNat d.staticSections.length
  reuseSectionDescCnt := .ofNat d.reuseSections.length

/-! ## Lengths of the descriptors -/

/-- The lengths of the records of a sub-section: its descriptor and its rodata offsets. -/
def SubSectionDescr.lens (d : SubSectionDescr) : List ℕ :=
  subSectionDescV3Size :: d.roOffsets.flatMap fun _ => [4]

/-- The lengths of the records of a static section. -/
def StaticSectionDescr.lens (d : StaticSectionDescr) : List ℕ :=
  staticSectionDescV3Size :: d.subSections.flatMap SubSectionDescr.lens

/-- The lengths of the records of a reuse section. -/
def ReuseSectionDescr.lens (d : ReuseSectionDescr) : List ℕ :=
  reuseSectionDescV3Size :: d.subSections.flatMap SubSectionDescr.lens

/-- The lengths of the records of the sections of a graph. -/
def GraphDescr.sectionLens (d : GraphDescr) : List ℕ :=
  d.staticSections.flatMap StaticSectionDescr.lens ++ d.reuseSections.flatMap ReuseSectionDescr.lens

/-- The lengths of the records behind the bss header, up to the linked list descriptor, if there is
one. -/
def GraphDescr.lens (d : GraphDescr) (linked : Bool) : List ℕ :=
  d.sectionLens ++ if linked then [linkedListDescSize] else []

/-! ## The description in a file -/

section File

variable (mem : Memory)

/-- The sub-section at an address. -/
def subSectionAt (p : ℕ) : SubSectionDescr :=
  let sub := SubSectionDescV3.load mem p
  { offsetInSection := sub.offsetInSectionExec, size := sub.size, type := sub.type, id := sub.id
    dtype := sub.dtype, layout := sub.layout, shape := sub.shape, addrMask := sub.addrMask
    roOffsets := itemsAt mem.word (fun _ => [4]) sub.offsetInRoCnt.toNat
      (p + subSectionDescV3Size) }

/-- The static section at an address. -/
def staticSectionAt (p : ℕ) : StaticSectionDescr :=
  let desc := StaticSectionDescV3.load mem p
  { offsetInFile := desc.offsetInFile, size := desc.size, alignBytes := desc.alignBytes
    subSections := itemsAt (subSectionAt mem) SubSectionDescr.lens desc.subSectionCnt.toNat
      (p + staticSectionDescV3Size) }

/-- The reuse section at an address. -/
def reuseSectionAt (p : ℕ) : ReuseSectionDescr :=
  let desc := ReuseSectionDescV3.load mem p
  { size := desc.size, alignBytes := desc.alignBytes
    subSections := itemsAt (subSectionAt mem) SubSectionDescr.lens desc.subSectionCnt.toNat
      (p + reuseSectionDescV3Size) }

/-- The graph whose bss header is at an address; `linked` says whether a linked list follows. -/
def graphAt (linked : Bool) (p : ℕ) : GraphDescr :=
  let header := BssHdrV3.load mem p
  let staticSections := itemsAt (staticSectionAt mem) StaticSectionDescr.lens
    header.staticSectionDescCnt.toNat (p + bssHdrV3Size)
  let q := p + bssHdrV3Size + (staticSections.flatMap StaticSectionDescr.lens).sum
  let reuseSections := itemsAt (reuseSectionAt mem) ReuseSectionDescr.lens
    header.reuseSectionDescCnt.toNat q
  let r := q + (reuseSections.flatMap ReuseSectionDescr.lens).sum
  { stackSize := header.stackSize, stackAlignBytes := header.stackAlignBytes
    staticSections := staticSections, reuseSections := reuseSections
    nodes := if linked then itemsAt (ListNodeDesc.load mem) (fun _ => [listNodeDescSize])
        (mem.word r).toNat (r + linkedListDescSize)
      else [] }

variable {mem} {p : ℕ}

/-- The descriptor in the file is the descriptor of what is there. -/
theorem subSectionAt_desc : (subSectionAt mem p).desc = SubSectionDescV3.load mem p := by
  simp [subSectionAt, SubSectionDescr.desc, length_itemsAt]

/-- The bss header in the file is the one of the graph that is there. -/
theorem graphAt_header {linked : Bool} : (graphAt mem linked p).header = BssHdrV3.load mem p := by
  simp [graphAt, GraphDescr.header, length_itemsAt]

end File

/-! ## The graph info of a description -/

/-- What descriptors add to a graph info. -/
structure Found where
  staticSections : List SectionDesc := []
  reuseSections : List SectionDesc := []
  inputs : List IoTensorDesc := []
  outputs : List IoTensorDesc := []
  interDumps : List IoTensorDesc := []
  pdata : List IoTensorDesc := []
  plogData : List IoTensorDesc := []
  paramMap : List ParamMapLoadDesc := []
deriving DecidableEq

/-- What one part of a description adds, and then another part. -/
def Found.append (x y : Found) : Found where
  staticSections := x.staticSections ++ y.staticSections
  reuseSections := x.reuseSections ++ y.reuseSections
  inputs := x.inputs ++ y.inputs
  outputs := x.outputs ++ y.outputs
  interDumps := x.interDumps ++ y.interDumps
  pdata := x.pdata ++ y.pdata
  plogData := x.plogData ++ y.plogData
  paramMap := x.paramMap ++ y.paramMap

/-- What the parts of a list add, in order. -/
def Found.concat (l : List Found) : Found := l.foldr Found.append {}

/-- A graph info with what was found. -/
def GraphInfo.add (info : GraphInfo) (x : Found) : GraphInfo :=
  { info with
    pbufTempl := { info.pbufTempl with
      staticSections := info.pbufTempl.staticSections ++ x.staticSections }
    tbufTempl := { info.tbufTempl with
      reuseSections := info.tbufTempl.reuseSections ++ x.reuseSections }
    inputs := info.inputs ++ x.inputs
    outputs := info.outputs ++ x.outputs
    interDumps := info.interDumps ++ x.interDumps
    pdata := info.pdata ++ x.pdata
    plogData := info.plogData ++ x.plogData
    paramMap := info.paramMap ++ x.paramMap }

/-- Adding nothing. -/
@[simp] theorem GraphInfo.add_empty (info : GraphInfo) : info.add {} = info := by
  simp [GraphInfo.add]

/-- Adding one part and then another one. -/
theorem GraphInfo.add_add (info : GraphInfo) (x y : Found) :
    (info.add x).add y = info.add (x.append y) := by
  simp [GraphInfo.add, Found.append]

/-- A list of parts that starts with `x`. -/
@[simp] theorem Found.concat_cons (x : Found) (l : List Found) :
    Found.concat (x :: l) = x.append (Found.concat l) := rfl

/-- The entry of the parameter map for a rodata offset of a sub-section. -/
def SubSectionDescr.entry (d : SubSectionDescr) (loadType : ParamMapLoadType)
    (secIter subSecIter : ℕ) (offset : UInt32) : ParamMapLoadDesc where
  offsetInMap := offset
  loadType := loadType
  refSectionIter := .ofNat secIter
  refSubSectionIter := .ofNat subSecIter
  subSectionOffset := d.offsetInSection
  addrMask := d.addrMask

/-- The entries of the parameter map for a sub-section. -/
def SubSectionDescr.entries (d : SubSectionDescr) (loadType : ParamMapLoadType)
    (secIter subSecIter : ℕ) : List ParamMapLoadDesc :=
  d.roOffsets.map (d.entry loadType secIter subSecIter)

/-- The tensor of a sub-section of a reuse section if it is of the type, and nothing otherwise. -/
def SubSectionDescr.tensors (d : SubSectionDescr) (type : UInt32) (reuseSecIter : ℕ) :
    List IoTensorDesc :=
  if d.type = type then [d.desc.ioTensor reuseSecIter] else []

/-- What the tensor of a sub-section of a reuse section adds. -/
def SubSectionDescr.tensorFound (d : SubSectionDescr) (reuseSecIter : ℕ) : Found where
  inputs := d.tensors sectionTypeInput reuseSecIter
  outputs := d.tensors sectionTypeOutput reuseSecIter
  interDumps := d.tensors sectionTypeInterDump reuseSecIter
  pdata := d.tensors sectionTypeProfData reuseSecIter
  plogData := d.tensors sectionTypePlogData reuseSecIter

/-- The section of a static section descriptor. -/
def StaticSectionDescr.sectionDesc (d : StaticSectionDescr) (dataSrc : ℕ) : SectionDesc where
  loadSrc := dataSrc + d.offsetInFile.toNat
  size := d.size
  alignInPage := alignAddr d.alignBytes
  subSections := d.subSections.map (·.offsetInSection)

/-- The section of a reuse section descriptor. -/
def ReuseSectionDescr.sectionDesc (d : ReuseSectionDescr) : SectionDesc where
  loadSrc := 0
  size := d.size
  alignInPage := alignAddr d.alignBytes
  subSections := d.subSections.map (·.offsetInSection)

/-- What a static section adds. -/
def StaticSectionDescr.found (d : StaticSectionDescr) (dataSrc secIter : ℕ) : Found :=
  (Found.concat (d.subSections.mapIdx fun j sub =>
    { paramMap := sub.entries .static secIter j })).append
      { staticSections := [d.sectionDesc dataSrc] }

/-- What a reuse section adds. -/
def ReuseSectionDescr.found (d : ReuseSectionDescr) (secIter : ℕ) : Found :=
  (Found.concat (d.subSections.mapIdx fun j sub =>
    (sub.tensorFound secIter).append { paramMap := sub.entries .reuse secIter j })).append
      { reuseSections := [d.sectionDesc] }

/-- What all sections add. -/
def GraphDescr.found (d : GraphDescr) (dataSrc : ℕ) : Found :=
  (Found.concat (d.staticSections.mapIdx fun i sec => sec.found dataSrc i)).append
    (Found.concat (d.reuseSections.mapIdx fun i sec => sec.found i))

/-- The graph info with the stack of a graph. -/
def GraphInfo.withStack (info : GraphInfo) (stackSize stackAlignBytes : UInt32) : GraphInfo :=
  { info with tbufTempl := { info.tbufTempl with
    stackSize := stackSize, stackAlignInPage := alignAddr stackAlignBytes } }

/-- The graph info with the sections and nodes of a graph, before the tensors are sorted. -/
def GraphDescr.unsorted (d : GraphDescr) (info : GraphInfo) : GraphInfo :=
  let info := (info.withStack d.stackSize d.stackAlignBytes).add (d.found info.pbufTempl.dataSrc)
  { info with dcrMap := info.dcrMap ++ d.nodes }

/-! ## The parser goes through the descriptors -/

section Walk

variable {mem : Memory} {loadLb loadUb p : ℕ}

/-- A descriptor is read if it ends below the upper bound. -/
theorem loadDesc_walks {α : Type} {size : ℕ} {load : ℕ → α} (hp : loadLb ≤ p) :
    Walks (loadDesc loadLb loadUb size load) loadUb .errorInvalidGbin p [size] (load p) := by
  refine Walks.loadIf ?_
  simp [umdIsValidPtr, hp]

/-- Adding entries of the parameter map. -/
theorem GraphInfo.add_paramMap (info : GraphInfo) (l : List ParamMapLoadDesc) :
    info.add { paramMap := l } = { info with paramMap := info.paramMap ++ l } := by
  simp [GraphInfo.add]

/-- A loop that adds what its items add. -/
theorem foldlIdx_add {β : Type} (found : ℕ → ℕ → β → Found) (info : GraphInfo) (xs : List β)
    (i : ℕ) :
    xs.foldlIdx (fun i info x => info.add (found info.pbufTempl.dataSrc i x)) info i =
      info.add (Found.concat (xs.mapIdx fun j x => found info.pbufTempl.dataSrc (j + i) x)) := by
  induction xs generalizing info i with
  | nil => exact info.add_empty.symm
  | cons x xs ih =>
    rw [List.foldlIdx_cons, ih, GraphInfo.add_add, List.mapIdx_cons, Found.concat_cons]
    simp only [Nat.zero_add, Nat.add_assoc, Nat.add_comm 1]
    rfl

/-- The loop over rodata offsets adds their entries of the parameter map. -/
theorem parseRoEntries_walks (loadType : ParamMapLoadType) (secIter subSecIter : ℕ)
    (info : GraphInfo) (hp : loadLb ≤ p) :
    Walks (parseRoEntries mem loadLb loadUb loadType secIter subSecIter
        (SubSectionDescV3.load mem p) info) loadUb .errorInvalidGbin (p + subSectionDescV3Size)
      ((subSectionAt mem p).roOffsets.flatMap fun _ => [4])
      (info.add { paramMap := (subSectionAt mem p).entries loadType secIter subSecIter }) := by
  have hloop : ∀ (entry : UInt32 → ParamMapLoadDesc) (xs : List UInt32) (info : GraphInfo) (i : ℕ),
      xs.foldlIdx (fun _ info x => { info with paramMap := info.paramMap ++ [entry x] }) info i =
        info.add { paramMap := xs.map entry } := by
    intro entry xs
    induction xs with
    | nil => exact fun info _ => info.add_empty.symm
    | cons x xs ih =>
      intro info i
      rw [List.foldlIdx_cons, ih, ← GraphInfo.add_paramMap, GraphInfo.add_add]
      rfl
  rw [SubSectionDescr.entries, ← hloop _ _ _ 0]
  refine Walks.iterate ?_ _ 0 info (Nat.le_add_right_of_le hp)
  intro i info q hq
  exact (loadDesc_walks hq).bind Walks.pure

/-- The loop over sub-sections adds what the sub-sections add, and lists their offsets. -/
theorem parseSubSections_walks (loadType : ParamMapLoadType)
    (fill : SubSectionDescV3 → GraphInfo → GraphInfo) (tensorFound : SubSectionDescr → Found)
    (hfill : ∀ (d : SubSectionDescr) (info : GraphInfo),
      fill d.desc info = info.add (tensorFound d))
    (secIter : ℕ) (cnt : UInt32) (info : GraphInfo) (sectionIr : SectionDesc) (hp : loadLb ≤ p)
    {subs : List SubSectionDescr}
    (hsubs : subs = itemsAt (subSectionAt mem) SubSectionDescr.lens cnt.toNat p) :
    Walks (parseSubSections mem loadLb loadUb loadType fill secIter cnt info sectionIr) loadUb
      .errorInvalidGbin p (subs.flatMap SubSectionDescr.lens)
      (info.add (Found.concat (subs.mapIdx fun j d =>
          (tensorFound d).append { paramMap := d.entries loadType secIter j })),
        { sectionIr with
          subSections := sectionIr.subSections ++ subs.map (·.offsetInSection) }) := by
  have hloop : ∀ (xs : List SubSectionDescr) (info : GraphInfo) (sectionIr : SectionDesc) (j : ℕ),
      xs.foldlIdx (fun j s d => (s.1.add ((tensorFound d).append
          { paramMap := d.entries loadType secIter j }),
        { s.2 with subSections := s.2.subSections ++ [d.offsetInSection] })) (info, sectionIr) j =
        (info.add (Found.concat (xs.mapIdx fun i d =>
            (tensorFound d).append { paramMap := d.entries loadType secIter (i + j) })),
          { sectionIr with
            subSections := sectionIr.subSections ++ xs.map (·.offsetInSection) }) := by
    intro xs
    induction xs with
    | nil =>
      intro info sectionIr j
      simp [Found.concat]
    | cons d xs ih =>
      intro info sectionIr j
      rw [List.foldlIdx_cons, ih, GraphInfo.add_add]
      simp [Nat.add_assoc, Nat.add_comm 1]
  have hstart := hloop subs info sectionIr 0
  simp only [Nat.add_zero] at hstart
  rw [← hstart, hsubs]
  refine Walks.iterate ?_ cnt.toNat 0 (info, sectionIr) hp
  intro j s q hq
  refine (loadDesc_walks hq).bind ?_
  rw [← subSectionAt_desc]
  simp only [hfill]
  have hentries := @parseRoEntries_walks mem loadLb loadUb _ loadType secIter j
    (s.1.add (tensorFound (subSectionAt mem q))) hq
  rw [← subSectionAt_desc, GraphInfo.add_add] at hentries
  have hrest := hentries.bind (f := fun info => pure (info,
    { s.2 with subSections := s.2.subSections ++ [(subSectionAt mem q).offsetInSection] }))
    Walks.pure
  rw [List.append_nil] at hrest
  exact hrest

/-- A static sub-section adds no tensor. -/
theorem append_empty_left (x : Found) : Found.append {} x = x := by
  simp [Found.append]

/-- The loop over static sections adds what the sections add. -/
theorem parseStaticSections_walks (cnt : UInt32) (info : GraphInfo) (hp : loadLb ≤ p)
    {secs : List StaticSectionDescr}
    (hsecs : secs = itemsAt (staticSectionAt mem) StaticSectionDescr.lens cnt.toNat p) :
    Walks (parseStaticSections mem loadLb loadUb cnt info) loadUb .errorInvalidGbin p
      (secs.flatMap StaticSectionDescr.lens)
      (info.add (Found.concat
        (secs.mapIdx fun i sec => sec.found info.pbufTempl.dataSrc i))) := by
  have hloop := foldlIdx_add (fun dataSrc i (sec : StaticSectionDescr) => sec.found dataSrc i) info
    secs 0
  simp only [Nat.add_zero] at hloop
  rw [← hloop, hsecs]
  refine Walks.iterate ?_ cnt.toNat 0 info hp
  intro i info q hq
  refine (loadDesc_walks hq).bind ?_
  have hsubs := @parseSubSections_walks mem loadLb loadUb _ .static (fun _ info => info)
    (fun _ => {}) (fun _ info => info.add_empty.symm) i
      (StaticSectionDescV3.load mem q).subSectionCnt
    info {} (Nat.le_add_right_of_le hq : loadLb ≤ q + [staticSectionDescV3Size].sum) _ rfl
  simp only [append_empty_left] at hsubs
  have hrest := hsubs.bind (f := fun s => pure { s.1 with pbufTempl := { s.1.pbufTempl with
    staticSections := s.1.pbufTempl.staticSections ++ [{ s.2 with
      size := (StaticSectionDescV3.load mem q).size
      alignInPage := alignAddr (StaticSectionDescV3.load mem q).alignBytes
      loadSrc := s.1.pbufTempl.dataSrc + (StaticSectionDescV3.load mem q).offsetInFile.toNat }] } })
    Walks.pure
  rw [List.append_nil] at hrest
  rw [StaticSectionDescr.found, ← GraphInfo.add_add]
  have hadd : ∀ (info : GraphInfo) (sec : SectionDesc), info.add { staticSections := [sec] } =
      { info with pbufTempl := { info.pbufTempl with
        staticSections := info.pbufTempl.staticSections ++ [sec] } } := by
    intro info sec
    simp [GraphInfo.add]
  rw [hadd]
  exact hrest

/-- The tensor of a sub-section of a reuse section goes where its type says. -/
theorem fillReuseSubSection_eq (i : ℕ) (d : SubSectionDescr) (info : GraphInfo) :
    fillReuseSubSection i d.desc info = info.add (d.tensorFound i) := by
  have htype : d.desc.type = d.type := rfl
  unfold fillReuseSubSection fillIoTensorDescInner SubSectionDescr.tensorFound
    SubSectionDescr.tensors GraphInfo.add
  rw [htype]
  by_cases hin : d.type = sectionTypeInput
  · simp [hin, sectionTypeInput, sectionTypeOutput, sectionTypeInterDump, sectionTypeProfData,
      sectionTypePlogData]
  by_cases hout : d.type = sectionTypeOutput
  · simp [hout, sectionTypeInput, sectionTypeOutput, sectionTypeInterDump, sectionTypeProfData,
      sectionTypePlogData]
  by_cases hdump : d.type = sectionTypeInterDump
  · simp [hdump, sectionTypeInput, sectionTypeOutput, sectionTypeInterDump, sectionTypeProfData,
      sectionTypePlogData]
  by_cases hprof : d.type = sectionTypeProfData
  · simp [hprof, sectionTypeInput, sectionTypeOutput, sectionTypeInterDump, sectionTypeProfData,
      sectionTypePlogData]
  by_cases hplog : d.type = sectionTypePlogData
  · simp [hplog, sectionTypeInput, sectionTypeOutput, sectionTypeInterDump, sectionTypeProfData,
      sectionTypePlogData]
  · simp [hin, hout, hdump, hprof, hplog]

/-- The loop over reuse sections adds what the sections add. -/
theorem parseReuseSections_walks (cnt : UInt32) (info : GraphInfo) (hp : loadLb ≤ p)
    {secs : List ReuseSectionDescr}
    (hsecs : secs = itemsAt (reuseSectionAt mem) ReuseSectionDescr.lens cnt.toNat p) :
    Walks (parseReuseSections mem loadLb loadUb cnt info) loadUb .errorInvalidGbin p
      (secs.flatMap ReuseSectionDescr.lens)
      (info.add (Found.concat (secs.mapIdx fun i sec => sec.found i))) := by
  have hloop := foldlIdx_add (fun _ i (sec : ReuseSectionDescr) => sec.found i) info secs 0
  simp only [Nat.add_zero] at hloop
  rw [← hloop, hsecs]
  refine Walks.iterate ?_ cnt.toNat 0 info hp
  intro i info q hq
  refine (loadDesc_walks hq).bind ?_
  have hsubs := @parseSubSections_walks mem loadLb loadUb _ .reuse
    (fillReuseSubSection i) (fun d => d.tensorFound i) (fillReuseSubSection_eq i) i
    (ReuseSectionDescV3.load mem q).subSectionCnt info {}
    (Nat.le_add_right_of_le hq : loadLb ≤ q + [reuseSectionDescV3Size].sum) _ rfl
  have hrest := hsubs.bind (f := fun s => pure { s.1 with tbufTempl := { s.1.tbufTempl with
    reuseSections := s.1.tbufTempl.reuseSections ++ [{ s.2 with
      loadSrc := 0
      alignInPage := alignAddr (ReuseSectionDescV3.load mem q).alignBytes
      size := (ReuseSectionDescV3.load mem q).size }] } })
    Walks.pure
  rw [List.append_nil] at hrest
  rw [ReuseSectionDescr.found, ← GraphInfo.add_add]
  have hadd : ∀ (info : GraphInfo) (sec : SectionDesc), info.add { reuseSections := [sec] } =
      { info with tbufTempl := { info.tbufTempl with
        reuseSections := info.tbufTempl.reuseSections ++ [sec] } } := by
    intro info sec
    simp [GraphInfo.add]
  rw [hadd]
  exact hrest

end Walk

/-! ## The bss section -/

/-- A linked list of descriptors follows the sections. -/
def GraphInfo.linked (info : GraphInfo) : Bool :=
  gversionMinor info.version = aipuLoadableGraphV0004 ∧ info.linkedListFlag ≠ 0

/-- The parser goes on behind the bss header. -/
def BssHdrV3.Ok (header : BssHdrV3) : Prop :=
  header.stackSize ≠ 0 ∧ header.stackAlignBytes ≠ 0 ∧ header.reuseSectionDescCnt ≠ 0

instance : DecidablePred BssHdrV3.Ok := fun _ => inferInstanceAs (Decidable (_ ∧ _))

/-- The graph info of a description. -/
def GraphDescr.info (d : GraphDescr) (info : GraphInfo) : GraphInfo :=
  sortIoTensors (d.unsorted info)

section Bss

variable {mem : Memory} {info : GraphInfo} {bssSize : UInt32} {p : ℕ}

/-- The loops over sections, behind the bss header. -/
def parseSections (mem : Memory) (info : GraphInfo) (loadUb : ℕ) : Reader AipuStatus GraphInfo := do
  let info' ← parseStaticSections mem info.bssSrc loadUb
    (BssHdrV3.load mem info.bssSrc).staticSectionDescCnt
    (info.withStack (BssHdrV3.load mem info.bssSrc).stackSize
      (BssHdrV3.load mem info.bssSrc).stackAlignBytes)
  parseReuseSections mem info.bssSrc loadUb
    (BssHdrV3.load mem info.bssSrc).reuseSectionDescCnt info'

/-- The loops over sections go through the sections of the graph in the file. -/
theorem parseSections_walks (loadUb : ℕ) :
    Walks (parseSections mem info loadUb) loadUb .errorInvalidGbin (info.bssSrc + bssHdrV3Size)
      (graphAt mem info.linked info.bssSrc).sectionLens
      ((info.withStack (BssHdrV3.load mem info.bssSrc).stackSize
        (BssHdrV3.load mem info.bssSrc).stackAlignBytes).add
          ((graphAt mem info.linked info.bssSrc).found info.pbufTempl.dataSrc)) := by
  have hlb : info.bssSrc ≤ info.bssSrc + bssHdrV3Size := Nat.le_add_right _ _
  have hstatic := @parseStaticSections_walks mem _ loadUb _
    (BssHdrV3.load mem info.bssSrc).staticSectionDescCnt
    (info.withStack (BssHdrV3.load mem info.bssSrc).stackSize
      (BssHdrV3.load mem info.bssSrc).stackAlignBytes) hlb
    (graphAt mem info.linked info.bssSrc).staticSections rfl
  rw [GraphDescr.found, ← GraphInfo.add_add]
  refine hstatic.bind ?_
  exact parseReuseSections_walks _ _ (Nat.le_add_right_of_le hlb) rfl

/-- The checked part of `parse_bss_section` ends with the linked list descriptor. -/
def parseNodeCnt (mem : Memory) (loadLb loadUb : ℕ) (info : GraphInfo) :
    Reader AipuStatus (GraphInfo × UInt32) :=
  if info.linked then do
    let nodeCnt ← loadDesc loadLb loadUb linkedListDescSize mem.word
    pure (info, nodeCnt)
  else pure (info, 0)

/-- Its unchecked part copies the nodes. -/
def parseNodes (mem : Memory) (s : GraphInfo × UInt32) : Reader AipuStatus GraphInfo :=
  if s.1.linked then
    if s.2 = 0 then Reader.fail .errorInvalidGbin
    else
      Reader.iterate (fun _ info => do
        let node ← Reader.load listNodeDescSize (ListNodeDesc.load mem)
        pure { info with dcrMap := info.dcrMap ++ [node] }) s.2.toNat 0 s.1
  else pure s.1

/-- The linked list is parsed in these two parts. -/
theorem parseLinkedList_eq (loadLb loadUb : ℕ) (info : GraphInfo) :
    parseLinkedList mem loadLb loadUb info =
      parseNodeCnt mem loadLb loadUb info >>= parseNodes mem := by
  unfold parseLinkedList parseNodeCnt
  by_cases hlinked : info.linked = true
  · have hcond : gversionMinor info.version = aipuLoadableGraphV0004 ∧ info.linkedListFlag ≠ 0 := by
      simpa [GraphInfo.linked] using hlinked
    rw [if_pos hcond, if_pos hlinked, Reader.bind_assoc]
    simp only [Reader.pure_bind, parseNodes, if_pos hlinked]
  · have hcond :
        ¬(gversionMinor info.version = aipuLoadableGraphV0004 ∧ info.linkedListFlag ≠ 0) := by
      simpa [GraphInfo.linked] using hlinked
    rw [if_neg hcond, if_neg hlinked, Reader.pure_bind]
    simp only [parseNodes, if_neg hlinked]

/-- The checked part of `parse_bss_section` behind the bss header. -/
def parseRecords (mem : Memory) (info : GraphInfo) (loadUb : ℕ) :
    Reader AipuStatus (GraphInfo × UInt32) :=
  parseSections mem info loadUb >>= parseNodeCnt mem info.bssSrc loadUb

/-- The graph info before the nodes, with the number of nodes. -/
def recordsFound (mem : Memory) (info : GraphInfo) : GraphInfo × UInt32 :=
  let d := graphAt mem info.linked info.bssSrc
  ((info.withStack d.stackSize d.stackAlignBytes).add (d.found info.pbufTempl.dataSrc),
    if info.linked then mem.word (info.bssSrc + bssHdrV3Size + d.sectionLens.sum) else 0)

/-- The checked part goes through the records of the graph in the file. -/
theorem parseRecords_walks (loadUb : ℕ) :
    Walks (parseRecords mem info loadUb) loadUb .errorInvalidGbin (info.bssSrc + bssHdrV3Size)
      ((graphAt mem info.linked info.bssSrc).lens info.linked) (recordsFound mem info) := by
  have hlb : info.bssSrc ≤ info.bssSrc + bssHdrV3Size +
      (graphAt mem info.linked info.bssSrc).sectionLens.sum := by omega
  refine (parseSections_walks loadUb).bind ?_
  have hlinked : ∀ x stack align, ((info.withStack stack align).add x).linked = info.linked :=
    fun _ _ _ => rfl
  unfold parseNodeCnt
  rw [hlinked, recordsFound]
  cases info.linked with
  | false => exact Walks.pure
  | true => exact (loadDesc_walks hlb).bind Walks.pure

/-- The nodes of a graph in the file follow the linked list descriptor. -/
theorem graphAt_nodes (mem : Memory) (p : ℕ) :
    (graphAt mem true p).nodes = itemsAt (ListNodeDesc.load mem) (fun _ => [listNodeDescSize])
      (mem.word (p + bssHdrV3Size + (graphAt mem true p).sectionLens.sum)).toNat
      (p + bssHdrV3Size + ((graphAt mem true p).lens true).sum) := by
  simp [graphAt, GraphDescr.sectionLens, GraphDescr.lens, Nat.add_assoc]

/-- The nodes are copied without a check. -/
theorem parseNodes_run (q : ℕ)
    (hq : q = info.bssSrc + bssHdrV3Size +
      ((graphAt mem info.linked info.bssSrc).lens info.linked).sum) :
    (parseNodes mem (recordsFound mem info) q).value =
        (if info.linked = true ∧ (graphAt mem info.linked info.bssSrc).nodes = [] then
          .error .errorInvalidGbin
        else .ok ((graphAt mem info.linked info.bssSrc).unsorted info)) ∧
      (parseNodes mem (recordsFound mem info) q).reads =
        spans q ((graphAt mem info.linked info.bssSrc).nodes.map fun _ => listNodeDescSize) := by
  have hlinked : (recordsFound mem info).1.linked = info.linked := rfl
  have hpush : ∀ (xs : List ListNodeDesc) (info : GraphInfo),
      xs.foldl (fun info node => { info with dcrMap := info.dcrMap ++ [node] }) info =
        { info with dcrMap := info.dcrMap ++ xs } := by
    intro xs
    induction xs with
    | nil => simp
    | cons x xs ih => simp [ih]
  unfold parseNodes
  rw [hlinked]
  cases hinfo : info.linked with
  | false =>
    refine ⟨?_, ?_⟩
    · simp [hinfo, graphAt, recordsFound, GraphDescr.unsorted, pure, Reader.pure]
    · simp [graphAt, spans, pure, Reader.pure]
  | true =>
    rw [hinfo] at hq
    have hnodes := graphAt_nodes mem info.bssSrc
    rw [← hq] at hnodes
    have hcnt : (recordsFound mem info).2 = mem.word (info.bssSrc + bssHdrV3Size +
        (graphAt mem true info.bssSrc).sectionLens.sum) := by
      simp [recordsFound, hinfo]
    rw [← hcnt] at hnodes
    by_cases hzero : (recordsFound mem info).2 = 0
    · rw [hzero] at hnodes
      have hnil : (graphAt mem true info.bssSrc).nodes = [] := hnodes
      simp [hzero, hnil, Reader.fail, spans]
    · have hne : (graphAt mem true info.bssSrc).nodes ≠ [] := by
        intro hnil
        have hlen := length_itemsAt (ListNodeDesc.load mem) (fun _ => [listNodeDescSize])
          (recordsFound mem info).2.toNat q
        rw [← hnodes, hnil] at hlen
        exact hzero (UInt32.toNat_inj.mp hlen.symm)
      rw [if_pos rfl, if_neg hzero, Reader.iterate_load, ← hnodes, hpush]
      refine ⟨?_, rfl⟩
      rw [if_neg fun h => hne h.2]
      simp [GraphDescr.unsorted, recordsFound, hinfo]

/-- A bss header that is refused. -/
theorem parseBssSection_refused (hhdr : ¬(BssHdrV3.load mem info.bssSrc).Ok) :
    (parseBssSection mem info bssSize p).value = .error .errorInvalidGbin ∧
      (parseBssSection mem info bssSize p).reads = [(info.bssSrc, bssHdrV3Size)] := by
  have hbad : (BssHdrV3.load mem info.bssSrc).stackSize = 0 ∨
      (BssHdrV3.load mem info.bssSrc).stackAlignBytes = 0 ∨
      (BssHdrV3.load mem info.bssSrc).reuseSectionDescCnt = 0 := by
    simp only [BssHdrV3.Ok] at hhdr
    tauto
  unfold parseBssSection
  rw [Reader.seek_load_run, if_pos hbad]
  exact ⟨rfl, rfl⟩

/-- Behind a good bss header come the records and the nodes. -/
theorem parseBssSection_run (hhdr : (BssHdrV3.load mem info.bssSrc).Ok) :
    ∃ rest : Reader AipuStatus GraphInfo,
      rest = (parseRecords mem info (info.bssSrc + bssHdrV3Size + bssSize.toNat) >>= fun s =>
        parseNodes mem s >>= fun info => pure (sortIoTensors info)) ∧
      (parseBssSection mem info bssSize p).value = (rest (info.bssSrc + bssHdrV3Size)).value ∧
      (parseBssSection mem info bssSize p).reads =
        (info.bssSrc, bssHdrV3Size) :: (rest (info.bssSrc + bssHdrV3Size)).reads := by
  have hbad : ¬((BssHdrV3.load mem info.bssSrc).stackSize = 0 ∨
      (BssHdrV3.load mem info.bssSrc).stackAlignBytes = 0 ∨
      (BssHdrV3.load mem info.bssSrc).reuseSectionDescCnt = 0) := by
    simp only [BssHdrV3.Ok] at hhdr
    tauto
  refine ⟨_, rfl, ?_⟩
  unfold parseBssSection
  rw [Reader.seek_load_run, if_neg hbad, parseRecords, parseSections]
  simp only [parseLinkedList_eq, Reader.bind_assoc]
  exact ⟨rfl, rfl⟩

/-- **The parser and the description, the check fails.**  The records up to the first one that does
not end below the bound are read. -/
theorem parseBssSection_overflow (hhdr : (BssHdrV3.load mem info.bssSrc).Ok)
    (hfail : ∃ r ∈ spans (info.bssSrc + bssHdrV3Size)
      ((graphAt mem info.linked info.bssSrc).lens info.linked),
        below (info.bssSrc + bssHdrV3Size + bssSize.toNat) r = false) :
    (parseBssSection mem info bssSize p).value = .error .errorInvalidGbin ∧
      (parseBssSection mem info bssSize p).reads = (info.bssSrc, bssHdrV3Size) ::
        (spans (info.bssSrc + bssHdrV3Size)
          ((graphAt mem info.linked info.bssSrc).lens info.linked)).takeWhile
            (below (info.bssSrc + bssHdrV3Size + bssSize.toNat)) := by
  obtain ⟨rest, rfl, hvalue, hreads⟩ := @parseBssSection_run mem info bssSize p hhdr
  obtain ⟨hrest, htake⟩ := (parseRecords_walks _).run_fail (f := fun s =>
    parseNodes mem s >>= fun info => pure (sortIoTensors info)) hfail
  rw [hvalue, hreads, hrest, htake]
  exact ⟨rfl, rfl⟩

/-- **The parser and the description, all checks pass.**  All records and nodes are read, and the
graph info is the one of the description, unless a linked list has no node. -/
theorem parseBssSection_pass (hhdr : (BssHdrV3.load mem info.bssSrc).Ok)
    (hpass : ∀ r ∈ spans (info.bssSrc + bssHdrV3Size)
      ((graphAt mem info.linked info.bssSrc).lens info.linked),
        below (info.bssSrc + bssHdrV3Size + bssSize.toNat) r = true) :
    (parseBssSection mem info bssSize p).value =
        (if info.linked = true ∧ (graphAt mem info.linked info.bssSrc).nodes = [] then
          .error .errorInvalidGbin
        else .ok ((graphAt mem info.linked info.bssSrc).info info)) ∧
      (parseBssSection mem info bssSize p).reads = (info.bssSrc, bssHdrV3Size) ::
        (spans (info.bssSrc + bssHdrV3Size)
            ((graphAt mem info.linked info.bssSrc).lens info.linked) ++
          spans (info.bssSrc + bssHdrV3Size +
              ((graphAt mem info.linked info.bssSrc).lens info.linked).sum)
            ((graphAt mem info.linked info.bssSrc).nodes.map fun _ => listNodeDescSize)) := by
  obtain ⟨rest, rfl, hvalue, hreads⟩ := @parseBssSection_run mem info bssSize p hhdr
  obtain ⟨hnodes, hnodeReads⟩ := @parseNodes_run mem info _ rfl
  have hrun := (parseRecords_walks _).run_pass (f := fun s =>
    parseNodes mem s >>= fun info => pure (sortIoTensors info)) hpass
  rw [hvalue, hreads, hrun]
  have hsort : ∀ (x : Reader AipuStatus GraphInfo) (q : ℕ),
      ((x >>= fun info => pure (sortIoTensors info)) q).value = (x q).value.map sortIoTensors ∧
        ((x >>= fun info => pure (sortIoTensors info)) q).reads = (x q).reads := by
    intro x q
    change (Reader.bind x (fun info => Reader.pure (sortIoTensors info)) q).value = _ ∧
      (Reader.bind x (fun info => Reader.pure (sortIoTensors info)) q).reads = _
    unfold Reader.bind
    rcases x q with ⟨_ | a, q', reads⟩ <;> simp [Reader.pure, Except.map]
  obtain ⟨hval, hrd⟩ := hsort (parseNodes mem (recordsFound mem info)) (info.bssSrc + bssHdrV3Size +
    ((graphAt mem info.linked info.bssSrc).lens info.linked).sum)
  refine ⟨?_, ?_⟩
  · rw [hval, hnodes]
    split <;> rfl
  · rw [hrd, hnodeReads]

/-- When `parse_bss_section` succeeds, the graph info is the one of the description. -/
theorem info_of_parseBssSection {info' : GraphInfo}
    (h : (parseBssSection mem info bssSize p).value = .ok info') :
    info' = (graphAt mem info.linked info.bssSrc).info info := by
  by_cases hok : (BssHdrV3.load mem info.bssSrc).Ok
  swap
  · rw [(parseBssSection_refused hok).1] at h
    cases h
  by_cases hpass : ∀ r ∈ spans (info.bssSrc + bssHdrV3Size)
      ((graphAt mem info.linked info.bssSrc).lens info.linked),
        below (info.bssSrc + bssHdrV3Size + bssSize.toNat) r = true
  · rw [(parseBssSection_pass hok hpass).1] at h
    split at h
    · cases h
    · exact (Except.ok.inj h).symm
  · push Not at hpass
    obtain ⟨r, hr, hbelow⟩ := hpass
    rw [(parseBssSection_overflow hok ⟨r, hr, by simpa using hbelow⟩).1] at h
    cases h

end Bss

end Aipu
