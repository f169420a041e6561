import AipuDriver.Umd.AsidAddresses
import AipuDriver.Umd.BufferUse
import AipuDriver.Umd.GraphSources
import AipuDriver.Umd.Unload

/-!
# When `build_new_job` fails

`build_new_job` takes the thread buffer before it looks at the parameter map, and the loop over the
map leaves it at the first entry that is out of range.  The buffer then stays taken, and no job
refers to it. `failed_build_restores` says that the graph is as before if and only if the call does
not come to such an entry: there is no place for the id, the buffer is in use, or all entries are in
range.

For a graph that the parser has accepted, the sections of the entries exist
(`parsed_sections_exist`), so that only an offset behind the end of the rodata is out of range.  A
buffer that a failed call has left is lost: nobody can build on it or free it, whatever is called
afterwards (`GraphObject.Leaked.steps`).
-/

namespace Aipu

open ByteReader KeyedList Transition UnusedId Word

/-- `build_new_job` with the pointer to the place for the id. -/
def GraphObject.buildNewJobTo (g : GraphObject) (handle addr jobIdPtr : ℕ) :
    Option (AipuStatus × GraphObject × Option ℕ × List HostWrite) :=
  if jobIdPtr = 0 then some (.errorNullPtr, g, none, []) else g.buildNewJob handle addr

/-- The graph when a buffer of it is taken. -/
def GraphObject.taken (g : GraphObject) (handle : ℕ) : GraphObject :=
  { g with tbufs := adjust g.tbufs handle fun tbuf => { tbuf with isFree := false } }

/-! ## The property -/

/-- The jobs, the queue of the scheduled ones, and which buffers are free are the same. -/
structure GraphObject.SameUse (g g' : GraphObject) : Prop where
  jobs : g'.jobs = g.jobs
  sched : g'.sched = g.sched
  isFree : ∀ handle, (g'.getTbufPtr handle).map (·.isFree) = (g.getTbufPtr handle).map (·.isFree)

/-- When `build_new_job` returns an error, the graph is as before the call. -/
def GraphObject.FailureRestores (g : GraphObject) (handle addr jobIdPtr : ℕ) : Prop :=
  ∀ ret g' new writes, g.buildNewJobTo handle addr jobIdPtr = some (ret, g', new, writes) →
    ret ≠ .success → g.SameUse g'

/-- The place that an entry of the parameter map names is in the rodata, and its section exists. -/
def GraphObject.InRange (g : GraphObject) (tbuf : ThreadBufferInfo)
    (param : ParamMapLoadDesc) : Prop :=
  param.offsetInMap.toNat < tbuf.rodata.size ∧
    param.refSectionIter.toNat < (g.paramSections tbuf param.loadType).1.length

/-- If the call takes the buffer, all entries of the parameter map are in range. -/
def GraphObject.BuildSafe (g : GraphObject) (handle jobIdPtr : ℕ) : Prop :=
  jobIdPtr = 0 ∨ ∀ tbuf, g.getTbufPtr handle = some tbuf → tbuf.isFree = true →
    ∀ param ∈ g.info.paramMap, g.InRange tbuf param

section Failure

variable {g g' : GraphObject} {tbuf : ThreadBufferInfo} {handle addr jobIdPtr : ℕ}
    {ret : AipuStatus}
  {new : Option ℕ} {writes : List HostWrite}

/-- Nothing has changed. -/
theorem GraphObject.SameUse.refl (g : GraphObject) : g.SameUse g := ⟨rfl, rfl, fun _ => rfl⟩

/-- The buffers of a graph, one of which is taken. -/
theorem GraphObject.getTbufPtr_taken (i : ℕ) : (g.taken handle).getTbufPtr i =
    (g.getTbufPtr i).map fun tbuf => if i = handle then { tbuf with isFree := false }
      else tbuf := by
  rw [GraphObject.getTbufPtr, GraphObject.taken, lookup_adjust]
  rfl

/-- A section has an address iff it exists. -/
theorem GraphObject.subSecPa_eq_none {param : ParamMapLoadDesc} :
    g.subSecPa tbuf param = none ↔
      (g.paramSections tbuf param.loadType).1.length ≤ param.refSectionIter.toNat := by
  rw [GraphObject.subSecPa, Option.map_eq_none_iff, List.getElem?_eq_none_iff]

/-- The loop comes to the end of the parameter map iff all entries are in range. -/
theorem GraphObject.patchRodata_ends {params : List ParamMapLoadDesc} :
    (g.patchRodata tbuf params).2 = true ↔ ∀ param ∈ params, g.InRange tbuf param := by
  induction params with
  | nil => simp [GraphObject.patchRodata]
  | cons param rest ih =>
    rw [GraphObject.patchRodata, List.forall_mem_cons, GraphObject.InRange]
    split_ifs with hoffset
    · exact ⟨False.elim, fun hrange => absurd hrange.1.1 (Nat.not_lt.mpr hoffset)⟩
    · split
      · rename_i hnone
        have hsec := GraphObject.subSecPa_eq_none.mp hnone
        exact ⟨fun h => absurd h Bool.false_ne_true,
          fun hrange => absurd hrange.1.2 (Nat.not_lt.mpr hsec)⟩
      · rename_i subSecPa hsome
        have hsec : ¬g.subSecPa tbuf param = none := by simp [hsome]
        rw [GraphObject.subSecPa_eq_none] at hsec
        exact ih.trans (and_iff_right ⟨Nat.not_le.mp hoffset, Nat.not_le.mp hsec⟩).symm

/-- Taking a buffer moves no section. -/
theorem GraphObject.taken_patchRodata_ends :
    ((g.taken handle).patchRodata tbuf (g.taken handle).info.paramMap).2 = true ↔
      ∀ param ∈ g.info.paramMap, g.InRange tbuf param := by
  have hsame : ∀ param, (g.taken handle).InRange tbuf param ↔ g.InRange tbuf param := by
    intro param
    unfold GraphObject.InRange GraphObject.paramSections
    cases param.loadType <;> rfl
  rw [GraphObject.patchRodata_ends]
  simp only [hsame]
  rfl

/-- A call on a free buffer: whether it succeeds depends on the entries of the parameter map
alone. -/
theorem GraphObject.buildNewJob_free (htbuf : g.getTbufPtr handle = some tbuf)
    (hfree : tbuf.isFree = true) (h : g.buildNewJob handle addr = some (ret, g', new, writes)) :
    (ret = .success ↔ ∀ param ∈ g.info.paramMap, g.InRange tbuf param) ∧
      (ret ≠ .success → g' = g.taken handle ∧ new = none) := by
  rw [GraphObject.buildNewJob, htbuf] at h
  dsimp only at h
  rw [if_pos hfree] at h
  have hends := @GraphObject.taken_patchRodata_ends g tbuf handle
  unfold GraphObject.taken at hends
  split at h
  · rename_i patches hpatch
    rw [hpatch] at hends
    obtain ⟨rfl, rfl, rfl, -⟩ : .errorInvalidSize = ret ∧ _ = g' ∧ none = new ∧ _ := by
      simpa using h
    exact ⟨iff_of_false (by decide) fun hall => absurd (hends.mpr hall) Bool.false_ne_true,
      fun _ => ⟨rfl, rfl⟩⟩
  · rename_i patches hpatch
    rw [hpatch] at hends
    split at h
    · cases h
    · obtain ⟨rfl, -⟩ := Prod.mk.inj (Option.some.inj h)
      exact ⟨iff_of_true rfl (hends.mp rfl), fun hne => absurd rfl hne⟩

/-- A call that takes no buffer. -/
theorem GraphObject.buildNewJob_busy (addr : ℕ)
    (hbusy : ∀ tbuf, g.getTbufPtr handle = some tbuf → tbuf.isFree = false) :
    ∃ ret, ret ≠ .success ∧ g.buildNewJob handle addr = some (ret, g, none, []) := by
  unfold GraphObject.buildNewJob
  split
  · exact ⟨_, by decide, rfl⟩
  · rename_i tbuf htbuf
    rw [if_neg (by rw [hbusy tbuf htbuf]; exact Bool.false_ne_true)]
    exact ⟨_, by decide, rfl⟩

/-- A call that comes to an entry out of range returns, and the buffer is taken. -/
theorem GraphObject.buildNewJob_outOfRange (addr : ℕ) (htbuf : g.getTbufPtr handle = some tbuf)
    (hfree : tbuf.isFree = true) (hrange : ¬∀ param ∈ g.info.paramMap, g.InRange tbuf param) :
    ∃ ret writes, ret ≠ .success ∧
      g.buildNewJob handle addr = some (ret, g.taken handle, none, writes) := by
  cases hcall : g.buildNewJob handle addr with
  | none =>
    -- only the search for an id does not end
    have hends := mt (@GraphObject.taken_patchRodata_ends g tbuf handle).mp hrange
    rw [GraphObject.buildNewJob, htbuf] at hcall
    dsimp only at hcall
    rw [if_pos hfree] at hcall
    split at hcall
    · cases hcall
    · rename_i patches hpatch
      unfold GraphObject.taken at hends
      rw [hpatch] at hends
      exact absurd rfl hends
  | some r =>
    obtain ⟨ret, g', new, writes⟩ := r
    obtain ⟨hsuccess, hfails⟩ := GraphObject.buildNewJob_free htbuf hfree hcall
    have hret : ret ≠ .success := fun hret => hrange (hsuccess.mp hret)
    obtain ⟨rfl, rfl⟩ := hfails hret
    exact ⟨ret, writes, hret, rfl⟩

/-- **A failed `build_new_job` leaves the graph as it was** if and only if it does not take a buffer
before it comes to an entry of the parameter map that is out of range. -/
theorem failed_build_restores (g : GraphObject) (handle addr jobIdPtr : ℕ) :
    g.FailureRestores handle addr jobIdPtr ↔ g.BuildSafe handle jobIdPtr := by
  constructor
  · intro h
    by_cases hptr : jobIdPtr = 0
    · exact .inl hptr
    refine .inr fun tbuf htbuf hfree => ?_
    by_contra hrange
    obtain ⟨ret, writes, hret, hcall⟩ :=
      GraphObject.buildNewJob_outOfRange addr htbuf hfree hrange
    have hsame := h _ _ _ _ ((if_neg hptr).trans hcall) hret
    -- the buffer that was free is taken
    have htaken := hsame.isFree handle
    rw [GraphObject.getTbufPtr_taken, htbuf] at htaken
    simp [hfree] at htaken
  · intro hsafe ret g' new writes hcall hret
    rw [GraphObject.buildNewJobTo] at hcall
    split_ifs at hcall with hptr
    · obtain ⟨-, rfl, -⟩ : _ ∧ g = g' ∧ _ := by simpa using hcall
      exact .refl g
    · by_cases hbusy : ∀ tbuf, g.getTbufPtr handle = some tbuf → tbuf.isFree = false
      · obtain ⟨_, -, heq⟩ := GraphObject.buildNewJob_busy addr hbusy
        obtain ⟨-, rfl, -⟩ : _ ∧ g = g' ∧ _ := by simpa using heq.symm.trans hcall
        exact .refl g
      · push Not at hbusy
        obtain ⟨tbuf, htbuf, hfree⟩ := hbusy
        have hfree : tbuf.isFree = true := by simpa using hfree
        have hall := hsafe.resolve_left hptr tbuf htbuf hfree
        exact absurd ((GraphObject.buildNewJob_free htbuf hfree hcall).1.mpr hall) hret

/-- A file as the sample, but the entry of the parameter map is for byte 8192 of a rodata of 4
bytes. -/
def farFile : List UInt8 :=
  (sampleFile 16 64).take 212 ++ wordBytes 8192 ++ wordBytes 0

/-- The graph of this file, loaded. -/
def farObject : GraphObject :=
  { sampleObject 0 16 64 with
    info := { sampleInfo 16 64 with
      paramMap := (sampleInfo 16 64).paramMap.map fun param =>
        { param with offsetInMap := 8192 } } }

/-- The parser accepts the file, the graph is loaded, and a thread buffer is allocated; the only
build on it fails and leaves it taken. -/
theorem failed_build_takes_buffer : ∃ tr g ret g' writes,
    (parseGraph sampleZhouyiV2 (Memory.ofBytes 4096 farFile) 4096 220).value = .ok g.info ∧
      graphObjectSystem.Run anyStep tr g ∧
      g.buildNewJobTo 0x10000 0 1 = some (ret, g', none, writes) ∧ ret = .errorInvalidSize ∧
      (g.getTbufPtr 0x10000).map (·.isFree) = some true ∧
      (g'.getTbufPtr 0x10000).map (·.isFree) = some false ∧ ¬g.FailureRestores 0x10000 0 1 := by
  obtain ⟨⟨g, tr⟩, hexec, hinfo, hsample⟩ : ∃ s, graphObjectSystem.exec anyStep farObject
      [.allocThreadBuffer sampleMalloc] = some s ∧ s.1.info = farObject.info ∧
      (s.1.buildNewJobTo 0x10000 0 1).map (fun r => (r.1, r.2.2.1,
        (s.1.getTbufPtr 0x10000).map (·.isFree), (r.2.1.getTbufPtr 0x10000).map (·.isFree))) =
          some (.errorInvalidSize, none, some true, some false) :=
    ⟨_, rfl, rfl, by decide +kernel⟩
  have hloaded : farObject.Loaded :=
    ⟨1, 0, farObject.info, sampleLoad, _, rfl⟩
  obtain ⟨⟨ret, g', new, writes⟩, hcall, hsample⟩ := Option.map_eq_some_iff.mp hsample
  obtain ⟨hret, hsample⟩ := Prod.mk.inj hsample
  obtain ⟨hnew, hsample⟩ := Prod.mk.inj hsample
  obtain ⟨hbefore, hafter⟩ := Prod.mk.inj hsample
  dsimp only at hret hnew hbefore hafter hinfo hcall
  subst hret hnew
  refine ⟨tr, g, _, g', writes, ?_, System.run_of_exec hloaded hexec, hcall, rfl, hbefore, hafter,
    fun hrestores => ?_⟩
  · rw [hinfo]
    decide +kernel
  · have hsame := (hrestores _ _ _ _ hcall (by decide)).isFree 0x10000
    rw [hbefore, hafter] at hsame
    cases hsame

/-! ## The sections of an accepted graph -/

/-- A graph and its thread buffers have a buffer for each section. -/
structure GraphObject.Sectioned (g : GraphObject) : Prop where
  static : g.pbuf.staticBuf.length = (g.info.sections .static).length
  reuse : ∀ handle tbuf, g.getTbufPtr handle = some tbuf →
    tbuf.reuseBuf.length = (g.info.sections .reuse).length

/-- The entries that come from sections of a type. -/
theorem sectionEntries_refs {β : Type} {loadType : ParamMapLoadType} {sections : List β}
    {subs : β → List SubSectionDescr} {param : ParamMapLoadDesc}
    (h : param ∈ (sections.mapIdx fun i sec => sectionEntries loadType i (subs sec)).flatten) :
    param.loadType = loadType ∧ param.refSectionIter.toNat < sections.length := by
  obtain ⟨entries, hentries, h⟩ := List.mem_flatten.mp h
  obtain ⟨i, hi, rfl⟩ := List.mem_mapIdx.mp hentries
  rw [sectionEntries] at h
  obtain ⟨subEntries, hsub, h⟩ := List.mem_flatten.mp h
  obtain ⟨j, hj, rfl⟩ := List.mem_mapIdx.mp hsub
  obtain ⟨offset, -, rfl⟩ := List.mem_map.mp h
  refine ⟨rfl, ?_⟩
  -- the number of a section is a word
  have hword : (UInt32.ofNat i).toNat ≤ i := by
    rw [UInt32.toNat_ofNat']
    exact Nat.mod_le _ _
  exact Nat.lt_of_le_of_lt hword hi

/-- The reuse sections of the graph info of a description. -/
theorem GraphDescr.info_reuseSections (d : GraphDescr) (header : BinHdr) (graph : ℕ)
    (size : UInt32) : (d.info (header.info graph size)).tbufTempl.reuseSections =
      d.reuseSections.map ReuseSectionDescr.sectionDesc := by
  obtain ⟨-, htbuf⟩ := sortIoTensors_templ (d.unsorted (header.info graph size))
  rw [GraphDescr.info, htbuf, ← d.found_reuseSections (header.info graph size).pbufTempl.dataSrc]
  rfl

/-- In a graph that the parser has accepted, the sections of the entries of the parameter map
exist. -/
theorem parsed_sections_exist {ctrl : ParserConfig} {mem : Memory} {graph : ℕ} {size : UInt32}
    {info : GraphInfo} (h : (parseGraph ctrl mem graph size).value = .ok info) :
    ∀ param ∈ info.paramMap,
      param.refSectionIter.toNat < (info.sections param.loadType).length := by
  obtain ⟨-, rfl⟩ := accepted_of_parseGraph h
  set d := graphAt mem ((BinHdr.load mem graph).info graph size).linked
    ((BinHdr.load mem graph).info graph size).bssSrc
  set header := (BinHdr.load mem graph).info graph size
  have hsorted : ∀ info, (sortIoTensors info).paramMap = info.paramMap := by
    intro info
    unfold sortIoTensors
    split <;> rfl
  obtain ⟨hpbuf, -⟩ := sortIoTensors_templ (d.unsorted header)
  have hmap : (d.info header).paramMap = d.entries := by
    rw [GraphDescr.info, hsorted, ← d.found_paramMap header.pbufTempl.dataSrc]
    rfl
  have hstatic : (d.info header).sections .static =
      d.staticSections.map (·.sectionDesc header.pbufTempl.dataSrc) := by
    rw [GraphInfo.sections, GraphDescr.info, hpbuf, ← d.found_staticSections]
    rfl
  have hreuse : (d.info header).sections .reuse =
      d.reuseSections.map ReuseSectionDescr.sectionDesc :=
    d.info_reuseSections (BinHdr.load mem graph) graph size
  intro param hparam
  rw [hmap, GraphDescr.entries] at hparam
  rcases List.mem_append.mp hparam with hparam | hparam
  · obtain ⟨htype, hlt⟩ := sectionEntries_refs hparam
    rwa [htype, hstatic, List.length_map]
  · obtain ⟨htype, hlt⟩ := sectionEntries_refs hparam
    rwa [htype, hreuse, List.length_map]

/-- A graph that the parser has accepted has reuse sections. -/
theorem parsed_reuseSections {ctrl : ParserConfig} {mem : Memory} {graph : ℕ} {size : UInt32}
    {info : GraphInfo} (h : (parseGraph ctrl mem graph size).value = .ok info) :
    info.tbufTempl.reuseSections ≠ [] := by
  obtain ⟨-, bssSize, p, hbss⟩ := parseBssSection_of_parseGraph h
  have hok : (BssHdrV3.load mem ((BinHdr.load mem graph).info graph size).bssSrc).Ok := by
    by_contra hbad
    rw [(parseBssSection_refused hbad).1] at hbss
    cases hbss
  rw [info_of_parseBssSection hbss, GraphDescr.info_reuseSections, ne_eq, List.map_eq_nil_iff]
  intro hnil
  refine hok.2.2 ?_
  rw [← @graphAt_header mem _ ((BinHdr.load mem graph).info graph size).linked]
  simp [GraphDescr.header, hnil]

/-- `alloc_group_buffers` makes a buffer for each section. -/
theorem allocGroupBuffers_length {kernel : KernelMalloc} {sections : List SectionDesc} {dtype : ℕ}
    {bufs : List BufferDesc} {garbage old group : BufferDesc} {es : List BufferEvent}
    (h : allocGroupBuffers kernel sections dtype garbage old = some (.ok (bufs, group), es)) :
    bufs.length = sections.length := by
  rcases allocGroupBuffers_cases h with
    ⟨rfl, rfl, -⟩ | ⟨first, rest, offsets, totBytes, rfl, hlayout, -, rfl⟩
  · rfl
  · obtain ⟨hlength, -⟩ := groupLayout_spec (by decide) hlayout
    rw [List.length_zipWith, hlength, Nat.min_self]

/-- In every run there is a buffer for each section. -/
theorem GraphObject.sectioned {tr : List BufferEvent} (h : graphObjectSystem.Run anyStep tr g) :
    g.Sectioned := by
  refine h.stateInvariant (fun g hg => ?_) fun g a g' es hg _ hstep => ?_
  · obtain ⟨htbufs, -⟩ := hg.empty
    obtain ⟨id, shmOffset, info, kernel, es, hload⟩ := hg
    obtain ⟨_, _, _, _, _, -, -, hgroup, rfl, -⟩ := GraphObject.load_cases hload
    exact ⟨allocGroupBuffers_length hgroup, by simp [GraphObject.getTbufPtr, lookup]⟩
  · rcases graphObjectStep_places hstep with hkeep | ⟨kernel, ret, new, rfl, hcall⟩
    · refine ⟨by rw [hkeep.info, hkeep.pbuf]; exact hg.static, fun handle tbuf' htbuf' => ?_⟩
      obtain ⟨tbuf, htbuf, heq⟩ := hkeep.tbufs handle tbuf' htbuf'
      rw [hkeep.info, heq]
      exact hg.reuse handle tbuf htbuf
    · rcases GraphObject.allocThreadBuffer_cases hcall with
        ⟨rfl, -⟩ | ⟨tbuf, -, -, -, -, rfl, _, _, _, halloc, -⟩
      · exact hg
      · refine ⟨hg.static, fun handle tbuf' htbuf' => ?_⟩
        rw [GraphObject.getTbufPtr, lookup_insert] at htbuf'
        split_ifs at htbuf'
        · obtain rfl := Option.some.inj htbuf'
          exact allocGroupBuffers_length halloc.reuse
        · exact hg.reuse handle tbuf' htbuf'

/-- For a graph that the parser has accepted, only an offset behind the end of the rodata is out of
range. -/
theorem GraphObject.buildSafe_iff {ctrl : ParserConfig} {mem : Memory} {graph : ℕ} {size : UInt32}
    {tr : List BufferEvent} (hparsed : (parseGraph ctrl mem graph size).value = .ok g.info)
    (h : graphObjectSystem.Run anyStep tr g) :
    g.BuildSafe handle jobIdPtr ↔ jobIdPtr = 0 ∨ ∀ tbuf, g.getTbufPtr handle = some tbuf →
      tbuf.isFree = true →
        ∀ param ∈ g.info.paramMap, param.offsetInMap.toNat < tbuf.rodata.size := by
  have hsections := parsed_sections_exist hparsed
  obtain ⟨hstatic, hreuse⟩ := GraphObject.sectioned h
  refine or_congr_right (forall₃_congr fun tbuf htbuf _ => forall₂_congr fun param hparam =>
    and_iff_left ?_)
  have hsec := hsections param hparam
  cases htype : param.loadType with
  | reuse =>
    rw [htype, ← hreuse handle tbuf htbuf] at hsec
    exact hsec
  | static =>
    rw [htype, ← hstatic] at hsec
    exact hsec

/-! ## What a failed call leaves behind -/

/-- A thread buffer is taken, and no job refers to it. -/
structure GraphObject.Leaked (g : GraphObject) (handle : ℕ) : Prop where
  busy : ∃ tbuf, g.getTbufPtr handle = some tbuf ∧ tbuf.isFree = false
  unused : ∀ jobId job, g.getJobPtr jobId = some job → job.bufHandle ≠ handle

/-- A call that takes a buffer and fails leaves it behind. -/
theorem GraphObject.Exclusive.leaked (h : g.Exclusive) (htbuf : g.getTbufPtr handle = some tbuf)
    (hfree : tbuf.isFree = true) (hcall : g.buildNewJob handle addr = some (ret, g', new, writes))
    (hret : ret ≠ .success) : g'.Leaked handle := by
  obtain ⟨rfl, -⟩ := (GraphObject.buildNewJob_free htbuf hfree hcall).2 hret
  refine ⟨⟨_, by rw [GraphObject.getTbufPtr_taken, htbuf, Option.map_some, if_pos rfl], rfl⟩,
    fun jobId job hjob => h.bufHandle_ne htbuf hfree hjob⟩

/-- A buffer that was left behind can neither be used nor freed. -/
theorem GraphObject.Leaked.refused (h : g.Leaked handle) (oks : Oracle) :
    g.freeThreadBuffer handle oks = (.errorBusyHandle, g, []) ∧
      g.buildNewJob handle addr = some (.errorBusyHandle, g, none, []) := by
  obtain ⟨tbuf, htbuf, hbusy⟩ := h.busy
  constructor
  · rw [GraphObject.freeThreadBuffer, htbuf]
    dsimp only
    rw [hbusy, if_neg Bool.false_ne_true]
  · rw [GraphObject.buildNewJob, htbuf]
    dsimp only
    rw [hbusy, if_neg Bool.false_ne_true]

/-- New states of jobs bring no left buffer back. -/
theorem GraphObject.Leaked.setsStates (h : g.Leaked handle) (hset : g.SetsStates g') :
    g'.Leaked handle := by
  refine ⟨?_, fun jobId job' hjob' => ?_⟩
  · rw [GraphObject.getTbufPtr, hset.tbufs]
    exact h.busy
  · obtain ⟨job, hjob, hhandle⟩ := hset.jobs jobId job' hjob'
    rw [← hhandle]
    exact h.unused jobId job hjob

/-- The flag of another buffer has changed, and jobs that refer to others have come or gone. -/
theorem GraphObject.Leaked.adjust {i : ℕ} {isFree : Bool} (h : g.Leaked handle) (hi : handle ≠ i)
    (htbufs : g'.tbufs = adjust g.tbufs i fun tbuf => { tbuf with isFree := isFree })
    (hjobs : ∀ jobId job, g'.getJobPtr jobId = some job → job.bufHandle ≠ handle) :
    g'.Leaked handle := by
  obtain ⟨tbuf, htbuf, hbusy⟩ := h.busy
  refine ⟨⟨tbuf, ?_, hbusy⟩, hjobs⟩
  rw [GraphObject.getTbufPtr] at htbuf
  rw [GraphObject.getTbufPtr, htbufs, lookup_adjust, htbuf, Option.map_some, if_neg hi]

/-- A buffer that is not the one that was left behind, since it is free. -/
theorem GraphObject.Leaked.ne_free {i : ℕ} (h : g.Leaked handle)
    (htbuf : g.getTbufPtr i = some tbuf) (hfree : tbuf.isFree = true) : handle ≠ i := by
  rintro rfl
  obtain ⟨tbuf', htbuf', hbusy⟩ := h.busy
  rw [Option.some.inj (htbuf'.symm.trans htbuf), hfree] at hbusy
  cases hbusy

/-- No call finds the buffer again. -/
theorem GraphObject.Leaked.step (h : g.Leaked handle) {a : GraphCall} {es : List BufferEvent}
    (hstep : graphObjectStep g a = some (g', es)) : g'.Leaked handle := by
  cases a with
  | allocThreadBuffer kernel =>
    obtain ⟨⟨ret, g₁, new, es₁⟩, hcall, heq⟩ := Option.map_eq_some_iff.mp hstep
    obtain ⟨rfl, rfl⟩ := Prod.mk.inj heq
    rcases GraphObject.allocThreadBuffer_cases hcall with ⟨rfl, -⟩ | ⟨tbuf, -, -, hid, -, rfl, -⟩
    · exact h
    · have hunused : g.getTbufPtr tbuf.handle = none := by
        simpa using not_used_of_firstUnused (Nat.mod_lt _ (by decide)) hid
      obtain ⟨tbuf', htbuf', hbusy⟩ := h.busy
      refine ⟨⟨tbuf', ?_, hbusy⟩, h.unused⟩
      rw [GraphObject.getTbufPtr, lookup_insert, if_neg]
      · exact htbuf'
      · rintro rfl
        rw [hunused] at htbuf'
        cases htbuf'
  | freeThreadBuffer i oks =>
    have hg' : (g.freeThreadBuffer i oks).2.1 = g' := congrArg Prod.fst (Option.some.inj hstep)
    rcases g.freeThreadBuffer_cases i oks with heq | ⟨tbuf, htbuf, hfree, heq⟩
    · rwa [← hg', heq]
    · obtain ⟨tbuf', htbuf', hbusy⟩ := h.busy
      rw [← hg', heq]
      refine ⟨⟨tbuf', ?_, hbusy⟩, h.unused⟩
      rw [GraphObject.getTbufPtr, lookup_erase, if_neg (h.ne_free htbuf hfree)]
      exact htbuf'
  | buildNewJob i addr =>
    obtain ⟨⟨ret, g₁, new, writes⟩, hcall, heq⟩ := Option.map_eq_some_iff.mp hstep
    obtain ⟨rfl, rfl⟩ := Prod.mk.inj heq
    rcases GraphObject.buildNewJob_cases hcall with ⟨rfl, -⟩ | ⟨tbuf, g₂, htbuf, hfree, rfl, hg₁⟩
    · exact h
    · have hne := h.ne_free htbuf hfree
      rcases hg₁ with ⟨rfl, -⟩ | ⟨job, -, -, hhandle, -, -, rfl⟩
      · exact h.adjust hne rfl h.unused
      · refine h.adjust hne rfl fun jobId job' hjob' => ?_
        rw [GraphObject.getJobPtr, lookup_insert] at hjob'
        split_ifs at hjob'
        · obtain rfl := Option.some.inj hjob'
          rw [hhandle]
          exact hne.symm
        · exact h.unused jobId job' hjob'
  | flushJob jobId accepted =>
    obtain ⟨rfl, rfl⟩ := Prod.mk.inj (Option.some.inj hstep)
    exact h.setsStates (g.flushJob_marks jobId accepted).setsStates
  | waitForJobEnd pollOpt jobId timeOut reply =>
    obtain ⟨⟨ret, g₁⟩, hcall, heq⟩ := Option.map_eq_some_iff.mp hstep
    obtain ⟨rfl, rfl⟩ := Prod.mk.inj heq
    exact h.setsStates (GraphObject.waitForJobEnd_marks hcall).setsStates
  | pollJobStatus reply =>
    obtain ⟨rfl, rfl⟩ := Prod.mk.inj (Option.some.inj hstep)
    exact h.setsStates (g.pollJobStatus_marks reply).setsStates
  | cleanJob jobId =>
    obtain ⟨rfl, rfl⟩ := Prod.mk.inj (Option.some.inj hstep)
    rcases g.cleanJob_cases jobId with heq | ⟨job, hjob, -, -, heq⟩
    · rwa [heq]
    · have hother := h.unused jobId job hjob
      refine h.adjust hother.symm (by rw [heq]) fun i job' hjob' => ?_
      rw [heq, GraphObject.getJobPtr, lookup_erase] at hjob'
      split_ifs at hjob'
      exact h.unused i job' hjob'

/-- A buffer that was left behind is lost for good. -/
theorem GraphObject.Leaked.steps (h : g.Leaked handle) {C : GraphObject → GraphCall → Prop}
    {tr : List BufferEvent} (hsteps : graphObjectSystem.Steps C g tr g') : g'.Leaked handle := by
  induction hsteps with
  | refl => exact h
  | tail _ _ hstep ih => exact ih.step hstep

end Failure

end Aipu
