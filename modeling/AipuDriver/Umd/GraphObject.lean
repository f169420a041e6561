import AipuDriver.Lib.KeyedList
import AipuDriver.Lib.Transition
import AipuDriver.Umd.Buffers

/-!
# Graphs with their buffers (`graph.cpp`)

`Graph` keeps of a graph what its job and buffer ids need: a buffer is its handle there, and the
handle is the key under which the buffer is stored.  Here a graph has its buffers, the maps keep
their keys beside what they store, and the calls tell which buffers they allocate and free and what
they write to memory. `GraphObject.graph` forgets all this; when the keys agree with what is stored
under them, the calls do to it what the calls of `Graph` do (`GraphObject.Keyed`).
-/

namespace Aipu

open KeyedList Transition UnusedId Word

/-! ## Data -/

/-- `tbuf_info_t` -/
structure ThreadBufferInfo where
  handle : ℕ
  isFree : Bool
  stack : BufferDesc
  rodata : BufferDesc
  descriptor : BufferDesc
  reuseBuf : List BufferDesc
  reuseGroup : BufferDesc
  iobuf : IobufInfo
deriving DecidableEq, Repr

/-- `pbuf_info_t`, without the group of texts that nobody uses. -/
structure PbufInfo where
  text : BufferDesc := {}
  staticBuf : List BufferDesc := []
  staticGroup : BufferDesc := {}
deriving DecidableEq, Repr

/-- `Graph`: the id of its descriptor, what `load` has copied of the graph, the offset that the
kernel has reported, and its buffers and jobs. -/
structure GraphObject where
  id : ℕ
  info : GraphInfo
  shmOffset : ℕ := 0
  pbuf : PbufInfo := {}
  tbufs : List (ℕ × ThreadBufferInfo) := []
  jobs : List (ℕ × JobDesc) := []
  sched : List ℕ := []
deriving DecidableEq, Repr

/-- What a call writes to the memory that it shares with the device. -/
inductive HostWrite
  /-- `load_buffer` -/
  | load (dest src bytes : ℕ)
  /-- The bits of the mask are replaced in a word. -/
  | patch (dest subSecPa addrMask : ℕ)
  | store (dest value : ℕ)
deriving DecidableEq, Repr

/-- The buffer and whether it is free. -/
def ThreadBufferInfo.info (tbuf : ThreadBufferInfo) : TbufInfo where
  handle := tbuf.handle
  isFree := tbuf.isFree

/-- `get_tbuf_ptr` -/
def GraphObject.getTbufPtr (g : GraphObject) (handle : ℕ) : Option ThreadBufferInfo :=
  lookup g.tbufs handle

/-- `get_job_ptr` -/
def GraphObject.getJobPtr (g : GraphObject) (jobId : ℕ) : Option JobDesc := lookup g.jobs jobId

/-- The graph without its buffers and keys. -/
def GraphObject.graph (g : GraphObject) : Graph where
  id := g.id
  tbufs := values ThreadBufferInfo.info g.tbufs
  jobs := values (fun job => job) g.jobs
  sched := g.sched

/-- The keys agree with what is stored under them. -/
structure GraphObject.Keyed (g : GraphObject) : Prop where
  tbufs : KeyedList.Keyed TbufInfo.handle ThreadBufferInfo.info g.tbufs
  jobs : KeyedList.Keyed JobDesc.id (fun job => job) g.jobs

/-! ## Reading -/

/-- The job is found and its state passes the test. -/
def GraphObject.jobStateIs (g : GraphObject) (jobId : ℕ) (p : JobState → Bool) : Bool :=
  (g.getJobPtr jobId).any fun job => p job.state

/-- `is_job_exist_inner`: the job is built, scheduled, done or has an exception. -/
def GraphObject.isJobExistInner (g : GraphObject) (jobId : ℕ) : Bool :=
  g.jobStateIs jobId (· = .built) || g.jobStateIs jobId (· = .sched) ||
    g.jobStateIs jobId fun state => state = .done ∨ state = .exception

/-- `create_buf_handle_inner` -/
def GraphObject.createBufHandleInner (g : GraphObject) : Option ℕ :=
  firstUnused (fun handle => (g.getTbufPtr handle).isSome) uint32Size
    (g.tbufs.length + 1) g.graph.idBase

/-- `create_job_id_inner` -/
def GraphObject.createJobIdInner (g : GraphObject) : Option ℕ :=
  firstUnused g.isJobExistInner uint32Size (g.jobs.length + 1) g.graph.idBase

/-- `is_asid_enabled` -/
def GraphObject.isAsidEnabled (g : GraphObject) : Bool :=
  aipuVersion g.info.device = 2 ∧ g.info.asidFlag &&& 0xF ≠ 0

/-- `host2dev` -/
def GraphObject.host2dev (g : GraphObject) (pa : ℕ) : ℕ := wrapSub 64 pa (wrap 64 g.shmOffset)

/-! ## Loading -/

/-- What `load` meets: the answers to the requests for the text and for the static group, and what
the variable of the group holds at first. -/
structure LoadMalloc where
  text : KernelMalloc
  static : KernelMalloc
  garbage : BufferDesc := {}

/-- `load` -/
def GraphObject.load (id shmOffset : ℕ) (info : GraphInfo) (kernel : LoadMalloc) :
    Option (AipuStatus × GraphObject × List BufferEvent) :=
  let g : GraphObject := { id, info, shmOffset }
  match allocTextBuffer kernel.text info.pbufTempl g.pbuf.text with
  | (.error e, es) => some (e, g, es)
  | (.ok textBuf, es) =>
    let g := { g with pbuf := { g.pbuf with text := textBuf } }
    match loadTextBuffer info.pbufTempl.textSrc info.pbufTempl.textSize textBuf with
    | .success =>
      (allocGroupBuffers kernel.static info.pbufTempl.staticSections aipuMmDataTypeStatic
        kernel.garbage g.pbuf.staticGroup).map fun
      | (.error e, es₁) => (e, g, es ++ es₁)
      | (.ok (staticBuf, staticGroup), es₁) =>
        (.success, { g with pbuf := { g.pbuf with staticBuf, staticGroup } }, es ++ es₁)
    | e => some (e, g, es)

/-! ## Thread buffers -/

/-- What `alloc_thread_buffer` meets: the answers to its three requests, what the new `tbuf_info_t`
holds at first, and what the variable of the group holds. -/
structure ThreadBufferMalloc where
  stack : KernelMalloc
  rodata : KernelMalloc
  reuse : KernelMalloc
  fresh : ThreadBufferInfo := {
    handle := 0, isFree := false, stack := {}, rodata := {}, descriptor := {}, reuseBuf := []
    reuseGroup := {}, iobuf := {} }
  garbage : BufferDesc := {}

/-- `alloc_thread_buffer`; what the kernel answers when a buffer is given back is not looked at.
The call is `none` also when a tensor refers to a section that does not exist. -/
def GraphObject.allocThreadBuffer (g : GraphObject) (kernel : ThreadBufferMalloc) :
    Option (AipuStatus × GraphObject × Option ℕ × List BufferEvent) :=
  let templ := g.info.tbufTempl
  match mallocBuf kernel.stack aipuMmDataTypeRoStack templ.stackSize.toNat
      templ.stackAlignInPage.toNat g.pbuf.text.regionId kernel.fresh.stack with
  | (.error e, es) => some (e, g, none, es)
  | (.ok stack, es) =>
    match allocRodataBuffer kernel.rodata g.pbuf.text.regionId templ kernel.fresh.rodata with
    -- `free_stack`
    | (.error e, es₁) => some (e, g, none, es ++ es₁ ++ stack.freeEvents)
    | (.ok (rodata, descriptor), es₁) => do
      match ← allocGroupBuffers kernel.reuse templ.reuseSections aipuMmDataTypeReuse
          kernel.garbage kernel.fresh.reuseGroup with
      -- `free_ro_reuse`: no reuse buffer has been stored
      | (.error e, es₂) =>
        some (e, g, none, es ++ es₁ ++ es₂ ++ rodata.freeEvents ++ stack.freeEvents)
      | (.ok (reuseBuf, reuseGroup), es₂) =>
        let iobuf ← createIobufInfos reuseBuf g.info
        let handle ← g.createBufHandleInner
        let tbuf := { handle, isFree := true, stack, rodata, descriptor, reuseBuf,
                      reuseGroup, iobuf }
        some (.success, { g with tbufs := insert g.tbufs handle tbuf }, some handle,
          es ++ es₁ ++ es₂)

/-- Buffers are freed until one cannot be. -/
def freeBufs : Oracle → List BufferDesc → AipuStatus × List BufferEvent
  | _, [] => (.success, [])
  | oks, buf :: rest =>
    match freeBuf buf oks.next.1 with
    | .success => ((freeBufs oks.next.2 rest).1, .freed buf :: (freeBufs oks.next.2 rest).2)
    | e => (e, [])

/-- The buffers of a thread buffer, in the order in which they are freed. -/
def ThreadBufferInfo.bufs (tbuf : ThreadBufferInfo) : List BufferDesc :=
  [tbuf.rodata, tbuf.stack, tbuf.reuseGroup]

/-- `free_thread_buffer` -/
def GraphObject.freeThreadBuffer (g : GraphObject) (handle : ℕ) (oks : Oracle) :
    AipuStatus × GraphObject × List BufferEvent :=
  match g.getTbufPtr handle with
  | none => (.errorInvalidHandle, g, [])
  | some tbuf =>
    if tbuf.isFree then
      match freeBufs oks tbuf.bufs with
      | (.success, es) => (.success, { g with tbufs := erase g.tbufs handle }, es)
      | (e, es) => (e, g, es)
    else (.errorBusyHandle, g, [])

/-! ## Jobs -/

/-- The sections that an entry of the parameter map refers to, and their group. -/
def GraphObject.paramSections (g : GraphObject) (tbuf : ThreadBufferInfo) :
    ParamMapLoadType → List BufferDesc × BufferDesc
  | .reuse => (tbuf.reuseBuf, tbuf.reuseGroup)
  | .static => (g.pbuf.staticBuf, g.pbuf.staticGroup)

/-- `sub_sec_pa` in `build_new_job`; `none` when the section does not exist. -/
def GraphObject.subSecPa (g : GraphObject) (tbuf : ThreadBufferInfo) (param : ParamMapLoadDesc) :
    Option ℕ :=
  let (bufs, group) := g.paramSections tbuf param.loadType
  bufs[param.refSectionIter.toNat]?.map fun buf =>
    let subSecPa := wrap 32 (g.host2dev (wrap 64 (buf.pa + param.subSectionOffset.toNat)))
    if g.isAsidEnabled then wrapSub 32 subSecPa (wrap 32 group.pa) else subSecPa

/-- The loop of `build_new_job` over the parameter map: what it writes, and whether it comes to the
end. -/
def GraphObject.patchRodata (g : GraphObject) (tbuf : ThreadBufferInfo) :
    List ParamMapLoadDesc → List HostWrite × Bool
  | [] => ([], true)
  | param :: rest =>
    if param.offsetInMap.toNat ≥ tbuf.rodata.size then ([], false)
    else match g.subSecPa tbuf param with
      | none => ([], false)
      | some subSecPa =>
        let (writes, inRange) := g.patchRodata tbuf rest
        (.patch (wrap 64 (tbuf.rodata.va + param.offsetInMap.toNat)) subSecPa
          param.addrMask.toNat :: writes, inRange)

/-- The buffer of which `get_base_va` and `get_base_pa` return the address, by its
`section_type_t`. -/
def GraphObject.baseBuf (g : GraphObject) (tbuf : ThreadBufferInfo) (secType : UInt32) :
    BufferDesc :=
  if secType = 0 then tbuf.rodata
  else if secType = 1 then tbuf.descriptor
  else if secType = 2 then g.pbuf.text
  else {}

/-- The write of `build_new_job` for a node of the linked list. -/
def GraphObject.linkNode (g : GraphObject) (tbuf : ThreadBufferInfo) (node : ListNodeDesc) :
    HostWrite :=
  .store (wrap 64 ((g.baseBuf tbuf node.type).va + node.nextAddrEntryOffset.toNat))
    (wrap 32 (g.host2dev (wrap 32 ((g.baseBuf tbuf node.nextType).pa + node.nextOffset.toNat))))

/-- The configuration of a job, under the names of the kernel. -/
def GraphObject.config (g : GraphObject) (tbuf : ThreadBufferInfo) : UserJobDesc where
  startPcAddr := wrap 64 (g.host2dev g.pbuf.text.pa + g.info.entry.toNat)
  intrHandlerAddr := wrap 64 (g.host2dev g.pbuf.text.pa + 0x10)
  data0Addr := g.host2dev tbuf.rodata.pa
  data1Addr := g.host2dev tbuf.stack.pa
  staticAddr := g.host2dev g.pbuf.staticGroup.pa
  reuseAddr := g.host2dev tbuf.reuseGroup.pa
  codeSize := wrap 32 g.pbuf.text.size
  rodataSize := wrap 32 tbuf.rodata.size
  stackSize := wrap 32 tbuf.stack.size
  staticSize := wrap 32 g.pbuf.staticGroup.size
  reuseSize := wrap 32 tbuf.reuseGroup.size
  enableAsid := if g.isAsidEnabled then 1 else 0

/-- The writes of `build_new_job` before and after it goes through the parameter map. -/
def GraphObject.loadRodata (g : GraphObject) (tbuf : ThreadBufferInfo) :
    List HostWrite × List HostWrite :=
  let templ := g.info.tbufTempl
  let rodata := HostWrite.load tbuf.rodata.va templ.rodataSrc templ.rodataSize.toNat
  if g.info.linkedListFlag ≠ 0 then
    ([rodata, .load tbuf.descriptor.va templ.dcrSrc templ.dcrSize.toNat],
      g.info.dcrMap.map (g.linkNode tbuf))
  else ([rodata], [])

/-- `build_new_job` on a `job_desc_t` at the address `addr` -/
def GraphObject.buildNewJob (g : GraphObject) (handle addr : ℕ) :
    Option (AipuStatus × GraphObject × Option ℕ × List HostWrite) :=
  match g.getTbufPtr handle with
  | none => some (.errorInvalidHandle, g, none, [])
  | some tbuf =>
    if tbuf.isFree then
      let g := { g with tbufs := adjust g.tbufs handle fun tbuf => { tbuf with isFree := false } }
      let (loads, links) := g.loadRodata tbuf
      match g.patchRodata tbuf g.info.paramMap with
      | (patches, false) => some (.errorInvalidSize, g, none, loads ++ patches)
      | (patches, true) =>
        match g.createJobIdInner with
        | none => none
        | some jobId =>
          let job := { addr := addr, id := jobId, state := .built, bufHandle := handle,
                       config := g.config tbuf }
          some (.success, { g with jobs := insert g.jobs jobId job }, some jobId,
            loads ++ patches ++ links)
    else some (.errorBusyHandle, g, none, [])

/-- `job->state = state` for the job under the id. -/
def GraphObject.setJobState (g : GraphObject) (jobId : ℕ) (state : JobState) : GraphObject :=
  { g with jobs := adjust g.jobs jobId fun job => { job with state := state } }

/-- `flush_job` on an open device, when RUNJOB is accepted or not. -/
def GraphObject.flushJob (g : GraphObject) (jobId : ℕ) (accepted : Bool) :
    AipuStatus × GraphObject :=
  match g.getJobPtr jobId with
  | none => (.errorJobNotExist, g)
  | some job =>
    if job.state ≠ .built then (.errorJobSched, g)
    else
      let g := { g.setJobState jobId .sched with sched := g.sched ++ [job.id] }
      (.success, if accepted then g else g.setJobState jobId .noState)

/-- `update_job_status` for a job id and a state. -/
def GraphObject.updateJobState (g : GraphObject) (jobId : ℕ) (state : JobState) :
    AipuStatus × GraphObject :=
  match g.getJobPtr jobId with
  | none => (.errorJobNotExist, g)
  | some _ => (.success, g.setJobState jobId state)

/-- `wait_for_job_end` on the graph of the job, with the answer of `poll_status`; `none` when it
does not return. -/
def GraphObject.waitForJobEnd (g : GraphObject) (pollOpt : Bool) (jobId : ℕ) (timeOut : ℤ)
    (reply : Option (List JobStatusDesc)) : Option (AipuStatus × GraphObject) :=
  match g.getJobPtr jobId with
  | none => some (.errorJobNotExist, g)
  | some job =>
    match job.state with
    | .built => some (.errorJobNotSched, g)
    | .done => some (.success, g)
    | .exception => some (.errorJobException, g)
    | .timeout => some (.errorJobTimeout, g)
    | .noState | .sched =>
      -- asleep, or in `poll`
      match if pollOpt then some [] else reply with
      | none => some (.errorNullPtr, g)
      | some [] =>
        if timeOut ≤ 0 then none else some (.errorJobTimeout, (g.updateJobState jobId .timeout).2)
      | some (status :: _) => some (g.updateJobState status.jobId status.state.jobState)

/-- The loop of `poll_job_status` over the records, when the context has no other graph. -/
def GraphObject.pollReply (g : GraphObject) : List JobStatusDesc → AipuStatus × GraphObject
  | [] => (.success, g)
  | status :: rest =>
    if jobId2graphId status.jobId = g.id then
      match g.updateJobState status.jobId status.state.jobState with
      | (.success, g) => g.pollReply rest
      | (ret, g) => (ret, g)
    else (.errorJobNotExist, g)

/-- `poll_job_status` with the answer of `poll_status`. -/
def GraphObject.pollJobStatus (g : GraphObject) (reply : Option (List JobStatusDesc)) :
    AipuStatus × GraphObject :=
  match reply with
  | none => (.errorNullPtr, g)
  | some records => g.pollReply records

/-- `clean_job` -/
def GraphObject.cleanJob (g : GraphObject) (jobId : ℕ) : AipuStatus × GraphObject :=
  match g.getJobPtr jobId with
  | none => (.errorJobNotExist, g)
  | some job =>
    match job.state with
    | .built => (.errorJobNotSched, g)
    | .sched => (.errorJobNotEnd, g)
    | _ =>
      (.success, { g with
        tbufs := adjust g.tbufs job.bufHandle fun tbuf => { tbuf with isFree := true }
        sched := g.sched.erase jobId
        jobs := erase g.jobs job.id })

/-! ## Steps -/

/-- A call of the context on the graph, with what the kernel answers. -/
inductive GraphCall
  | allocThreadBuffer (kernel : ThreadBufferMalloc)
  | freeThreadBuffer (handle : ℕ) (oks : Oracle)
  | buildNewJob (handle addr : ℕ)
  | flushJob (jobId : ℕ) (accepted : Bool)
  | waitForJobEnd (pollOpt : Bool) (jobId : ℕ) (timeOut : ℤ) (reply : Option (List JobStatusDesc))
  | pollJobStatus (reply : Option (List JobStatusDesc))
  | cleanJob (jobId : ℕ)

/-- One call. -/
def graphObjectStep (g : GraphObject) : GraphCall → Option (GraphObject × List BufferEvent)
  | .allocThreadBuffer kernel => (g.allocThreadBuffer kernel).map fun (_, g, _, es) => (g, es)
  | .freeThreadBuffer handle oks => some (g.freeThreadBuffer handle oks).2
  | .buildNewJob handle addr => (g.buildNewJob handle addr).map fun (_, g, _, _) => (g, [])
  | .flushJob jobId accepted => some ((g.flushJob jobId accepted).2, [])
  | .waitForJobEnd pollOpt jobId timeOut reply =>
    (g.waitForJobEnd pollOpt jobId timeOut reply).map fun (_, g) => (g, [])
  | .pollJobStatus reply => some ((g.pollJobStatus reply).2, [])
  | .cleanJob jobId => some ((g.cleanJob jobId).2, [])

/-- The graph has just been loaded. -/
def GraphObject.Loaded (g : GraphObject) : Prop :=
  ∃ id shmOffset info kernel es, GraphObject.load id shmOffset info kernel = some (.success, g, es)

/-- The calls on a graph, from its loading on. -/
def graphObjectSystem : System GraphObject GraphCall BufferEvent where
  init g := g.Loaded
  step := graphObjectStep

/-- The kernel grants a page at the addresses, and nothing more. -/
def grantAt (pa va : ℕ) : KernelMalloc := fun req =>
  if h : req.bytes ≤ 4096 ∧ va ≠ 0 then
    .mapped { pa := pa, bytes := 4096, regionId := req.regionId } va (Nat.succ_ne_zero 4095) h.2
  else .refused

/-- A graph at address 4096 with ASID, a static section, and a reuse section whose sub-section is an
input tensor. -/
def sampleInfo (offset size : UInt32) : GraphInfo where
  gbin := 4096
  gbinSize := 220
  device := 0x204B4
  version := 0x03000000
  asidFlag := 1
  bssSrc := 4216
  pbufTempl := {
    textSrc := 4200, textSize := 4, dataSrc := 4208, dataSize := 8
    staticSections := [{ loadSrc := 4208, size := 8 }] }
  tbufTempl := {
    rodataSrc := 4204, rodataSize := 4, stackSize := 256, stackAlignInPage := 1
    reuseSections := [{ size := 4096, subSections := [offset] }] }
  inputs := [{
    id := 0, refSectionIter := 0, offsetInSection := offset, size := size
    fmt := { layout := 1, shape := ⟨1, 1, 8, 8⟩, dataType := 1 } }]
  paramMap := [{
    offsetInMap := 0, loadType := .reuse, refSectionIter := 0, refSubSectionIter := 0
    subSectionOffset := offset, addrMask := 0xFFFFFFFF }]

/-- The graph, loaded. -/
def sampleObject (shmOffset : ℕ) (offset size : UInt32) : GraphObject where
  id := 1
  info := sampleInfo offset size
  shmOffset := shmOffset
  pbuf := {
    text := { va := 0x7000000, pa := 0x90000000, size := 4096, realSize := 4 }
    staticBuf := [{ va := 0x7010000, pa := 0x90010000, size := 8, realSize := 8 }]
    staticGroup := { va := 0x7010000, pa := 0x90010000, size := 4096, realSize := 8 } }

/-- The kernel grants the program. -/
def sampleLoad : LoadMalloc where
  text := grantAt 0x90000000 0x7000000
  static := grantAt 0x90010000 0x7010000

/-- The graph is loaded when the kernel grants its requests. -/
theorem sampleObject_loaded (shmOffset : ℕ) (offset size : UInt32) :
    ∃ es, GraphObject.load 1 shmOffset (sampleInfo offset size) sampleLoad =
      some (.success, sampleObject shmOffset offset size, es) := ⟨_, rfl⟩

/-- The kernel grants a thread buffer. -/
def sampleMalloc : ThreadBufferMalloc where
  stack := grantAt 0x90020000 0x7020000
  rodata := grantAt 0x90030000 0x7030000
  reuse := grantAt 0x90040000 0x7040000

/-! ## What the calls do -/

section Calls

variable {g g' : GraphObject} {handle jobId addr : ℕ} {ret : AipuStatus} {new : Option ℕ}
  {es : List BufferEvent} {oks : Oracle} {kernel : ThreadBufferMalloc}

/-- What `load` leaves behind when it succeeds. -/
theorem GraphObject.load_cases {id shmOffset : ℕ} {info : GraphInfo} {kernel : LoadMalloc}
    (h : GraphObject.load id shmOffset info kernel = some (.success, g, es)) :
    ∃ textBuf es₁ staticBuf staticGroup es₂,
      allocTextBuffer kernel.text info.pbufTempl {} = (.ok textBuf, es₁) ∧
      loadTextBuffer info.pbufTempl.textSrc info.pbufTempl.textSize textBuf = .success ∧
      allocGroupBuffers kernel.static info.pbufTempl.staticSections aipuMmDataTypeStatic
        kernel.garbage {} = some (.ok (staticBuf, staticGroup), es₂) ∧
      g = { id, info, shmOffset, pbuf := { text := textBuf, staticBuf, staticGroup } } ∧
      es = es₁ ++ es₂ := by
  unfold GraphObject.load at h
  dsimp only at h
  split at h
  next e es₁ he =>
    obtain ⟨rfl, -⟩ := Prod.mk.inj (Option.some.inj h)
    exact absurd rfl (allocTextBuffer_error he)
  next textBuf es₁ htextBuf =>
    split at h
    next htext =>
      obtain ⟨group, hgroup, h⟩ := Option.map_eq_some_iff.mp h
      split at h
      next e es₂ =>
        obtain ⟨rfl, -⟩ := Prod.mk.inj h
        exact absurd rfl (allocGroupBuffers_error hgroup)
      next staticBuf staticGroup es₂ =>
        obtain ⟨rfl, rfl⟩ := Prod.mk.inj (Prod.mk.inj h).2
        exact ⟨textBuf, es₁, staticBuf, staticGroup, es₂, htextBuf, htext, hgroup, rfl, rfl⟩
    next e hne =>
      obtain ⟨heq, -⟩ := Prod.mk.inj (Option.some.inj h)
      exact (hne heq).elim

/-- A graph that has just been loaded has no thread buffers and no jobs. -/
theorem GraphObject.Loaded.empty (h : g.Loaded) : g.tbufs = [] ∧ g.jobs = [] := by
  obtain ⟨id, shmOffset, info, kernel, es, h⟩ := h
  obtain ⟨textBuf, _, staticBuf, staticGroup, _, -, -, -, rfl, -⟩ := GraphObject.load_cases h
  exact ⟨rfl, rfl⟩

/-- The buffers of a thread buffer are those of its three requests, in which the events happened,
and its tensors are in the reuse buffers. -/
structure ThreadBufferInfo.Allocated (tbuf : ThreadBufferInfo) (kernel : ThreadBufferMalloc)
    (regionId : ℕ) (info : GraphInfo) (es₁ es₂ es₃ : List BufferEvent) : Prop where
  stack : mallocBuf kernel.stack aipuMmDataTypeRoStack info.tbufTempl.stackSize.toNat
    info.tbufTempl.stackAlignInPage.toNat regionId kernel.fresh.stack = (.ok tbuf.stack, es₁)
  rodata : allocRodataBuffer kernel.rodata regionId info.tbufTempl kernel.fresh.rodata =
    (.ok (tbuf.rodata, tbuf.descriptor), es₂)
  reuse : allocGroupBuffers kernel.reuse info.tbufTempl.reuseSections aipuMmDataTypeReuse
    kernel.garbage kernel.fresh.reuseGroup = some (.ok (tbuf.reuseBuf, tbuf.reuseGroup), es₃)
  tensors : createIobufInfos tbuf.reuseBuf info = some tbuf.iobuf

/-- `alloc_thread_buffer` stores a free buffer, or nothing. -/
theorem GraphObject.allocThreadBuffer_cases
    (h : g.allocThreadBuffer kernel = some (ret, g', new, es)) :
    (g' = g ∧ new = none) ∨ ∃ tbuf, ret = .success ∧ new = some tbuf.handle ∧
      g.createBufHandleInner = some tbuf.handle ∧ tbuf.isFree = true ∧
      g' = { g with tbufs := insert g.tbufs tbuf.handle tbuf } ∧
      ∃ es₁ es₂ es₃, tbuf.Allocated kernel g.pbuf.text.regionId g.info es₁ es₂ es₃ ∧
        es = es₁ ++ es₂ ++ es₃ := by
  unfold GraphObject.allocThreadBuffer at h
  dsimp only at h
  split at h
  · obtain ⟨-, rfl, rfl, -⟩ : _ ∧ g = g' ∧ none = new ∧ _ := by simpa using h
    exact .inl ⟨rfl, rfl⟩
  next stack es₁ hstack =>
    split at h
    · obtain ⟨-, rfl, rfl, -⟩ : _ ∧ g = g' ∧ none = new ∧ _ := by simpa using h
      exact .inl ⟨rfl, rfl⟩
    next rodata descriptor es₂ hrodata =>
      obtain ⟨group, hgroup, h⟩ := Option.bind_eq_some_iff.mp h
      split at h
      · obtain ⟨-, rfl, rfl, -⟩ : _ ∧ g = g' ∧ none = new ∧ _ := by simpa using h
        exact .inl ⟨rfl, rfl⟩
      next reuseBuf reuseGroup es₃ =>
        obtain ⟨iobuf, hiobuf, h⟩ := Option.bind_eq_some_iff.mp h
        obtain ⟨handle, hhandle, h⟩ := Option.bind_eq_some_iff.mp h
        obtain ⟨rfl, rfl, rfl, rfl⟩ : _ = ret ∧ _ = g' ∧ some handle = new ∧ _ = es := by
          simpa using h
        exact .inr ⟨⟨handle, _, _, _, _, _, _, _⟩, rfl, rfl, hhandle, rfl, rfl, es₁, es₂, es₃,
          ⟨hstack, hrodata, hgroup, hiobuf⟩, by simp⟩

/-- `free_thread_buffer` removes a free buffer, or nothing. -/
theorem GraphObject.freeThreadBuffer_cases (g : GraphObject) (handle : ℕ) (oks : Oracle) :
    (g.freeThreadBuffer handle oks).2.1 = g ∨
      ∃ tbuf, g.getTbufPtr handle = some tbuf ∧ tbuf.isFree = true ∧
        (g.freeThreadBuffer handle oks).2.1 = { g with tbufs := erase g.tbufs handle } := by
  unfold GraphObject.freeThreadBuffer
  split
  · exact .inl rfl
  next tbuf htbuf =>
    split_ifs with hfree
    · split
      · exact .inr ⟨tbuf, htbuf, hfree, rfl⟩
      · exact .inl rfl
    · exact .inl rfl

/-- `build_new_job` takes a free buffer and stores a job that uses it, unless an entry of the
parameter map is out of range; a buffer that is not free, or none, is not touched. -/
theorem GraphObject.buildNewJob_cases {writes : List HostWrite}
    (h : g.buildNewJob handle addr = some (ret, g', new, writes)) :
    (g' = g ∧ new = none ∧ writes = []) ∨ ∃ tbuf g₁, g.getTbufPtr handle = some tbuf ∧
      tbuf.isFree = true ∧
      g₁ = { g with tbufs := adjust g.tbufs handle fun tbuf => { tbuf with isFree := false } } ∧
      (g' = g₁ ∧ new = none ∨ ∃ job, new = some job.id ∧ g.createJobIdInner = some job.id ∧
        job.bufHandle = handle ∧ job.state = .built ∧ job.config = g.config tbuf ∧
        g' = { g₁ with jobs := insert g₁.jobs job.id job }) := by
  unfold GraphObject.buildNewJob at h
  split at h
  · obtain ⟨-, rfl, rfl, rfl⟩ : _ ∧ g = g' ∧ none = new ∧ [] = writes := by simpa using h
    exact .inl ⟨rfl, rfl, rfl⟩
  next tbuf htbuf =>
    split_ifs at h with hfree
    · refine .inr ⟨tbuf, _, htbuf, hfree, rfl, ?_⟩
      dsimp only at h
      split at h
      · obtain ⟨-, rfl, rfl, -⟩ : _ ∧ _ = g' ∧ none = new ∧ _ := by simpa using h
        exact .inl ⟨rfl, rfl⟩
      · split at h
        · cases h
        next jobId hid =>
          obtain ⟨-, rfl, rfl, -⟩ : _ ∧ _ = g' ∧ some jobId = new ∧ _ := by simpa using h
          exact .inr ⟨⟨addr, jobId, .built, handle, _⟩, rfl, hid, rfl, rfl, rfl, rfl⟩
    · obtain ⟨-, rfl, rfl, rfl⟩ : _ ∧ g = g' ∧ none = new ∧ [] = writes := by simpa using h
      exact .inl ⟨rfl, rfl, rfl⟩

/-- `clean_job` erases a job that is neither built nor scheduled and frees the buffer that it uses,
or it does nothing. -/
theorem GraphObject.cleanJob_cases (g : GraphObject) (jobId : ℕ) :
    (g.cleanJob jobId).2 = g ∨ ∃ job, g.getJobPtr jobId = some job ∧ job.state ≠ .built ∧
      job.state ≠ .sched ∧ (g.cleanJob jobId).2 = { g with
        tbufs := adjust g.tbufs job.bufHandle fun tbuf => { tbuf with isFree := true }
        sched := g.sched.erase jobId
        jobs := erase g.jobs job.id } := by
  unfold GraphObject.cleanJob
  split
  · exact .inl rfl
  next job hjob =>
    split
    · exact .inl rfl
    · exact .inl rfl
    next hbuilt hsched => exact .inr ⟨job, hjob, hbuilt, hsched, rfl⟩

/-- Jobs are marked one after the other, and the queue of the scheduled ones changes. -/
inductive GraphObject.Marks (g : GraphObject) : GraphObject → Prop
  | refl : g.Marks g
  | state {g' : GraphObject} (jobId : ℕ) (state : JobState) :
      g.Marks g' → g.Marks (g'.setJobState jobId state)
  | queue {g' : GraphObject} (sched : List ℕ) : g.Marks g' → g.Marks { g' with sched := sched }

/-- More marks. -/
theorem GraphObject.Marks.trans {g'' : GraphObject} (h : g.Marks g') (h' : g'.Marks g'') :
    g.Marks g'' := by
  induction h' with
  | refl => exact h
  | state jobId state _ ih => exact ih.state jobId state
  | queue sched _ ih => exact ih.queue sched

/-- `flush_job` marks a job and queues it. -/
theorem GraphObject.flushJob_marks (g : GraphObject) (jobId : ℕ) (accepted : Bool) :
    g.Marks (g.flushJob jobId accepted).2 := by
  unfold GraphObject.flushJob
  split
  · exact .refl
  next job _ =>
    split_ifs
    · exact .refl
    · exact (Marks.refl.state jobId .sched).queue _
    · exact ((Marks.refl.state jobId .sched).queue _).state jobId .noState

/-- `update_job_status` marks a job. -/
theorem GraphObject.updateJobState_marks (g : GraphObject) (jobId : ℕ) (state : JobState) :
    g.Marks (g.updateJobState jobId state).2 := by
  unfold GraphObject.updateJobState
  split
  · exact .refl
  · exact .state jobId state .refl

/-- `wait_for_job_end` marks at most a job. -/
theorem GraphObject.waitForJobEnd_marks {pollOpt : Bool} {timeOut : ℤ}
    {reply : Option (List JobStatusDesc)}
    (h : g.waitForJobEnd pollOpt jobId timeOut reply = some (ret, g')) : g.Marks g' := by
  unfold GraphObject.waitForJobEnd at h
  have hsame : ∀ ret₀, some (ret₀, g) = some (ret, g') → g.Marks g' := by
    rintro _ ⟨⟩
    exact .refl
  split at h
  · exact hsame _ h
  · split at h
    · exact hsame _ h
    · exact hsame _ h
    · exact hsame _ h
    · exact hsame _ h
    all_goals
      split at h
      · exact hsame _ h
      · split_ifs at h
        obtain ⟨-, rfl⟩ := Prod.mk.inj (Option.some.inj h)
        exact g.updateJobState_marks jobId .timeout
      next status _ _ =>
        have hmark := g.updateJobState_marks status.jobId status.state.jobState
        rw [Option.some.inj h] at hmark
        exact hmark

/-- `poll_job_status` marks jobs. -/
theorem GraphObject.pollJobStatus_marks (g : GraphObject) (reply : Option (List JobStatusDesc)) :
    g.Marks (g.pollJobStatus reply).2 := by
  have hloop : ∀ records (g : GraphObject), g.Marks (g.pollReply records).2 := by
    intro records
    induction records with
    | nil => exact fun g => .refl
    | cons status rest ih =>
      intro g
      rw [GraphObject.pollReply]
      split_ifs
      · have hfirst := g.updateJobState_marks status.jobId status.state.jobState
        split
        next g₁ heq =>
          rw [heq] at hfirst
          exact hfirst.trans (ih g₁)
        next heq =>
          rw [heq] at hfirst
          exact hfirst
      · exact .refl
  cases reply with
  | none => exact .refl
  | some records => exact hloop records g

/-- Only states of jobs have changed, and the queue of the scheduled ones. -/
structure GraphObject.SetsStates (g g' : GraphObject) : Prop where
  info : g'.info = g.info
  shmOffset : g'.shmOffset = g.shmOffset
  pbuf : g'.pbuf = g.pbuf
  tbufs : g'.tbufs = g.tbufs
  keyed : g.Keyed → g'.Keyed
  jobs : ∀ jobId job', g'.getJobPtr jobId = some job' →
    ∃ job, g.getJobPtr jobId = some job ∧ job.bufHandle = job'.bufHandle

/-- A job that is found after a mark. -/
theorem GraphObject.getJobPtr_setJobState {state : JobState} {i : ℕ} {job' : JobDesc}
    (h : (g.setJobState jobId state).getJobPtr i = some job') :
    ∃ job, g.getJobPtr i = some job ∧ job' = { job with state := job'.state } := by
  rw [GraphObject.getJobPtr, GraphObject.setJobState, lookup_adjust] at h
  obtain ⟨job, hjob, rfl⟩ := Option.map_eq_some_iff.mp h
  refine ⟨job, hjob, ?_⟩
  split <;> rfl

/-- A marked job is the one that it was, up to its state. -/
theorem GraphObject.Marks.getJobPtr (h : g.Marks g') {i : ℕ} {job' : JobDesc}
    (hjob' : g'.getJobPtr i = some job') :
    ∃ job, g.getJobPtr i = some job ∧ job' = { job with state := job'.state } := by
  induction h generalizing job' with
  | refl => exact ⟨job', hjob', rfl⟩
  | state jobId state _ ih =>
    obtain ⟨job₁, hjob₁, heq₁⟩ := GraphObject.getJobPtr_setJobState hjob'
    obtain ⟨job, hjob, heq⟩ := ih hjob₁
    exact ⟨job, hjob, by rw [heq₁, heq]⟩
  | queue sched _ ih => exact ih hjob'

/-- Marks change only states of jobs. -/
theorem GraphObject.Marks.setsStates (h : g.Marks g') : g.SetsStates g' := by
  have hkept : g'.info = g.info ∧ g'.shmOffset = g.shmOffset ∧ g'.pbuf = g.pbuf ∧
      g'.tbufs = g.tbufs := by
    induction h with
    | refl => exact ⟨rfl, rfl, rfl, rfl⟩
    | state _ _ _ ih => exact ih
    | queue _ _ ih => exact ih
  have hkeyed : g.Keyed → g'.Keyed := by
    intro hkeyed
    clear hkept
    induction h with
    | refl => exact hkeyed
    | state jobId state _ ih =>
      refine ⟨ih.tbufs, ?_⟩
      exact ih.jobs.adjust (f := fun job => { job with state := state }) fun _ => rfl
    | queue sched _ ih => exact ⟨ih.tbufs, ih.jobs⟩
  obtain ⟨hinfo, hshm, hpbuf, htbufs⟩ := hkept
  refine ⟨hinfo, hshm, hpbuf, htbufs, hkeyed, fun i job' hjob' => ?_⟩
  obtain ⟨job, hjob, heq⟩ := h.getJobPtr hjob'
  exact ⟨job, hjob, by rw [heq]⟩

end Calls

/-! ## Without the buffers and the keys -/

namespace GraphObject.Keyed

variable {g g' : GraphObject} {handle jobId addr : ℕ} {ret : AipuStatus} {new : Option ℕ}

/-- The buffer that is found. -/
theorem getTbufPtr (h : g.Keyed) :
    g.graph.getTbufPtr handle = (g.getTbufPtr handle).map ThreadBufferInfo.info :=
  lookup_eq_find? h.tbufs

/-- The job that is found. -/
theorem getJobPtr (h : g.Keyed) : g.graph.getJobPtr jobId = g.getJobPtr jobId :=
  (lookup_eq_find? h.jobs).trans Option.map_id'

/-- The handle that is found. -/
theorem createBufHandleInner (h : g.Keyed) :
    g.graph.createBufHandleInner = g.createBufHandleInner := by
  have hused : (fun handle => (g.graph.getTbufPtr handle).isSome) =
      fun handle => (g.getTbufPtr handle).isSome := by
    funext handle
    rw [h.getTbufPtr, Option.isSome_map]
  rw [Graph.createBufHandleInner, hused, GraphObject.createBufHandleInner]
  simp only [GraphObject.graph, values, List.length_map]

/-- The job id that is found. -/
theorem createJobIdInner (h : g.Keyed) : g.graph.createJobIdInner = g.createJobIdInner := by
  have hused : g.graph.isJobExistInner = g.isJobExistInner := by
    funext jobId
    simp only [Graph.isJobExistInner, Graph.isJobBuiltInner, Graph.isJobScheduledInner,
      Graph.isJobEndInner, Graph.jobStateIs, h.getJobPtr, GraphObject.isJobExistInner,
      GraphObject.jobStateIs]
  rw [Graph.createJobIdInner, hused, GraphObject.createJobIdInner]
  simp only [GraphObject.graph, values, List.length_map]

/-- What `alloc_thread_buffer` does to the graph, it does without the buffers. -/
theorem allocThreadBuffer (h : g.Keyed) {kernel : ThreadBufferMalloc} {es : List BufferEvent}
    (hstep : g.allocThreadBuffer kernel = some (ret, g', new, es)) :
    ∃ ok ret', g.graph.allocThreadBuffer ok = some (ret', g'.graph, new) := by
  rcases GraphObject.allocThreadBuffer_cases hstep with ⟨rfl, rfl⟩ |
    ⟨tbuf, -, rfl, hid, hfree, rfl, -⟩
  · exact ⟨false, _, rfl⟩
  · refine ⟨true, .success, ?_⟩
    rw [Graph.allocThreadBuffer, if_pos rfl, h.createBufHandleInner, hid]
    have hinfo : tbuf.info = ⟨tbuf.handle, true⟩ := by rw [ThreadBufferInfo.info, hfree]
    dsimp only [GraphObject.graph]
    rw [values_insert h.tbufs, hinfo]

/-- What `free_thread_buffer` does to the graph, it does without the buffers. -/
theorem freeThreadBuffer (h : g.Keyed) (oks : Oracle) :
    ∃ ok, (g.graph.freeThreadBuffer handle ok).2 = (g.freeThreadBuffer handle oks).2.1.graph := by
  rcases g.freeThreadBuffer_cases handle oks with heq | ⟨tbuf, htbuf, hfree, heq⟩
  · refine ⟨false, ?_⟩
    rw [heq, Graph.freeThreadBuffer]
    split
    · rfl
    · split <;> rfl
  · refine ⟨true, ?_⟩
    have hinfo : tbuf.info.isFree = true := hfree
    rw [heq, Graph.freeThreadBuffer, h.getTbufPtr, htbuf]
    dsimp only [Option.map_some, GraphObject.graph]
    rw [hinfo, if_pos rfl, if_pos rfl, values_erase h.tbufs]

/-- Writing the flag of a buffer. -/
theorem setTbufFree (h : g.Keyed) (isFree : Bool) :
    values ThreadBufferInfo.info
      (adjust g.tbufs handle fun tbuf => { tbuf with isFree := isFree }) =
      (g.graph.setTbufFree handle isFree).tbufs := values_adjust h.tbufs fun _ => rfl

/-- `build_new_job` has the same status, graph and job id without the buffers, for some result of
its loop and some configuration. -/
theorem buildNewJob (h : g.Keyed) {writes : List HostWrite}
    (hstep : g.buildNewJob handle addr = some (ret, g', new, writes)) :
    ∃ inRange config, g.graph.buildNewJob handle inRange addr config =
      some (ret, g'.graph, new) := by
  unfold GraphObject.buildNewJob at hstep
  split at hstep
  next hnone =>
    obtain ⟨rfl, rfl, rfl, -⟩ : _ = ret ∧ g = g' ∧ none = new ∧ _ := by simpa using hstep
    exact ⟨false, {}, by rw [Graph.buildNewJob, h.getTbufPtr, hnone]; rfl⟩
  next tbuf htbuf =>
    have hfree : tbuf.info.isFree = tbuf.isFree := rfl
    have hcall : ∀ inRange config, g.graph.buildNewJob handle inRange addr config =
        if tbuf.isFree then
          if inRange then
            match g.createJobIdInner with
            | none => none
            | some jobId =>
              some (.success, (g.graph.setTbufFree handle false).insertJob
                { addr := addr, id := jobId, state := .built, bufHandle := handle,
                  config := config },
                some jobId)
          else some (.errorInvalidSize, g.graph.setTbufFree handle false, none)
        else some (.errorBusyHandle, g.graph, none) := by
      intro inRange config
      rw [Graph.buildNewJob, h.getTbufPtr, htbuf, ← h.createJobIdInner]
      rfl
    split_ifs at hstep with hbusy
    · dsimp only at hstep
      split at hstep
      · obtain ⟨rfl, rfl, rfl, -⟩ : _ = ret ∧ _ = g' ∧ none = new ∧ _ := by simpa using hstep
        refine ⟨false, {}, ?_⟩
        rw [hcall, if_pos hbusy, if_neg Bool.false_ne_true]
        dsimp only [GraphObject.graph]
        rw [h.setTbufFree]
        rfl
      · refine ⟨true, g.config tbuf, ?_⟩
        rw [hcall, if_pos hbusy, if_pos rfl]
        split at hstep
        · cases hstep
        next jobId hid =>
          obtain ⟨rfl, rfl, rfl, -⟩ : _ = ret ∧ _ = g' ∧ some jobId = new ∧ _ := by
            simpa using hstep
          have hid' : g.createJobIdInner = some jobId := hid
          rw [hid']
          dsimp only [GraphObject.graph]
          rw [h.setTbufFree, values_insert h.jobs]
          rfl
    · obtain ⟨rfl, rfl, rfl, -⟩ : _ = ret ∧ g = g' ∧ none = new ∧ _ := by simpa using hstep
      exact ⟨false, {}, by rw [hcall, if_neg hbusy]⟩

/-- Writing the state of a job. -/
theorem setJobState (h : g.Keyed) (state : JobState) :
    (g.setJobState jobId state).graph = g.graph.setJobState jobId state := by
  dsimp only [GraphObject.graph, GraphObject.setJobState, Graph.setJobState]
  rw [values_adjust h.jobs fun _ => rfl]

/-- `update_job_status` has the same status and graph without the buffers. -/
theorem updateJobState (h : g.Keyed) (state : JobState) :
    g.graph.updateJobState jobId state =
      ((g.updateJobState jobId state).1, (g.updateJobState jobId state).2.graph) := by
  rw [Graph.updateJobState, h.getJobPtr, GraphObject.updateJobState]
  cases g.getJobPtr jobId with
  | none => rfl
  | some job => rw [h.setJobState]

/-- `flush_job` has the same status and graph without the buffers. -/
theorem flushJob (h : g.Keyed) (accepted : Bool) :
    g.graph.flushJob jobId accepted =
      ((g.flushJob jobId accepted).1, (g.flushJob jobId accepted).2.graph) := by
  rw [Graph.flushJob, Graph.flushJobMark, h.getJobPtr, GraphObject.flushJob]
  cases g.getJobPtr jobId with
  | none => rfl
  | some job =>
    have hsched :
        ({ g.setJobState jobId .sched with sched := g.sched ++ [job.id] } : GraphObject).graph =
        { g.graph.setJobState jobId .sched with sched := g.graph.sched ++ [job.id] } := by
      rw [← h.setJobState]
      rfl
    have hkeyed :
        ({ g.setJobState jobId .sched with sched := g.sched ++ [job.id] } : GraphObject).Keyed :=
      ((GraphObject.Marks.refl.state jobId .sched).queue _).setsStates.keyed h
    by_cases hbuilt : job.state ≠ .built
    · simp only [if_pos hbuilt]
    · simp only [if_neg hbuilt]
      rw [← hsched]
      cases accepted with
      | true => rfl
      | false => exact congrArg (Prod.mk _) (hkeyed.setJobState _).symm

/-- `clean_job` has the same status and graph without the buffers. -/
theorem cleanJob (h : g.Keyed) :
    g.graph.cleanJob jobId = ((g.cleanJob jobId).1, (g.cleanJob jobId).2.graph) := by
  rw [Graph.cleanJob, h.getJobPtr, GraphObject.cleanJob]
  cases g.getJobPtr jobId with
  | none => rfl
  | some job =>
    have hcleaned : ({ g with
        tbufs := adjust g.tbufs job.bufHandle fun tbuf => { tbuf with isFree := true }
        sched := g.sched.erase jobId
        jobs := erase g.jobs job.id } : GraphObject).graph =
        ((g.graph.setTbufFree job.bufHandle true).deleteFromSchedQueueInner jobId).eraseJob
          job.id := by
      dsimp only [GraphObject.graph]
      rw [h.setTbufFree, values_erase h.jobs]
      rfl
    dsimp only
    rw [← hcleaned]
    cases job.state <;> rfl

end GraphObject.Keyed

end Aipu
