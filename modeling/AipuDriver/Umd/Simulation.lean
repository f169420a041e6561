import AipuDriver.Lib.RoundUp
import AipuDriver.Umd.Unload

/-!
# The simulated address space (`device_ctrl.cpp`, `graph.cpp`, x86 build)

The simulation has no kernel.  Its physical addresses come from one counter of 32 bits, which each
buffer moves on; `free_buf` gives memory back to the host, but no addresses to the counter.  The
stack, the static buffers and the reuse buffers of a graph share one host buffer, whose size moves
the counter a second time.

What the host answers (the addresses of `new`, and whether the input file of the simulator could be
written) is an argument.  A call is `none` where it does not return or what it does is not defined.
-/

namespace Aipu

open KeyedList Transition UnusedId Word

/-! ## Buffers -/

/-- `ALIGN_PAGE` -/
def alignPage (bytes : ℕ) : ℕ := maskAlign 32 bytes 4096

/-- What the host does for the loading of a graph. -/
structure HostAnswers where
  /-- What `umd_dump_file_helper` returns. -/
  dump : AipuStatus := .success
  rodataVa : ℕ
  dataVa : ℕ

/-- `malloc_buf` with the counter, which is moved, and the address that `new` returns. -/
def simulationMallocBuf (top size va : ℕ) : Except AipuStatus (BufferDesc × ℕ) :=
  if size = 0 then .error .errorInvalidSize
  else .ok ({ va := va, pa := top, size := alignPage size, realSize := size },
    wrap 32 (top + alignPage size))

/-- A buffer with an address of its own from the counter on, and the counter after it. -/
def placeBuf (top size alignInPage : ℕ) : Option (BufferDesc × ℕ) :=
  (getAlignedAddr top alignInPage).map fun pa =>
    ({ pa := pa, size := alignPage size, realSize := size }, wrap 32 (pa + alignPage size))

/-- The buffers of sections, one after the other. -/
def placeSections : ℕ → List SectionDesc → Option (List BufferDesc × ℕ)
  | top, [] => some ([], top)
  | top, sec :: rest => do
    let (buf, top) ← placeBuf top sec.size.toNat sec.alignInPage.toNat
    let (bufs, top) ← placeSections top rest
    some (buf :: bufs, top)

/-- The group that begins with a buffer; its address is copied before that of the buffer is set. -/
def placedGroup (first : BufferDesc) (top : ℕ) : BufferDesc where
  pa := first.pa
  size := wrapSub 64 top first.pa
  realSize := wrapSub 64 top first.pa

/-- What `simulation_alloc_data_buffer` sets. -/
structure DataBuffers where
  rodata : BufferDesc
  descriptor : BufferDesc
  stack : BufferDesc
  staticBuf : List BufferDesc
  staticGroup : BufferDesc
  reuseBuf : List BufferDesc
  reuseGroup : BufferDesc
  data : BufferDesc

/-- The address of a buffer in the host buffer. -/
def childVa (data buf : BufferDesc) : BufferDesc :=
  { buf with va := wrap 64 (data.va + wrapSub 32 buf.pa data.pa) }

/-- The host buffer, which begins where the stack does. -/
def DataBuffers.hostBuf (bufs : DataBuffers) (buf : BufferDesc) : BufferDesc :=
  { buf with pa := bufs.stack.pa }

/-- The buffers get their addresses in the host buffer. -/
def DataBuffers.setVa (bufs : DataBuffers) (buf : BufferDesc) : DataBuffers :=
  { bufs with
    stack := { bufs.stack with va := buf.va }
    staticBuf := bufs.staticBuf.map (childVa (bufs.hostBuf buf))
    reuseBuf := bufs.reuseBuf.map (childVa (bufs.hostBuf buf))
    data := bufs.hostBuf buf }

/-- The host buffer of `size` bytes is allocated, which moves the counter again. -/
def DataBuffers.allocHost (bufs : DataBuffers) (top size va : ℕ) :
    ℕ × Except AipuStatus DataBuffers :=
  match simulationMallocBuf top size va with
  | .error e => (top, .error e)
  | .ok (buf, top) => (top, .ok (bufs.setVa buf))

/-- The descriptor behind the rodata. -/
def simulationDescriptor (templ : TbufAllocTempl) (rodata : BufferDesc) : BufferDesc :=
  if templ.dcrSize ≠ 0 then
    { va := wrap 64 (rodata.va + templ.rodataSize.toNat)
      pa := wrap 64 (rodata.pa + templ.rodataSize.toNat)
      size := templ.dcrSize.toNat, realSize := templ.dcrSize.toNat }
  else {}

/-- The simulated addresses of the stack, static and reuse buffers, with the groups, and the counter
after them. -/
def placeData (top : ℕ) (info : GraphInfo) (rodata : BufferDesc) : Option (ℕ × DataBuffers) := do
  let templ := info.tbufTempl
  let (stack, top) ← placeBuf top templ.stackSize.toNat templ.stackAlignInPage.toNat
  let (staticBuf, top) ← placeSections top info.pbufTempl.staticSections
  let staticGroup := (staticBuf.head?.map (placedGroup · top)).getD {}
  let (reuseBuf, top) ← placeSections top templ.reuseSections
  let reuseGroup ← reuseBuf.head?.map (placedGroup · top)
  some (top, { rodata, descriptor := simulationDescriptor templ rodata, stack, staticBuf,
               staticGroup, reuseBuf, reuseGroup, data := {} })

/-- `simulation_alloc_data_buffer`: the counter after it, and the buffers. -/
def simulationAllocDataBuffer (top : ℕ) (info : GraphInfo) (host : HostAnswers) :
    Option (ℕ × Except AipuStatus DataBuffers) :=
  let templ := info.tbufTempl
  match simulationMallocBuf top (templ.rodataSize + templ.dcrSize).toNat host.rodataVa with
  | .error e => some (top, .error e)
  | .ok (rodata, top) =>
    (placeData top info rodata).map fun (top, bufs) =>
      bufs.allocHost top (wrapSub 32 top bufs.stack.pa) host.dataVa

/-! ## Graphs -/

/-- A graph, and the host buffer for its data. -/
structure SimulatedGraph where
  object : GraphObject
  data : BufferDesc
deriving DecidableEq, Repr

/-- What `DeviceCtrl` and the context keep: `simulation_malloc_top`, and the graphs by their ids. -/
structure Simulator where
  top : ℕ
  graphs : List (ℕ × SimulatedGraph)
deriving DecidableEq, Repr

/-- `create_unique_graph_id_inner` -/
def Simulator.createUniqueGraphIdInner (s : Simulator) : Option ℕ :=
  firstUnused (fun id => (lookup s.graphs id).isSome) uint32Size (s.graphs.length + 1) 1

/-- `load_graph` for a graph that was parsed.  Each error leaves the counter where it is then. -/
def Simulator.loadGraph (s : Simulator) (info : GraphInfo) (host : HostAnswers) :
    Option (AipuStatus × Simulator) := do
  let id ← s.createUniqueGraphIdInner
  let templ := info.pbufTempl
  if templ.textSize = 0 then some (.errorInvalidSize, s)
  else
    let text : BufferDesc :=
      { va := templ.textSrc, pa := s.top, size := alignPage templ.textSize.toNat
        realSize := templ.textSize.toNat }
    let top := wrap 32 (s.top + text.size)
    match loadTextBuffer templ.textSrc templ.textSize text, host.dump with
    | .success, .success =>
      match ← simulationAllocDataBuffer top info host with
      | (top, .error e) => some (e, { s with top })
      | (top, .ok bufs) =>
        let iobuf ← createIobufInfos bufs.reuseBuf info
        let object : GraphObject := { id, info, pbuf := {
          text, staticBuf := bufs.staticBuf, staticGroup := bufs.staticGroup } }
        let handle ← object.createBufHandleInner
        let tbuf : ThreadBufferInfo :=
          { handle, isFree := true, stack := bufs.stack, rodata := bufs.rodata
            descriptor := bufs.descriptor, reuseBuf := bufs.reuseBuf
            reuseGroup := bufs.reuseGroup, iobuf }
        some (.success, {
          top, graphs := insert s.graphs id { object := { object with tbufs := [(handle, tbuf)] }
                                              data := bufs.data } })
    | .success, e => some (e, { s with top })
    | e, _ => some (e, { s with top })

/-- `simulation_free_data_buffer` -/
def SimulatedGraph.simulationFreeDataBuffer (g : SimulatedGraph) : AipuStatus × SimulatedGraph :=
  if g.data.va = 0 then (.success, g)
  else match freeBuf g.data true with
    | .success => (.success, { g with data := { g.data with va := 0, pa := 0, size := 0 } })
    | e => (e, g)

/-- `free_thread_buffer` -/
def SimulatedGraph.freeThreadBuffer (g : SimulatedGraph) (handle : ℕ) :
    AipuStatus × SimulatedGraph :=
  match g.object.getTbufPtr handle with
  | none => (.errorInvalidHandle, g)
  | some tbuf =>
    if tbuf.isFree then
      match freeBuf tbuf.rodata true with
      | .success =>
        match g.simulationFreeDataBuffer with
        | (.success, g) =>
          (.success, { g with object := { g.object with tbufs := erase g.object.tbufs handle } })
        | (e, g) => (e, g)
      | e => (e, g)
    else (.errorBusyHandle, g)

/-- The text is not freed, but its address is cleared. -/
def SimulatedGraph.clearText (g : SimulatedGraph) : SimulatedGraph :=
  let object := g.object.clearJobs
  { g with object := { object with pbuf := { object.pbuf with
      text := { object.pbuf.text with va := 0, pa := 0, size := 0 } } } }

/-- `unload`.  A graph has one thread buffer, and the loop is taken to end after it, although the
increment of the iterator there is not defined (`unloadTbufs`). -/
def SimulatedGraph.unload (g : SimulatedGraph) : AipuStatus × SimulatedGraph :=
  if g.object.isUnloadOk then
    match (g.object.tbufs.map Prod.fst).min? with
    | none => (.success, g.clearText)
    | some handle => g.clearText.freeThreadBuffer handle
  else (.errorInvalidOp, g)

/-- `unload_graph` -/
def Simulator.unloadGraph (s : Simulator) (id : ℕ) : AipuStatus × Simulator :=
  match lookup s.graphs id with
  | none => (.errorGraphNotExist, s)
  | some g =>
    match g.unload with
    | (.success, _) => (.success, { s with graphs := erase s.graphs id })
    | (e, g) => (e, { s with graphs := insert s.graphs id g })

/-! ## Runs -/

/-- A call of the application. -/
inductive SimulatorCall
  | loadGraph (info : GraphInfo) (host : HostAnswers)
  | unloadGraph (id : ℕ)

/-- One call, which returns its status. -/
def simulatorStep (s : Simulator) : SimulatorCall → Option (Simulator × List AipuStatus)
  | .loadGraph info host => (s.loadGraph info host).map fun (ret, s) => (s, [ret])
  | .unloadGraph id => some ((s.unloadGraph id).2, [(s.unloadGraph id).1])

/-- The calls between `init` and `deinit`. -/
def simulatorSystem : System Simulator SimulatorCall AipuStatus where
  init s := s = { top := 0, graphs := [] }
  step := simulatorStep

end Aipu
