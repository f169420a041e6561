import AipuDriver.Lib.KeyedList
import AipuDriver.Lib.OrderedMap
import AipuDriver.Lib.Transition
import AipuDriver.Lib.UnusedId
import AipuDriver.Umd.Graph

/-!
# Contexts and their handles (`ctx_ref_map.cpp`, `standard_api_impl.cpp`)

The application knows a context by a handle object, which holds a number of 32 bits, and a map from
these numbers leads to the contexts.  Any number of threads call the functions of the API.  The lock
of the map is held while it is searched or changed; the pointer that a search has found is used
without it.

A step is one critical section of the lock, or one statement outside of it.  The call of a member
function of a context has two steps, its start and its end, and each reads the context.  Objects are
numbered and numbers are not used again; a read tells whether its object exists.
-/

namespace Aipu

open KeyedList OrderedMap Transition UnusedId

/-! ## Calls -/

/-- The member functions of `MainContext` that the API calls. -/
inductive ContextMember
  | init
  | deinit
  | configSimulation
  | setRuntimeConfig
  | loadGraph
  | unloadGraph
  | allocTensorBuffers
  | freeTensorBuffers
  | createNewJob
  | flushJob
  | waitForJobEnd
  | pollJobStatus
  | cleanJob
  | setDumpOptions
  | getDebugInfo
  | getDevStatus
deriving DecidableEq, Repr

/-- The functions of the API that work on a context, without `AIPU_init_ctx` and
`AIPU_deinit_ctx`. -/
inductive ApiFunction
  | configSimulation
  | setRuntimeConfig
  | loadGraph
  | loadGraphHelper
  | unloadGraph
  | allocTensorBuffers
  | freeTensorBuffers
  | createJob
  | flushJob
  | getJobStatus
  | finishJob
  | pollJobsStatus
  | cleanJob
  | setDumpOptions
  | getDebugInfo
  | getDevStatus
deriving DecidableEq, Repr

/-- The pointer arguments besides the handle. -/
inductive ApiArg
  | config
  | graph
  | graphFile
  | gdesc
  | info
  | jobId
  | status
  | jobCnt
  | option
  | value
deriving DecidableEq, Repr

/-- The arguments that a function compares with `nullptr`. -/
def ApiFunction.checkedArgs : ApiFunction → List ApiArg
  | .configSimulation | .setRuntimeConfig => [.config]
  | .loadGraph => [.graph, .gdesc]
  | .loadGraphHelper => [.graphFile, .gdesc]
  | .unloadGraph => [.gdesc]
  | .allocTensorBuffers => [.info, .gdesc]
  | .createJob => [.jobId, .gdesc]
  | .getJobStatus => [.status]
  | .getDebugInfo => [.info]
  | .getDevStatus => [.value]
  | .freeTensorBuffers | .flushJob | .finishJob | .pollJobsStatus | .cleanJob | .setDumpOptions =>
    []

/-- The first member function that a function calls. -/
def ApiFunction.first : ApiFunction → ContextMember
  | .configSimulation => .configSimulation
  | .setRuntimeConfig => .setRuntimeConfig
  | .loadGraph | .loadGraphHelper => .loadGraph
  | .unloadGraph => .unloadGraph
  | .allocTensorBuffers => .allocTensorBuffers
  | .freeTensorBuffers => .freeTensorBuffers
  | .createJob => .createNewJob
  | .flushJob | .finishJob => .flushJob
  | .getJobStatus => .waitForJobEnd
  | .pollJobsStatus => .pollJobStatus
  | .cleanJob => .cleanJob
  | .setDumpOptions => .setDumpOptions
  | .getDebugInfo => .getDebugInfo
  | .getDevStatus => .getDevStatus

/-- A call in progress: `AIPU_init_ctx` with the handle that it has made, or a function with its
handle object. -/
inductive ApiCall
  | initCtx (handle : ℕ)
  | deinitCtx (obj : ℕ)
  | function (f : ApiFunction) (obj : ℕ)
deriving DecidableEq, Repr

/-- What a thread does next. -/
inductive ApiPc
  /-- `AIPU_init_ctx` looks up the handle that it has made. -/
  | getCtxRef (handle : ℕ)
  /-- `AIPU_load_graph_helper` maps the file. -/
  | mmapFile (obj ctx : ℕ)
  /-- The member function of the context is called. -/
  | enter (call : ApiCall) (m : ContextMember) (ctx : ℕ)
  /-- It is running. -/
  | inside (call : ApiCall) (m : ContextMember) (ctx : ℕ)
  /-- `AIPU_init_ctx` takes the handle back. -/
  | destroyNew (handle : ℕ) (ret : AipuStatus)
  /-- `AIPU_deinit_ctx` takes the handle back. -/
  | destroyOld (obj : ℕ)
  /-- `new aipu_ctx_handle_t` for the context. -/
  | newHandle (handle ctx : ℕ)
  /-- `delete ctx` -/
  | deleteHandle (obj : ℕ)
deriving DecidableEq, Repr

/-- What a callee answers. -/
structure ApiReply where
  ret : AipuStatus := .success
  /-- `status` is `AIPU_JOB_STATUS_DONE` after `wait_for_job_end`. -/
  done : Bool := true
deriving DecidableEq, Repr

/-! ## State -/

/-- The contexts of a process, with `CtxRefMap` and the threads. -/
structure CtxRefs where
  /-- `data` -/
  data : OrderedMap ℕ ℕ := ∅
  /-- The `MainContext` objects that exist. -/
  contexts : List ℕ := []
  /-- The `aipu_ctx_handle_t` objects that exist, with their handles. -/
  handles : List (ℕ × ℕ) := []
  nextContext : ℕ := 0
  nextObj : ℕ := 0
  threads : List (ℕ × ApiPc) := []
  /-- The destructor of the map has run. -/
  exited : Bool := false

/-- What the threads do. -/
inductive ApiEvent
  | newCtx (ctx : ℕ)
  | deletedCtx (ctx : ℕ) (alive : Bool)
  /-- `AIPU_init_ctx` hands out a handle object for the context. -/
  | opened (obj ctx : ℕ)
  /-- The handle object was deleted. -/
  | closed (obj : ℕ) (alive : Bool)
  /-- `ctx->handle` was read. -/
  | readHandle (obj : ℕ) (alive : Bool)
  /-- `get_ctx_ref` has returned a null pointer. -/
  | notFound (handle : ℕ)
  /-- A call on the handle object has found the context. -/
  | reached (obj ctx : ℕ)
  /-- The context was read. -/
  | deref (ctx : ℕ) (alive : Bool)
  | returned (tid : ℕ) (ret : AipuStatus)
deriving DecidableEq, Repr

/-- The thread goes on at `pc`. -/
def CtxRefs.goto (s : CtxRefs) (tid : ℕ) (pc : ApiPc) : CtxRefs :=
  { s with threads := insert s.threads tid pc }

/-- The call of the thread returns. -/
def CtxRefs.answer (s : CtxRefs) (tid : ℕ) : CtxRefs := { s with threads := erase s.threads tid }

/-! ## The map -/

/-- `create_ctx_ref` finds the handle: the search goes down from the last one. -/
def CtxRefs.unusedHandle (s : CtxRefs) : Option ℕ :=
  (firstUnused (fun i => (s.data.lookup (uint32Size - 1 - i)).isSome) uint32Size
    (s.data.entries.length + 1) 0).map (uint32Size - 1 - ·)

/-- `create_ctx_ref` at the handle that it has found. -/
def CtxRefs.createCtxRef (s : CtxRefs) (handle : ℕ) : CtxRefs × List ApiEvent :=
  ({ s with
    data := s.data.insert handle s.nextContext
    contexts := s.nextContext :: s.contexts
    nextContext := s.nextContext + 1 }, [.newCtx s.nextContext])

/-- `destroy_ctx_ref`; its status is not used. -/
def CtxRefs.destroyCtxRef (s : CtxRefs) (handle : ℕ) : CtxRefs × List ApiEvent :=
  match s.data.lookup handle with
  | none => (s, [])
  | some ctx =>
    ({ s with data := s.data.erase handle, contexts := s.contexts.filter (· ≠ ctx) },
      [.deletedCtx ctx (s.contexts.contains ctx)])

/-- `~CtxRefMap`: each context is deinitialised and deleted. -/
def CtxRefs.destroyAll (s : CtxRefs) : CtxRefs × List ApiEvent :=
  ({ s with
    data := ∅
    contexts := s.contexts.filter fun ctx => ctx ∉ s.data.entries.map Prod.snd
    exited := true },
    s.data.entries.flatMap fun e =>
      [.deref e.2 (s.contexts.contains e.2), .deletedCtx e.2 (s.contexts.contains e.2)])

/-! ## Steps of a thread -/

/-- The value of `ctx->handle`, which is `stale` if the object does not exist. -/
def CtxRefs.handleOf (s : CtxRefs) (obj stale : ℕ) : ℕ := (lookup s.handles obj).getD stale

/-- The handle object is read, and the context that it leads to is looked up. -/
def CtxRefs.start (s : CtxRefs) (tid obj stale : ℕ) (pc : ℕ → ApiPc) :
    CtxRefs × List ApiEvent :=
  let read := ApiEvent.readHandle obj (lookup s.handles obj).isSome
  match s.data.lookup (s.handleOf obj stale) with
  | none => (s, [read, .notFound (s.handleOf obj stale), .returned tid .errorInvalidCtx])
  | some ctx => (s.goto tid (pc ctx), [read, .reached obj ctx])

/-- `AIPU_init_ctx` up to the return of `create_ctx_ref`; it is `none` where the search does not
end. -/
def CtxRefs.initCtx (s : CtxRefs) (tid : ℕ) (outNull : Bool) : Option (CtxRefs × List ApiEvent) :=
  if outNull then some (s, [.returned tid .errorNullPtr])
  else match s.unusedHandle with
    | none => none
    | some handle =>
      let (s, es) := s.createCtxRef handle
      some (s.goto tid (.getCtxRef handle), es)

/-- `AIPU_deinit_ctx` up to the return of `get_ctx_ref`. -/
def CtxRefs.deinitCtx (s : CtxRefs) (tid : ℕ) (ctx : Option ℕ) (stale : ℕ) :
    CtxRefs × List ApiEvent :=
  match ctx with
  | none => (s, [.returned tid .errorNullPtr])
  | some obj => s.start tid obj stale (.enter (.deinitCtx obj) .deinit)

/-- Where a function goes on when it has found the context. -/
def ApiFunction.found (f : ApiFunction) (obj ctx : ℕ) : ApiPc :=
  if f = .loadGraphHelper then .mmapFile obj ctx else .enter (.function f obj) f.first ctx

/-- Another function up to the return of `get_ctx_ref`; the arguments `nulls` are null. -/
def CtxRefs.callFunction (s : CtxRefs) (tid : ℕ) (f : ApiFunction) (ctx : Option ℕ)
    (nulls : List ApiArg) (stale : ℕ) : CtxRefs × List ApiEvent :=
  match ctx with
  | none => (s, [.returned tid .errorNullPtr])
  | some obj =>
    if ∃ arg ∈ f.checkedArgs, arg ∈ nulls then (s, [.returned tid .errorNullPtr])
    else s.start tid obj stale (f.found obj)

/-- What a call does when the member function has returned. -/
def CtxRefs.afterMember (s : CtxRefs) (tid : ℕ) (m : ContextMember) (ctx : ℕ) (reply : ApiReply) :
    ApiCall → CtxRefs × List ApiEvent
  | .initCtx handle =>
    if reply.ret = .success then (s.goto tid (.newHandle handle ctx), [])
    else (s.goto tid (.destroyNew handle reply.ret), [])
  | .deinitCtx obj =>
    if reply.ret = .success then (s.goto tid (.destroyOld obj), [])
    else (s.answer tid, [.returned tid reply.ret])
  | .function f obj =>
    if f = .finishJob ∧ m = .flushJob ∧ reply.ret = .success then
      (s.goto tid (.enter (.function f obj) .waitForJobEnd ctx), [])
    else if f = .finishJob ∧ m = .waitForJobEnd ∧ reply.ret = .success ∧ reply.done = false then
      (s.answer tid, [.returned tid .errorJobException])
    else (s.answer tid, [.returned tid reply.ret])

/-- The next step of a thread. -/
def CtxRefs.next (s : CtxRefs) (tid : ℕ) (reply : ApiReply) (stale : ℕ) :
    ApiPc → CtxRefs × List ApiEvent
  | .getCtxRef handle =>
    match s.data.lookup handle with
    | none => (s.answer tid, [.notFound handle, .returned tid .errorInvalidCtx])
    | some ctx => (s.goto tid (.enter (.initCtx handle) .init ctx), [])
  | .mmapFile obj ctx =>
    if reply.ret = .success then
      (s.goto tid (.enter (.function .loadGraphHelper obj) .loadGraph ctx), [])
    else (s.answer tid, [.returned tid reply.ret])
  | .enter call m ctx =>
    (s.goto tid (.inside call m ctx), [.deref ctx (s.contexts.contains ctx)])
  | .inside call m ctx =>
    let (s', es) := s.afterMember tid m ctx reply call
    (s', .deref ctx (s.contexts.contains ctx) :: es)
  | .destroyNew handle ret =>
    let (s, es) := s.destroyCtxRef handle
    (s.answer tid, es ++ [.returned tid ret])
  | .destroyOld obj =>
    let read := ApiEvent.readHandle obj (lookup s.handles obj).isSome
    let (s, es) := s.destroyCtxRef (s.handleOf obj stale)
    (s.goto tid (.deleteHandle obj), read :: es)
  | .newHandle handle ctx =>
    (CtxRefs.answer { s with
      handles := insert s.handles s.nextObj handle
      nextObj := s.nextObj + 1 } tid, [.opened s.nextObj ctx, .returned tid .success])
  | .deleteHandle obj =>
    (CtxRefs.answer { s with handles := erase s.handles obj } tid,
      [.closed obj (lookup s.handles obj).isSome, .returned tid .success])

/-! ## The system -/

/-- A thread calls a function of the API or makes its next step, or the process ends.  `stale` is
what is read from a handle object that does not exist. -/
inductive ApiAction
  | initCtx (tid : ℕ) (outNull : Bool)
  | deinitCtx (tid : ℕ) (ctx : Option ℕ) (stale : ℕ)
  | callFunction (tid : ℕ) (f : ApiFunction) (ctx : Option ℕ) (nulls : List ApiArg) (stale : ℕ)
  | next (tid : ℕ) (reply : ApiReply) (stale : ℕ)
  | exit
deriving DecidableEq, Repr

/-- One step. -/
def apiStep (s : CtxRefs) (a : ApiAction) : Option (CtxRefs × List ApiEvent) :=
  if s.exited then none
  else match a with
    | .initCtx tid outNull =>
      if (lookup s.threads tid).isSome then none else s.initCtx tid outNull
    | .deinitCtx tid ctx stale =>
      if (lookup s.threads tid).isSome then none else some (s.deinitCtx tid ctx stale)
    | .callFunction tid f ctx nulls stale =>
      if (lookup s.threads tid).isSome then none
      else some (s.callFunction tid f ctx nulls stale)
    | .next tid reply stale => (lookup s.threads tid).map (s.next tid reply stale)
    | .exit => some s.destroyAll

/-- The runs of a process. -/
def apiSystem : System CtxRefs ApiAction ApiEvent where
  init s := s = {}
  step := apiStep

end Aipu
