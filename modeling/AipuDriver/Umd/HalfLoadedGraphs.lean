import AipuDriver.Lib.KeyedList
import AipuDriver.Lib.OrderedMap
import AipuDriver.Lib.Transition
import AipuDriver.Umd.Context

/-!
# Graphs that are being loaded (`context.cpp`)

Any number of threads call the functions of one context.  `load_graph` stores a null pointer under
the new id, gives `gt_lock` back while it creates the graph object, and takes the lock again to
store the pointer to the object or to erase the id.  A step is one critical section of `gt_lock`, or
one call that a function makes outside of it.

A pointer is the address of a graph object, or zero, and a thread that dereferences zero crashes the
process.  What the member functions of a graph and the kernel answer is part of the action, and so
are the graphs that refuse to be unloaded.  The arguments of the calls are not null.

`get_graph_object` hands a null pointer to callers that all test it, and `get_max_poll_job_cnt`
skips it. `is_deinit_ok` and `force_deinit` walk over the same table without such a test, and
`KeepsLoads` is the exact condition under which they meet no null pointer.
-/

namespace Aipu

open KeyedList OrderedMap Transition UnusedId

/-! ## Calls and threads -/

/-- A member function of `Graph` that a call of the context makes on the pointer it has got. -/
inductive GraphMember
  | allocThreadBuffer
  | freeThreadBuffer
  | buildNewJob
  | flushJob
  | cleanJob
  | setDumpOptions
  | getDebugInfo
  | isJobSched
  | isJobEnd
  | getJobStatus
  | waitForJobEndSleep
  /-- `update_job_status` with a record. -/
  | updateJobStatus
  /-- `update_job_status` with `JOB_STATE_TIMEOUT`. -/
  | setTimeout
  | dumpEndJobBuffers
deriving DecidableEq, Repr

/-- A call that finds one graph and makes calls on it. -/
inductive ContextCall
  | allocTensorBuffers (id : ℕ)
  | freeTensorBuffers (handle : ℕ)
  | createNewJob (id handle : ℕ)
  | flushJob (jobId : ℕ)
  | waitForJobEnd (jobId : ℕ)
  | cleanJob (jobId : ℕ)
  | setDumpOptions (jobId : ℕ)
  | getDebugInfo (jobId : ℕ)
deriving DecidableEq, Repr

/-- The id that the call looks up. -/
def ContextCall.graphId : ContextCall → ℕ
  | .allocTensorBuffers id | .createNewJob id _ => id
  | .freeTensorBuffers handle => handle2graphId handle
  | .flushJob jobId | .waitForJobEnd jobId | .cleanJob jobId | .setDumpOptions jobId
  | .getDebugInfo jobId =>
    jobId2graphId jobId

/-- The status when there is no such graph. -/
def ContextCall.notFound : ContextCall → AipuStatus
  | .allocTensorBuffers _ | .createNewJob _ _ => .errorGraphNotExist
  | .freeTensorBuffers _ => .errorInvalidHandle
  | _ => .errorJobNotExist

/-- The first member function that the call makes. -/
def ContextCall.first : ContextCall → GraphMember
  | .allocTensorBuffers _ => .allocThreadBuffer
  | .freeTensorBuffers _ => .freeThreadBuffer
  | .createNewJob _ _ => .buildNewJob
  | .flushJob _ => .flushJob
  | .waitForJobEnd _ => .isJobSched
  | .cleanJob _ => .cleanJob
  | .setDumpOptions _ => .setDumpOptions
  | .getDebugInfo _ => .getDebugInfo

/-- What a thread does next. -/
inductive GraphPc
  /-- In `load_graph`, after the id was published. -/
  | createGraphObject (id : ℕ)
  | eraseFailed (id : ℕ) (ret : AipuStatus)
  /-- `graphs[id] = gobj` -/
  | storeGobj (id gobj : ℕ)
  | getGraphDesc (gobj : ℕ)
  /-- In `unload_graph`, after the graph was found. -/
  | destroyGraphObject (id gobj : ℕ)
  | eraseUnloaded (id : ℕ)
  /-- In `deinit`, after `is_deinit_ok`. -/
  | forceDeinit
  | member (f : GraphMember) (gobj : ℕ)
  /-- In `wait_for_job_end`: `poll_status`. -/
  | pollOne (gobj : ℕ)
  /-- In `poll_job_status`: `poll_status`. -/
  | pollAll
  /-- The loop over the records, given by the ids of their jobs. -/
  | nextRecord (records : List ℕ)
  | updateRecord (gobj : ℕ) (rest : List ℕ)
deriving DecidableEq, Repr

/-- The graph pointer that the thread holds. -/
def GraphPc.gobj : GraphPc → Option ℕ
  | .storeGobj _ gobj | .getGraphDesc gobj | .destroyGraphObject _ gobj | .member _ gobj
  | .pollOne gobj
  | .updateRecord gobj _ => some gobj
  | _ => none

/-- The id whose graph the thread is loading. -/
def GraphPc.loads : GraphPc → Option ℕ
  | .createGraphObject id | .eraseFailed id _ | .storeGobj id _ => some id
  | _ => none

/-- What the callee of a step answers. -/
structure CalleeReply where
  ret : AipuStatus := .success
  /-- The address that `new Graph` has got. -/
  gobj : ℕ := 0
  /-- The value of `is_job_end`. -/
  isEnd : Bool := false
  /-- The jobs of the records that `poll_status` returns. -/
  records : List ℕ := []
deriving DecidableEq, Repr

/-! ## State -/

/-- A context with its threads. -/
structure SharedContext where
  /-- The graph pointers by their ids. -/
  graphs : OrderedMap ℕ ℕ := ∅
  /-- `rt_cfg.poll_opt` -/
  pollOpt : Bool := false
  threads : List (ℕ × GraphPc) := []
  /-- A null pointer was dereferenced. -/
  crashed : Bool := false

/-- What the threads do. -/
inductive SharedEvent
  | deref (tid gobj : ℕ)
  | returned (tid : ℕ) (ret : AipuStatus)
deriving DecidableEq, Repr

/-- A step of a thread: the graph pointers that it dereferences, the state after it if none of them
is null, and the status if the call returns. -/
structure GraphStep where
  reads : List ℕ := []
  after : SharedContext
  ret : Option AipuStatus := none

/-- The step is made; a null pointer crashes. -/
def SharedContext.perform (s : SharedContext) (tid : ℕ) (step : GraphStep) :
    SharedContext × List SharedEvent :=
  if 0 ∈ step.reads then ({ s with crashed := true }, step.reads.map (.deref tid))
  else (step.after, step.reads.map (.deref tid) ++ (step.ret.map (.returned tid)).toList)

/-- The thread goes on at `pc`. -/
def SharedContext.goto (s : SharedContext) (tid : ℕ) (pc : GraphPc) : GraphStep where
  after := { s with threads := insert s.threads tid pc }

/-- The call of the thread returns. -/
def SharedContext.answer (s : SharedContext) (tid : ℕ) (ret : AipuStatus) : GraphStep where
  after := { s with threads := erase s.threads tid }
  ret := some ret

/-- The step also dereferences the pointers. -/
def GraphStep.reading (step : GraphStep) (gobjs : List ℕ) :
    GraphStep := { step with reads := gobjs }

/-! ## The table of graphs -/

/-- `create_unique_graph_id_inner` -/
def SharedContext.createUniqueGraphIdInner (s : SharedContext) : Option ℕ :=
  firstUnused (fun id => (s.graphs.lookup id).isSome) uint32Size (s.graphs.entries.length + 1) 1

/-- `get_graph_object` -/
def SharedContext.getGraphObject (s : SharedContext) (id : ℕ) : ℕ := (s.graphs.lookup id).getD 0

/-- `load_graph` up to the end of its first critical section; `ret` is what `parse_graph`
returns. -/
def SharedContext.loadGraph (s : SharedContext) (tid : ℕ) (ret : AipuStatus) : Option GraphStep :=
  if ret = .success then
    match s.createUniqueGraphIdInner with
    | none => none
    | some id => some
      (SharedContext.goto { s with graphs := s.graphs.insert id 0 } tid (.createGraphObject id))
  else some (s.answer tid ret)

/-- `unload_graph` up to the test of the pointer. -/
def SharedContext.unloadGraph (s : SharedContext) (tid id : ℕ) : GraphStep :=
  if s.getGraphObject id = 0 then s.answer tid .errorGraphNotExist
  else s.goto tid (.destroyGraphObject id (s.getGraphObject id))

/-- The pointers that `is_deinit_ok` dereferences; it ends at the first graph that refuses to be
unloaded. -/
def SharedContext.deinitReads (s : SharedContext) (busy : List ℕ) : List ℕ :=
  visited (fun gobj => gobj == 0 || busy.contains gobj) s.graphs.entries

/-- `deinit` up to the result of `is_deinit_ok`; the graphs at `busy` refuse to be unloaded. -/
def SharedContext.deinit (s : SharedContext) (tid : ℕ) (busy : List ℕ) : GraphStep :=
  (if (s.deinitReads busy).any busy.contains then s.answer tid .errorDeinitFail
    else s.goto tid .forceDeinit).reading (s.deinitReads busy)

/-- `force_deinit` -/
def SharedContext.forceDeinit (s : SharedContext) (tid : ℕ) : GraphStep :=
  (SharedContext.answer { s with graphs := ∅ } tid .success).reading (s.graphs.entries.map Prod.snd)

/-- A call on one graph up to the test of the pointer. -/
def SharedContext.callGraph (s : SharedContext) (tid : ℕ) (call : ContextCall) : GraphStep :=
  if s.getGraphObject call.graphId = 0 then s.answer tid call.notFound
  else s.goto tid (.member call.first (s.getGraphObject call.graphId))

/-- `poll_job_status` up to `get_max_poll_job_cnt`, which tests the pointers. -/
def SharedContext.pollJobStatus (s : SharedContext) (tid : ℕ) : GraphStep :=
  (s.goto tid .pollAll).reading ((s.graphs.entries.map Prod.snd).filter (· ≠ 0))

/-! ## Steps of a thread -/

/-- What a call does when the member function has returned. -/
def SharedContext.afterMember (s : SharedContext) (tid : ℕ) (f : GraphMember) (gobj : ℕ)
    (reply : CalleeReply) :
    GraphStep :=
  match f with
  | .isJobSched =>
    if reply.ret = .success then s.goto tid (.member .isJobEnd gobj) else s.answer tid reply.ret
  | .isJobEnd =>
    if reply.isEnd then s.goto tid (.member .getJobStatus gobj)
    else if s.pollOpt then s.goto tid (.member .waitForJobEndSleep gobj)
    else s.goto tid (.pollOne gobj)
  | .getJobStatus | .waitForJobEndSleep | .updateJobStatus =>
    if reply.ret = .success then s.goto tid (.member .dumpEndJobBuffers gobj)
    else s.answer tid reply.ret
  | .setTimeout => s.answer tid .errorJobTimeout
  | .dumpEndJobBuffers => s.answer tid .success
  | _ => s.answer tid reply.ret

/-- The next step of a thread. -/
def SharedContext.next (s : SharedContext) (tid : ℕ) (reply : CalleeReply) :
    GraphPc → Option GraphStep
  | .createGraphObject id =>
    -- `new` returns no null pointer
    if reply.gobj = 0 then none
    else if reply.ret = .success then
      some ((s.goto tid (.storeGobj id reply.gobj)).reading [reply.gobj])
    -- `load`, and `unload` in `destroy_graph_object`
    else some ((s.goto tid (.eraseFailed id reply.ret)).reading [reply.gobj, reply.gobj])
  | .eraseFailed id ret =>
    some (SharedContext.answer { s with graphs := s.graphs.erase id } tid ret)
  | .storeGobj id gobj =>
    some (SharedContext.goto { s with graphs := s.graphs.insert id gobj } tid (.getGraphDesc gobj))
  | .getGraphDesc gobj => some ((s.answer tid .success).reading [gobj])
  | .destroyGraphObject id gobj =>
    some ((if reply.ret = .success then s.goto tid (.eraseUnloaded id)
      else s.answer tid reply.ret).reading [gobj])
  | .eraseUnloaded id =>
    some (SharedContext.answer { s with graphs := s.graphs.erase id } tid .success)
  | .forceDeinit => some (s.forceDeinit tid)
  | .member f gobj => some ((s.afterMember tid f gobj reply).reading [gobj])
  | .pollOne gobj =>
    if reply.ret = .success then
      some (s.goto tid
        (.member (if reply.records = [] then .setTimeout else .updateJobStatus) gobj))
    else some (s.answer tid reply.ret)
  | .pollAll =>
    if reply.ret = .success then some (s.goto tid (.nextRecord reply.records))
    else some (s.answer tid reply.ret)
  | .nextRecord [] => some (s.answer tid .success)
  | .nextRecord (jobId :: rest) =>
    if s.getGraphObject (jobId2graphId jobId) = 0 then some (s.answer tid .errorJobNotExist)
    else some (s.goto tid (.updateRecord (s.getGraphObject (jobId2graphId jobId)) rest))
  | .updateRecord gobj rest =>
    some ((if reply.ret = .success then s.goto tid (.nextRecord rest)
      else s.answer tid reply.ret).reading [gobj])

/-- A thread calls a function of the context, or makes its next step. -/
inductive SharedAction
  | setRuntimeConfig (pollOpt : Bool)
  | loadGraph (tid : ℕ) (ret : AipuStatus)
  | unloadGraph (tid id : ℕ)
  | deinit (tid : ℕ) (busy : List ℕ)
  | callGraph (tid : ℕ) (call : ContextCall)
  | pollJobStatus (tid : ℕ)
  | next (tid : ℕ) (reply : CalleeReply)
deriving DecidableEq, Repr

/-- What a thread does by the action. -/
def SharedContext.stepOf (s : SharedContext) : SharedAction → Option (ℕ × GraphStep)
  | .setRuntimeConfig _ => none
  | .loadGraph tid ret => if (lookup s.threads tid).isSome then none
    else (s.loadGraph tid ret).map (tid, ·)
  | .unloadGraph tid id => if (lookup s.threads tid).isSome then none
    else some (tid, s.unloadGraph tid id)
  | .deinit tid busy => if (lookup s.threads tid).isSome then none
    else some (tid, s.deinit tid busy)
  | .callGraph tid call => if (lookup s.threads tid).isSome then none
    else some (tid, s.callGraph tid call)
  | .pollJobStatus tid => if (lookup s.threads tid).isSome then none
    else some (tid, s.pollJobStatus tid)
  | .next tid reply => ((lookup s.threads tid).bind fun pc => s.next tid reply pc).map (tid, ·)

/-- One step of the threads. -/
def sharedStep (s : SharedContext) (a : SharedAction) : Option (SharedContext × List SharedEvent) :=
  if s.crashed then none
  else match a with
    | .setRuntimeConfig pollOpt => some ({ s with pollOpt := pollOpt }, [])
    | a => (s.stepOf a).map fun (tid, step) => s.perform tid step

/-- The threads of a context without graphs. -/
def sharedSystem : System SharedContext SharedAction SharedEvent where
  init s := ∃ pollOpt, s = { pollOpt := pollOpt }
  step := sharedStep

/-! ## The condition -/

/-- The id is in the table and its graph object is not. -/
def SharedContext.HalfLoaded (s : SharedContext) (id : ℕ) : Prop := (id, 0) ∈ s.graphs.entries

/-- A half-loaded graph comes after one that refuses to be unloaded when `is_deinit_ok` walks over
the table, and there is none when `force_deinit` does. -/
def SharedContext.KeepsLoads (s : SharedContext) : SharedAction → Prop
  | .deinit _ busy => ∀ e ∈ s.graphs.entries, e.2 = 0 → ∃ f ∈ s.graphs.entries, f.1 < e.1 ∧
    f.2 ∈ busy ∧ f.2 ≠ 0
  | .next tid _ => lookup s.threads tid = some .forceDeinit → ∀ e ∈ s.graphs.entries, e.2 ≠ 0
  | _ => True

instance keepsLoadsDecidable : DecidableRel SharedContext.KeepsLoads := fun s a => by
  rcases a <;> unfold SharedContext.KeepsLoads <;> infer_instance

/-- The id whose graph the thread is loading. -/
def SharedContext.loadOf (s : SharedContext) (tid : ℕ) :
    Option ℕ := (lookup s.threads tid).bind GraphPc.loads

/-- The threads hold no null pointer, and some thread is loading every half-loaded graph. -/
structure SharedContext.Tracked (s : SharedContext) : Prop where
  gobj : ∀ tid pc, lookup s.threads tid = some pc → pc.gobj ≠ some 0
  loading : ∀ id, s.HalfLoaded id → ∃ tid, s.loadOf tid = some id

variable {s s' : SharedContext} {tid : ℕ} {pc : GraphPc} {step : GraphStep}

/-! ## The invariant -/

@[simp]
theorem GraphStep.reading_after (step : GraphStep) (gobjs : List ℕ) :
    (step.reading gobjs).after = step.after := rfl

@[simp]
theorem GraphStep.reading_reads (step : GraphStep) (gobjs : List ℕ) :
    (step.reading gobjs).reads = gobjs := rfl

@[simp]
theorem SharedContext.goto_reads (s : SharedContext) (tid : ℕ) (pc : GraphPc) :
    (s.goto tid pc).reads = [] := rfl

@[simp]
theorem SharedContext.answer_reads (s : SharedContext) (tid : ℕ) (ret : AipuStatus) :
    (s.answer tid ret).reads = [] := rfl

/-- A thread goes on with another table. -/
theorem SharedContext.Tracked.goto (h : s.Tracked) (m : OrderedMap ℕ ℕ) (hgobj : pc.gobj ≠ some 0)
    (hhalf : ∀ id, (id, 0) ∈ m.entries → pc.loads = some id ∨ s.HalfLoaded id ∧
      s.loadOf tid ≠ some id) :
    (SharedContext.goto { s with graphs := m } tid pc).after.Tracked := by
  refine ⟨fun tid' pc' hpc' => ?_, fun id hid => ?_⟩
  · rw [SharedContext.goto, lookup_insert] at hpc'
    split at hpc'
    · rwa [← Option.some.inj hpc']
    · exact h.gobj tid' pc' hpc'
  · rcases hhalf id hid with hload | ⟨hold, hne⟩
    · exact ⟨tid, by simp [SharedContext.loadOf, SharedContext.goto, lookup_insert, hload]⟩
    · obtain ⟨tid', htid'⟩ := h.loading id hold
      have hother : tid' ≠ tid := fun heq => hne (heq ▸ htid')
      refine ⟨tid', ?_⟩
      rw [SharedContext.loadOf, SharedContext.goto, lookup_insert, if_neg hother]
      exact htid'

/-- A call returns with another table. -/
theorem SharedContext.Tracked.answer (h : s.Tracked) (m : OrderedMap ℕ ℕ) {ret : AipuStatus}
    (hhalf : ∀ id, (id, 0) ∈ m.entries → s.HalfLoaded id ∧ s.loadOf tid ≠ some id) :
    (SharedContext.answer { s with graphs := m } tid ret).after.Tracked := by
  refine ⟨fun tid' pc' hpc' => ?_, fun id hid => ?_⟩
  · rw [SharedContext.answer, lookup_erase] at hpc'
    split at hpc'
    · cases hpc'
    · exact h.gobj tid' pc' hpc'
  · obtain ⟨hold, hne⟩ := hhalf id hid
    obtain ⟨tid', htid'⟩ := h.loading id hold
    have hother : tid' ≠ tid := fun heq => hne (heq ▸ htid')
    refine ⟨tid', ?_⟩
    rw [SharedContext.loadOf, SharedContext.answer, lookup_erase, if_neg hother]
    exact htid'

section Other

variable (hload : s.loadOf tid = none)

include hload

/-- A thread that loads no graph goes on. -/
theorem SharedContext.Tracked.gotoOther (h : s.Tracked) (hgobj : pc.gobj ≠ some 0) :
    (s.goto tid pc).after.Tracked :=
  h.goto s.graphs hgobj fun _ hid => .inr ⟨hid, by simp [hload]⟩

/-- A call that loads no graph returns. -/
theorem SharedContext.Tracked.answerOther (h : s.Tracked) {ret : AipuStatus} :
    (s.answer tid ret).after.Tracked :=
  h.answer s.graphs fun _ hid => ⟨hid, by simp [hload]⟩

/-- A call that loads no graph goes on at one place or returns. -/
theorem SharedContext.Tracked.ite (h : s.Tracked) {p : Prop} [Decidable p] {ret : AipuStatus}
    (hgobj : pc.gobj ≠ some 0) : (if p then s.goto tid pc else s.answer tid ret).after.Tracked := by
  split
  · exact h.gotoOther hload hgobj
  · exact h.answerOther hload

/-- A pointer that was found is tested. -/
theorem SharedContext.Tracked.iteFound (h : s.Tracked) {gobj : ℕ} {ret : AipuStatus}
    (hpc : pc.gobj = some gobj) :
    (if gobj = 0 then s.answer tid ret else s.goto tid pc).after.Tracked := by
  split
  next => exact h.answerOther hload
  next hne => exact h.gotoOther hload (by simpa [hpc] using hne)

/-- What a call does after a member function keeps the invariant. -/
theorem SharedContext.Tracked.afterMember (h : s.Tracked) {gobj : ℕ} (hgobj : gobj ≠ 0)
    (f : GraphMember) (reply : CalleeReply) : (s.afterMember tid f gobj reply).after.Tracked := by
  have hmember : ∀ f', (GraphPc.member f' gobj).gobj ≠ some 0 :=
    fun _ => by simpa [GraphPc.gobj] using hgobj
  cases f with
  | isJobSched => exact h.ite hload (hmember .isJobEnd)
  | isJobEnd =>
    simp only [SharedContext.afterMember]
    split
    · exact h.gotoOther hload (hmember .getJobStatus)
    · split
      · exact h.gotoOther hload (hmember .waitForJobEndSleep)
      · exact h.gotoOther hload (by simpa [GraphPc.gobj] using hgobj)
  | getJobStatus | waitForJobEndSleep | updateJobStatus =>
    exact h.ite hload (hmember .dumpEndJobBuffers)
  | _ => exact h.answerOther hload

end Other

/-- The next step of a thread keeps the invariant. -/
theorem SharedContext.Tracked.next (h : s.Tracked) (hpc : lookup s.threads tid = some pc)
    {reply : CalleeReply} (hstep : s.next tid reply pc = some step) : step.after.Tracked := by
  have hgobj : ∀ gobj, pc.gobj = some gobj → gobj ≠ 0 :=
    fun gobj hpg h0 => h.gobj tid pc hpc (h0 ▸ hpg)
  have hload : s.loadOf tid = pc.loads := by rw [SharedContext.loadOf, hpc, Option.bind_some]
  cases pc with
  | createGraphObject id =>
    have hhalf : ∀ pc' : GraphPc, pc'.loads = some id → ∀ id', (id', 0) ∈ s.graphs.entries →
        pc'.loads = some id' ∨ s.HalfLoaded id' ∧ s.loadOf tid ≠ some id' := by
      intro pc' hpc' id' hid'
      by_cases heq : id = id'
      · exact .inl (heq ▸ hpc')
      · exact .inr ⟨hid', by simpa [hload, GraphPc.loads] using heq⟩
    rw [SharedContext.next] at hstep
    split at hstep
    next => cases hstep
    next hnew =>
      split at hstep <;> obtain rfl := Option.some.inj hstep
      · exact h.goto s.graphs (by simpa [GraphPc.gobj] using hnew) (hhalf _ rfl)
      · exact h.goto s.graphs (by simp [GraphPc.gobj]) (hhalf _ rfl)
  | eraseFailed id ret =>
    obtain rfl := Option.some.inj hstep
    refine h.answer _ fun id' hid' => ?_
    obtain ⟨hne, hid'⟩ := mem_erase.mp hid'
    exact ⟨hid', by simpa [hload, GraphPc.loads] using Ne.symm hne⟩
  | storeGobj id gobj =>
    obtain rfl := Option.some.inj hstep
    refine h.goto _ (by simpa [GraphPc.gobj] using hgobj gobj rfl) fun id' hid' => ?_
    rcases mem_insert.mp hid' with heq | ⟨hne, hid'⟩
    · -- the pointer to the object is not null
      exact absurd (congrArg Prod.snd heq).symm (hgobj gobj rfl)
    · exact .inr ⟨hid', by simpa [hload, GraphPc.loads] using Ne.symm hne⟩
  | getGraphDesc gobj =>
    obtain rfl := Option.some.inj hstep
    rw [GraphStep.reading_after]
    exact h.answerOther hload
  | destroyGraphObject id gobj =>
    obtain rfl := Option.some.inj hstep
    exact h.ite hload (by simp [GraphPc.gobj])
  | eraseUnloaded id =>
    obtain rfl := Option.some.inj hstep
    exact h.answer _ fun id' hid' => ⟨(mem_erase.mp hid').2, by simp [hload, GraphPc.loads]⟩
  | forceDeinit =>
    obtain rfl := Option.some.inj hstep
    rw [SharedContext.forceDeinit, GraphStep.reading_after]
    exact h.answer ∅ fun _ hid => nomatch hid
  | member f gobj =>
    obtain rfl := Option.some.inj hstep
    exact h.afterMember hload (hgobj gobj rfl) f reply
  | pollOne gobj =>
    rw [SharedContext.next] at hstep
    split at hstep <;> obtain rfl := Option.some.inj hstep
    · exact h.gotoOther hload (by simpa [GraphPc.gobj] using hgobj gobj rfl)
    · exact h.answerOther hload
  | pollAll =>
    rw [SharedContext.next] at hstep
    split at hstep <;> obtain rfl := Option.some.inj hstep
    · exact h.gotoOther hload (by simp [GraphPc.gobj])
    · exact h.answerOther hload
  | nextRecord records =>
    cases records with
    | nil =>
      obtain rfl := Option.some.inj hstep
      exact h.answerOther hload
    | cons jobId rest =>
      rw [SharedContext.next] at hstep
      split at hstep <;> obtain rfl := Option.some.inj hstep
      · exact h.answerOther hload
      · exact h.gotoOther hload (by simpa [GraphPc.gobj])
  | updateRecord gobj rest =>
    obtain rfl := Option.some.inj hstep
    exact h.ite hload (by simp [GraphPc.gobj])

/-- A thread that starts a call was in none. -/
theorem SharedContext.start_eq {tid' : ℕ} {start : GraphStep}
    (h : (if (lookup s.threads tid').isSome then none else some (tid', start)) = some (tid, step)) :
    tid' = tid ∧ start = step ∧ s.loadOf tid = none := by
  split at h
  next => cases h
  next hnew =>
    obtain ⟨rfl, rfl⟩ := Prod.mk.inj (Option.some.inj h)
    exact ⟨rfl, rfl,
      by rw [SharedContext.loadOf, Option.not_isSome_iff_eq_none.mp hnew, Option.bind_none]⟩

/-- What `load_graph` does first. -/
theorem SharedContext.stepOf_loadGraph {tid' : ℕ} {ret : AipuStatus}
    (h : s.stepOf (.loadGraph tid' ret) = some (tid, step)) :
    s.loadOf tid = none ∧ (step = s.answer tid ret ∨ ∃ id,
      step = SharedContext.goto { s with graphs := s.graphs.insert id 0 } tid
        (.createGraphObject id)) := by
  rw [SharedContext.stepOf] at h
  split at h
  next => cases h
  next hnew =>
    obtain ⟨step, hload, heq⟩ := Option.map_eq_some_iff.mp h
    obtain ⟨rfl, rfl⟩ := Prod.mk.inj heq
    refine ⟨by rw [SharedContext.loadOf, Option.not_isSome_iff_eq_none.mp hnew,
      Option.bind_none], ?_⟩
    rw [SharedContext.loadGraph] at hload
    split at hload
    · cases hid : s.createUniqueGraphIdInner with
      | none =>
        rw [hid] at hload
        cases hload
      | some id =>
        rw [hid] at hload
        exact .inr ⟨id, (Option.some.inj hload).symm⟩
    · exact .inl (Option.some.inj hload).symm

/-- A step of a thread is the next one of its own call. -/
theorem SharedContext.stepOf_next {tid' : ℕ} {reply : CalleeReply}
    (h : s.stepOf (.next tid' reply) = some (tid, step)) :
    tid' = tid ∧ ∃ pc, lookup s.threads tid = some pc ∧ s.next tid reply pc = some step := by
  obtain ⟨step, hnext, heq⟩ := Option.map_eq_some_iff.mp h
  obtain ⟨rfl, rfl⟩ := Prod.mk.inj heq
  exact ⟨rfl, Option.bind_eq_some_iff.mp hnext⟩

/-- What a thread does keeps the invariant. -/
theorem SharedContext.Tracked.stepOf (h : s.Tracked) {a : SharedAction}
    (hstep : s.stepOf a = some (tid, step)) :
    step.after.Tracked := by
  cases a with
  | setRuntimeConfig => cases hstep
  | loadGraph tid' ret =>
    obtain ⟨hload, rfl | ⟨id, rfl⟩⟩ := SharedContext.stepOf_loadGraph hstep
    · exact h.answerOther hload
    · refine h.goto _ (by simp [GraphPc.gobj]) fun id' hid' => ?_
      rcases mem_insert.mp hid' with heq | ⟨-, hid'⟩
      · exact .inl (congrArg (some ∘ Prod.fst) heq.symm)
      · exact .inr ⟨hid', by simp [hload]⟩
  | unloadGraph tid' id =>
    obtain ⟨rfl, rfl, hload⟩ := SharedContext.start_eq hstep
    exact h.iteFound hload rfl
  | deinit tid' busy =>
    obtain ⟨rfl, rfl, hload⟩ := SharedContext.start_eq hstep
    rw [SharedContext.deinit, GraphStep.reading_after]
    split
    · exact h.answerOther hload
    · exact h.gotoOther hload (by simp [GraphPc.gobj])
  | callGraph tid' call =>
    obtain ⟨rfl, rfl, hload⟩ := SharedContext.start_eq hstep
    exact h.iteFound hload rfl
  | pollJobStatus tid' =>
    obtain ⟨rfl, rfl, hload⟩ := SharedContext.start_eq hstep
    exact h.gotoOther hload (by simp [GraphPc.gobj])
  | next tid' reply =>
    obtain ⟨-, pc, hpc, hnext⟩ := SharedContext.stepOf_next hstep
    exact h.next hpc hnext

/-- A step changes `poll_opt`, or it is one of a thread. -/
theorem sharedStep_cases {a : SharedAction} {es : List SharedEvent}
    (h : sharedStep s a = some (s', es)) :
    (∃ pollOpt, a = .setRuntimeConfig pollOpt ∧ s' = { s with pollOpt := pollOpt } ∧ es = []) ∨
      ∃ tid step, s.stepOf a = some (tid, step) ∧ s.perform tid step = (s', es) := by
  unfold sharedStep at h
  split at h
  · cases h
  · cases a with
    | setRuntimeConfig pollOpt =>
      obtain ⟨rfl, rfl⟩ := Prod.mk.inj (Option.some.inj h)
      exact .inl ⟨pollOpt, rfl, rfl, rfl⟩
    | _ =>
      obtain ⟨⟨tid, step⟩, hstep, hperform⟩ := Option.map_eq_some_iff.mp h
      exact .inr ⟨tid, step, hstep, hperform⟩

/-- Every step keeps the invariant. -/
theorem sharedStep_tracked (h : s.Tracked) {a : SharedAction} {es : List SharedEvent}
    (hstep : sharedStep s a = some (s', es)) : s'.Tracked := by
  obtain ⟨pollOpt, rfl, rfl, rfl⟩ | ⟨tid, step, hof, hperform⟩ := sharedStep_cases hstep
  · exact ⟨h.gobj, h.loading⟩
  · unfold SharedContext.perform at hperform
    split at hperform <;> obtain ⟨rfl, rfl⟩ := Prod.mk.inj hperform
    · exact ⟨h.gobj, h.loading⟩
    · exact h.stepOf hof

/-! ## Null pointers -/

/-- A step dereferences a null pointer iff one of its pointers is null. -/
theorem SharedContext.deref_perform (s : SharedContext) (tid : ℕ) (step : GraphStep) :
    (∀ tid', SharedEvent.deref tid' 0 ∉ (s.perform tid step).2) ↔ 0 ∉ step.reads := by
  unfold SharedContext.perform
  split
  next h0 => exact iff_of_false (fun h => h tid (List.mem_map_of_mem h0)) fun h => h h0
  next h0 =>
    refine iff_of_true (fun tid' hmem => ?_) h0
    rcases List.mem_append.mp hmem with hmem | hmem
    · obtain ⟨gobj, hgobj, heq⟩ := List.mem_map.mp hmem
      obtain ⟨-, rfl⟩ := SharedEvent.deref.inj heq
      exact h0 hgobj
    · simp at hmem

/-- Only `force_deinit` may dereference a null pointer among the steps that a thread goes on
with. -/
theorem SharedContext.Tracked.next_reads (h : s.Tracked) (hpc : lookup s.threads tid = some pc)
    {reply : CalleeReply} (hstep : s.next tid reply pc = some step) :
    0 ∉ step.reads ↔ (pc = .forceDeinit → ∀ e ∈ s.graphs.entries, e.2 ≠ 0) := by
  have hgobj : ∀ gobj, pc.gobj = some gobj → gobj ≠ 0 :=
    fun gobj hpg h0 => h.gobj tid pc hpc (h0 ▸ hpg)
  by_cases hforce : pc = .forceDeinit
  · subst hforce
    obtain rfl := Option.some.inj hstep
    simp only [SharedContext.forceDeinit, GraphStep.reading_reads, List.mem_map, true_imp_iff]
    exact ⟨fun hne e he h0 => hne ⟨e, he, h0⟩, fun hne ⟨e, he, h0⟩ => hne e he h0⟩
  · refine iff_of_true ?_ fun heq => absurd heq hforce
    cases pc with
    | forceDeinit => exact absurd rfl hforce
    | createGraphObject id =>
      rw [SharedContext.next] at hstep
      split at hstep
      next => cases hstep
      next hnew => split at hstep <;> obtain rfl :=
        Option.some.inj hstep <;> simpa using Ne.symm hnew
    | getGraphDesc gobj | destroyGraphObject id gobj | member f gobj | updateRecord gobj rest =>
      obtain rfl := Option.some.inj hstep
      simpa using (hgobj gobj rfl).symm
    | eraseFailed | storeGobj | eraseUnloaded =>
      obtain rfl := Option.some.inj hstep
      simp
    | pollOne | pollAll =>
      rw [SharedContext.next] at hstep
      split at hstep <;> obtain rfl := Option.some.inj hstep <;> simp
    | nextRecord records =>
      cases records with
      | nil =>
        obtain rfl := Option.some.inj hstep
        simp
      | cons jobId rest =>
        rw [SharedContext.next] at hstep
        split at hstep <;> obtain rfl := Option.some.inj hstep <;> simp

/-- `is_deinit_ok` meets no null pointer iff a graph that refuses comes before the first one. -/
theorem SharedContext.zero_notMem_deinitReads {busy : List ℕ} : 0 ∉ s.deinitReads busy ↔
    ∀ e ∈ s.graphs.entries, e.2 = 0 → ∃ f ∈ s.graphs.entries, f.1 < e.1 ∧ f.2 ∈ busy ∧ f.2 ≠ 0 := by
  have hwalk := @exists_visited _ _ _ s.graphs (· == 0) busy.contains
  simp only [beq_iff_eq, exists_eq_right, List.contains_iff_mem] at hwalk
  rw [SharedContext.deinitReads, hwalk]
  push Not
  rfl

/-- A thread dereferences no null pointer iff its step keeps the loads. -/
theorem SharedContext.Tracked.stepOf_reads (h : s.Tracked) {a : SharedAction}
    (hstep : s.stepOf a = some (tid, step)) : 0 ∉ step.reads ↔ s.KeepsLoads a := by
  cases a with
  | setRuntimeConfig => cases hstep
  | loadGraph tid' ret =>
    obtain ⟨-, rfl | ⟨id, rfl⟩⟩ := SharedContext.stepOf_loadGraph hstep <;>
      exact iff_of_true (by simp) trivial
  | unloadGraph tid' id =>
    obtain ⟨rfl, rfl, -⟩ := SharedContext.start_eq hstep
    refine iff_of_true ?_ trivial
    unfold SharedContext.unloadGraph
    split <;> simp
  | deinit tid' busy =>
    obtain ⟨rfl, rfl, -⟩ := SharedContext.start_eq hstep
    rw [SharedContext.deinit, GraphStep.reading_reads, SharedContext.zero_notMem_deinitReads]
    rfl
  | callGraph tid' call =>
    obtain ⟨rfl, rfl, -⟩ := SharedContext.start_eq hstep
    refine iff_of_true ?_ trivial
    unfold SharedContext.callGraph
    split <;> simp
  | pollJobStatus tid' =>
    obtain ⟨rfl, rfl, -⟩ := SharedContext.start_eq hstep
    exact iff_of_true (by simp [SharedContext.pollJobStatus]) trivial
  | next tid' reply =>
    obtain ⟨rfl, pc, hpc, hnext⟩ := SharedContext.stepOf_next hstep
    rw [h.next_reads hpc hnext, SharedContext.KeepsLoads, hpc, Option.some.injEq]

/-- A step dereferences no null pointer iff it keeps the loads. -/
theorem sharedStep_deref (h : s.Tracked) {a : SharedAction} {es : List SharedEvent}
    (hstep : sharedStep s a = some (s', es)) :
    (∀ tid, SharedEvent.deref tid 0 ∉ es) ↔ s.KeepsLoads a := by
  obtain ⟨pollOpt, rfl, rfl, rfl⟩ | ⟨tid, step, hof, hperform⟩ := sharedStep_cases hstep
  · exact iff_of_true (fun _ hmem => nomatch hmem) trivial
  · rw [← h.stepOf_reads hof, ← SharedContext.deref_perform s tid step, hperform]

/-! ## Runs -/

/-- Every context that is reached knows who loads its half-loaded graphs. -/
theorem sharedSystem_tracked {C : SharedContext → SharedAction → Prop} {tr : List SharedEvent}
    (h : sharedSystem.Run C tr s) : s.Tracked := by
  refine h.stateInvariant (I := SharedContext.Tracked) (fun s hinit => ?_)
    fun s a s' es hs _ hstep =>
    sharedStep_tracked hs hstep
  obtain ⟨pollOpt, rfl⟩ := hinit
  exact ⟨fun _ _ hpc => (nomatch hpc), fun _ hid => nomatch hid⟩

/-- When `deinit` meets no half-loaded graph, no thread ever dereferences a null pointer, and a step
that would break the condition dereferences one; every half-loaded graph is being loaded by some
thread. -/
theorem half_loaded_graph_not_dereferenced {tr : List SharedEvent} {s : SharedContext}
    (h : sharedSystem.Run SharedContext.KeepsLoads tr s) :
    (∀ tid, SharedEvent.deref tid 0 ∉ tr) ∧
      (∀ id, s.HalfLoaded id → ∃ tid, s.loadOf tid = some id) ∧
      ∀ a s' es, sharedStep s a = some (s', es) →
        ((∀ tid, SharedEvent.deref tid 0 ∉ es) ↔ s.KeepsLoads a) := by
  have htracked := sharedSystem_tracked h
  refine ⟨fun tid => ?_, htracked.loading, fun a s' es hstep => sharedStep_deref htracked hstep⟩
  induction h with
  | start => exact List.not_mem_nil
  | next hrun hkeeps hstep ih =>
    have htracked := sharedSystem_tracked hrun
    rw [List.mem_append, not_or]
    exact ⟨ih htracked, (sharedStep_deref htracked hstep).mpr hkeeps tid⟩

/-- The sample is a context without graphs. -/
theorem sharedSystem_init : sharedSystem.init {} := ⟨false, rfl⟩

/-- A graph is loaded while another thread polls and a third one asks for it; the context is given
up afterwards. -/
def loadThenDeinit : List SharedAction :=
  [.loadGraph 1 .success, .pollJobStatus 2, .callGraph 3 (.allocTensorBuffers 1),
    .next 1 { gobj := 64 }, .next 1 {}, .next 1 {}, .deinit 3 [], .next 3 {}]

/-- A run with all those steps. -/
theorem half_loaded_graph_not_dereferenced_sample :
    ∃ tr s, sharedSystem.Run SharedContext.KeepsLoads tr s ∧
    .returned 3 .errorGraphNotExist ∈ tr ∧ .returned 3 .success ∈ tr ∧
      ∀ tid, SharedEvent.deref tid 0 ∉ tr := by
  obtain ⟨s, tr, hexec, hrefused, hdeinit⟩ : ∃ s tr,
      sharedSystem.exec SharedContext.KeepsLoads {} loadThenDeinit = some (s, tr) ∧
        .returned 3 .errorGraphNotExist ∈ tr ∧ .returned 3 .success ∈ tr :=
          ⟨_, _, rfl, by decide, by decide⟩
  have hrun := System.run_of_exec sharedSystem_init hexec
  exact ⟨tr, s, hrun, hrefused, hdeinit, (half_loaded_graph_not_dereferenced hrun).1⟩

/-- `deinit` dereferences the null pointer of a graph that another thread is loading: in
`is_deinit_ok`, or in `force_deinit` when the load starts between the two. -/
theorem half_loaded_graph_dereferenced :
    (∃ s tr, sharedSystem.exec anyStep {} [.loadGraph 1 .success, .deinit 2 []] = some (s, tr) ∧
      sharedSystem.Run anyStep tr s ∧ s.loadOf 1 = some 1 ∧ SharedEvent.deref 2 0 ∈ tr) ∧
    ∃ s tr, sharedSystem.exec anyStep {} [.deinit 2 [], .loadGraph 1 .success, .next 2 {}] =
      some (s, tr) ∧
      sharedSystem.Run anyStep tr s ∧ s.loadOf 1 = some 1 ∧ SharedEvent.deref 2 0 ∈ tr := by
  have hrun : ∀ {as : List SharedAction} {s : SharedContext} {tr : List SharedEvent},
      sharedSystem.exec anyStep {} as = some (s, tr) → sharedSystem.Run anyStep tr s :=
    System.run_of_exec sharedSystem_init
  obtain ⟨s, tr, hexec, hload, hderef⟩ : ∃ s tr, sharedSystem.exec anyStep {}
      [.loadGraph 1 .success, .deinit 2 []] = some (s, tr) ∧ s.loadOf 1 = some 1 ∧
        SharedEvent.deref 2 0 ∈ tr :=
    ⟨_, _, rfl, rfl, List.mem_cons_self⟩
  obtain ⟨s', tr', hexec', hload', hderef'⟩ : ∃ s tr, sharedSystem.exec anyStep {}
      [.deinit 2 [], .loadGraph 1 .success, .next 2 {}] = some (s, tr) ∧ s.loadOf 1 = some 1 ∧
        SharedEvent.deref 2 0 ∈ tr :=
    ⟨_, _, rfl, rfl, List.mem_cons_self⟩
  exact ⟨⟨s, tr, hexec, hrun hexec, hload, hderef⟩, s', tr', hexec', hrun hexec', hload', hderef'⟩

end Aipu
