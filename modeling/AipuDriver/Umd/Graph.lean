import AipuDriver.Kmd.Interface
import AipuDriver.Lib.UnusedId
import AipuDriver.Umd.Interface

/-!
# Graphs of the user-mode driver (`graph.cpp`)

A graph keeps its thread buffers and its jobs in maps from `uint32_t`.  The maps are lists here: the
key of a buffer is its handle, and the key of a job its id.  Ids are natural numbers below `2 ^ 32`.
A job carries the number `addr`, which stands for the address of its `job_desc_t`; numbers are not
used again.

The ARM build is modelled.  What the kernel, the heap and the buffers answer is an argument: whether
the buffers could be freed, whether the entries of the parameter map are within the buffers.  The
answer is `none` where the search for an unused id does not end.
-/

namespace Aipu

open UnusedId

/-! ## Data -/

/-- `job_state_t` -/
inductive JobState
  | noState
  | done
  | exception
  | built
  | sched
  | timeout
deriving DecidableEq, Repr

/-- `aipu_job_status_t` -/
inductive AipuJobStatus
  | noStatus
  | done
  | exception
deriving DecidableEq, Repr

/-- `job_desc_t`; of its configuration, what RUNJOB hands to the kernel, under the names of the
kernel. -/
structure JobDesc where
  /-- The address of the structure. -/
  addr : ℕ
  id : ℕ
  state : JobState
  bufHandle : ℕ
  config : UserJobDesc
deriving DecidableEq, Repr

/-- `tbuf_info_t`, without the buffers. -/
structure TbufInfo where
  handle : ℕ
  isFree : Bool
deriving DecidableEq, Repr

/-- `Graph`, with the id of its descriptor. -/
structure Graph where
  id : ℕ
  tbufs : List TbufInfo := []
  jobs : List JobDesc := []
  sched : List ℕ := []
deriving DecidableEq, Repr

/-! ## Ids -/

/-- `uint32_t` -/
def uint32Size : ℕ := 2 ^ 32

/-- `handle2graph_id` -/
def handle2graphId (bufHandle : ℕ) : ℕ := bufHandle / 2 ^ 16

/-- `job_id2graph_id` -/
def jobId2graphId (jobId : ℕ) : ℕ := jobId / 2 ^ 16

/-- The first id of a graph, `gdesc.id << 16`. -/
def Graph.idBase (g : Graph) : ℕ := g.id * 2 ^ 16 % uint32Size

/-- `get_tbuf_ptr` -/
def Graph.getTbufPtr (g : Graph) (handle : ℕ) : Option TbufInfo :=
  g.tbufs.find? fun tbuf => tbuf.handle = handle

/-- `get_job_ptr` -/
def Graph.getJobPtr (g : Graph) (jobId : ℕ) :
    Option JobDesc := g.jobs.find? fun job => job.id = jobId

/-- The job is found and its state passes the test. -/
def Graph.jobStateIs (g : Graph) (jobId : ℕ) (p : JobState → Bool) : Bool :=
  (g.getJobPtr jobId).any fun job => p job.state

/-- `is_job_built_inner` -/
def Graph.isJobBuiltInner (g : Graph) (jobId : ℕ) : Bool := g.jobStateIs jobId (· = .built)

/-- `is_job_scheduled_inner` -/
def Graph.isJobScheduledInner (g : Graph) (jobId : ℕ) : Bool := g.jobStateIs jobId (· = .sched)

/-- `is_job_end_inner` -/
def Graph.isJobEndInner (g : Graph) (jobId : ℕ) : Bool :=
  g.jobStateIs jobId fun state => state = .done ∨ state = .exception

/-- `is_job_exist_inner` -/
def Graph.isJobExistInner (g : Graph) (jobId : ℕ) : Bool :=
  g.isJobBuiltInner jobId || g.isJobScheduledInner jobId || g.isJobEndInner jobId

/-- `is_all_jobs_end_inner` -/
def Graph.isAllJobsEndInner (g : Graph) : Bool :=
  g.jobs.all fun job => job.state = .done ∨ job.state = .exception

/-- `get_sched_job_cnt` -/
def Graph.getSchedJobCnt (g : Graph) : ℕ := g.sched.length

/-- `create_buf_handle_inner` -/
def Graph.createBufHandleInner (g : Graph) : Option ℕ :=
  firstUnused (fun handle => (g.getTbufPtr handle).isSome) uint32Size (g.tbufs.length + 1) g.idBase

/-- `create_job_id_inner` -/
def Graph.createJobIdInner (g : Graph) : Option ℕ :=
  firstUnused g.isJobExistInner uint32Size (g.jobs.length + 1) g.idBase

/-- A job that is found has the id. -/
theorem Graph.getJobPtr_eq_some {g : Graph} {jobId : ℕ} {job : JobDesc}
    (h : g.getJobPtr jobId = some job) : job ∈ g.jobs ∧ job.id = jobId := by
  unfold Graph.getJobPtr at h
  exact ⟨List.mem_of_find?_eq_some h, by simpa using List.find?_some h⟩

/-- There is a job with the id iff one is found. -/
theorem Graph.isSome_getJobPtr {g : Graph} {jobId : ℕ} :
    (g.getJobPtr jobId).isSome ↔ ∃ job ∈ g.jobs, job.id = jobId := by
  simp [Graph.getJobPtr]

/-- There is a buffer with the handle iff one is found. -/
theorem Graph.isSome_getTbufPtr {g : Graph} {handle : ℕ} :
    (g.getTbufPtr handle).isSome ↔ ∃ tbuf ∈ g.tbufs, tbuf.handle = handle := by
  simp [Graph.getTbufPtr]

/-- The states of jobs that `is_job_exist_inner` sees. -/
theorem Graph.isJobExistInner_eq_true {g : Graph} {jobId : ℕ} :
    g.isJobExistInner jobId = true ↔
      ∃ job, g.getJobPtr jobId = some job ∧ job.state ≠ .timeout ∧ job.state ≠ .noState := by
  simp only [Graph.isJobExistInner, Graph.isJobBuiltInner, Graph.isJobScheduledInner,
    Graph.isJobEndInner, Graph.jobStateIs]
  cases g.getJobPtr jobId with
  | none => simp
  | some job => cases hstate : job.state <;> simp [hstate]

/-- The first id, counted from the first id of the graph, that `is_job_exist_inner` does not see. -/
def Graph.FirstUnseen (g : Graph) (jobId : ℕ) : Prop :=
  ∃ k < uint32Size, jobId = (g.idBase + k) % uint32Size ∧ g.isJobExistInner jobId = false ∧
    ∀ l < k, g.isJobExistInner ((g.idBase + l) % uint32Size) = true

/-- What the search for a job id finds. -/
theorem Graph.firstUnseen_of_createJobIdInner {g : Graph} {jobId : ℕ}
    (h : g.createJobIdInner = some jobId) : g.FirstUnseen jobId :=
  exists_lt_of_firstUnused (Nat.mod_lt _ (by decide)) h

/-- The search for a job id ends unless all ids are in use. -/
theorem Graph.createJobIdInner_total (g : Graph) (hlen : g.jobs.length < uint32Size) :
    ∃ jobId, g.createJobIdInner = some jobId := by
  have hids : ∀ i, g.isJobExistInner i = true → i ∈ g.jobs.map JobDesc.id := by
    intro i hi
    obtain ⟨job, hjob, -⟩ := Graph.isJobExistInner_eq_true.mp hi
    obtain ⟨hmem, hid⟩ := Graph.getJobPtr_eq_some hjob
    exact List.mem_map.mpr ⟨job, hmem, hid⟩
  exact exists_firstUnused hids (by simp) hlen (Nat.mod_lt _ (by decide))

/-- The search for a handle ends unless all handles are in use. -/
theorem Graph.createBufHandleInner_total (g : Graph) (hlen : g.tbufs.length < uint32Size) :
    ∃ handle, g.createBufHandleInner = some handle := by
  have hids : ∀ i, (g.getTbufPtr i).isSome = true → i ∈ g.tbufs.map TbufInfo.handle := by
    intro i hi
    obtain ⟨tbuf, hmem, hid⟩ := Graph.isSome_getTbufPtr.mp hi
    exact List.mem_map.mpr ⟨tbuf, hmem, hid⟩
  exact exists_firstUnused hids (by simp) hlen (Nat.mod_lt _ (by decide))

/-! ## Writing to the maps -/

/-- `jobs[job->id] = job` -/
def Graph.insertJob (g : Graph) (job : JobDesc) : Graph :=
  { g with jobs := job :: g.jobs.filter (·.id ≠ job.id) }

/-- What is found after a job was inserted. -/
theorem Graph.getJobPtr_insertJob {g : Graph} {job : JobDesc} {jobId : ℕ} :
    (g.insertJob job).getJobPtr jobId = if jobId = job.id then some job else g.getJobPtr jobId := by
  rw [Graph.getJobPtr, Graph.insertJob, List.find?_cons]
  split
  next hid => rw [if_pos (of_decide_eq_true hid).symm]
  next hid =>
    have hid : jobId ≠ job.id := fun h => of_decide_eq_false hid h.symm
    rw [if_neg hid, List.find?_filter, Graph.getJobPtr]
    congr 1
    funext other
    by_cases hother : other.id = jobId <;> simp [hother, hid]

/-- `jobs.erase(jobId)` -/
def Graph.eraseJob (g : Graph) (jobId : ℕ) : Graph :=
  { g with jobs := g.jobs.filter (·.id ≠ jobId) }

/-- What is found after a job was erased. -/
theorem Graph.getJobPtr_eraseJob {g : Graph} {erased jobId : ℕ} :
    (g.eraseJob erased).getJobPtr jobId = if jobId = erased then none else g.getJobPtr jobId := by
  rw [Graph.getJobPtr, Graph.eraseJob, List.find?_filter, Graph.getJobPtr]
  split
  next hid => simp [hid]
  next hid =>
    congr 1
    funext other
    by_cases hother : other.id = jobId <;> simp [hother, hid]

/-- `job->state = state` for the job with the id. -/
def Graph.setJobState (g : Graph) (jobId : ℕ) (state : JobState) : Graph :=
  { g with jobs := g.jobs.map fun job => if job.id = jobId then { job with
    state := state } else job }

/-- What is found after the state of a job was written. -/
theorem Graph.getJobPtr_setJobState {g : Graph} {written jobId : ℕ} {state : JobState} :
    (g.setJobState written state).getJobPtr jobId = (g.getJobPtr jobId).map fun job =>
      if jobId = written then { job with state := state } else job := by
  have hids : (fun job : JobDesc => decide (job.id = jobId)) ∘
      (fun job => if job.id = written then { job with state := state } else job) =
      fun job => decide (job.id = jobId) := by
    funext job
    by_cases hid : job.id = written <;> simp [hid]
  rw [Graph.getJobPtr, Graph.setJobState, List.find?_map, hids, ← Graph.getJobPtr]
  cases hjob : g.getJobPtr jobId with
  | none => rfl
  | some job => rw [Option.map_some, Option.map_some, (Graph.getJobPtr_eq_some hjob).2]

/-- `tbuf->is_free = isFree` for the buffer with the handle. -/
def Graph.setTbufFree (g : Graph) (handle : ℕ) (isFree : Bool) : Graph :=
  { g with tbufs := g.tbufs.map fun tbuf =>
      if tbuf.handle = handle then { tbuf with isFree := isFree } else tbuf }

/-- `delete_from_sched_queue_inner` -/
def Graph.deleteFromSchedQueueInner (g : Graph) (jobId : ℕ) : Graph :=
  { g with sched := g.sched.erase jobId }

/-! ## Buffers -/

/-- `alloc_thread_buffer`; `ok` says whether all buffers could be allocated. -/
def Graph.allocThreadBuffer (g : Graph) (ok : Bool) : Option (AipuStatus × Graph × Option ℕ) :=
  if ok then
    match g.createBufHandleInner with
    | none => none
    | some handle =>
      some (.success, { g with tbufs := ⟨handle, true⟩ :: g.tbufs.filter (·.handle ≠ handle) },
        some handle)
  else some (.errorBufAllocFail, g, none)

/-- `free_thread_buffer`; `ok` says whether all its buffers could be freed. -/
def Graph.freeThreadBuffer (g : Graph) (handle : ℕ) (ok : Bool) : AipuStatus × Graph :=
  match g.getTbufPtr handle with
  | none => (.errorInvalidHandle, g)
  | some tbuf =>
    if tbuf.isFree then
      if ok then (.success, { g with tbufs := g.tbufs.filter (·.handle ≠ handle) })
      else (.errorBufFreeFail, g)
    else (.errorBusyHandle, g)

/-- The loop of `unload` over the thread buffers. -/
def Graph.freeThreadBuffers (g : Graph) : Oracle → List ℕ → AipuStatus × Graph
  | _, [] => (.success, g)
  | oks, handle :: rest =>
    match g.freeThreadBuffer handle oks.next.1 with
    | (.success, g) => g.freeThreadBuffers oks.next.2 rest
    | (ret, g) => (ret, g)

/-- `is_unload_ok` -/
def Graph.isUnloadOk (g : Graph) : Bool := g.isAllJobsEndInner

/-- `unload`; `textOk` says whether the text and the static buffers could be freed, and `oks`
whether the thread buffers could. -/
def Graph.unload (g : Graph) (textOk : Bool) (oks : Oracle) : AipuStatus × Graph :=
  if g.isUnloadOk then
    let g := { g with jobs := [] }
    if textOk then g.freeThreadBuffers oks (g.tbufs.map (·.handle)) else (.errorBufFreeFail, g)
  else (.errorInvalidOp, g)

/-! ## Jobs -/

/-- `build_new_job` on a `job_desc_t` at the address `addr`; `inRange` says whether all entries of
the parameter map are in the buffers.  The graph, and the id of the job if one was built. -/
def Graph.buildNewJob (g : Graph) (handle : ℕ) (inRange : Bool) (addr : ℕ) (config : UserJobDesc) :
    Option (AipuStatus × Graph × Option ℕ) :=
  match g.getTbufPtr handle with
  | none => some (.errorInvalidHandle, g, none)
  | some tbuf =>
    if tbuf.isFree then
      let g := g.setTbufFree handle false
      if inRange then
        match g.createJobIdInner with
        | none => none
        | some jobId =>
          let job := { addr := addr, id := jobId, state := .built, bufHandle := handle,
                       config := config }
          some (.success, g.insertJob job, some jobId)
      else some (.errorInvalidSize, g, none)
    else some (.errorBusyHandle, g, none)

/-- A buffer with the handle is free, and the map of parameters fits: the call comes to the search
for an id. -/
def Graph.BuildsJob (g : Graph) (handle : ℕ) (inRange : Bool) : Prop :=
  inRange = true ∧ ∃ tbuf, g.getTbufPtr handle = some tbuf ∧ tbuf.isFree = true

/-- What `build_new_job` does. -/
theorem Graph.buildNewJob_cases {g g' : Graph} {handle addr : ℕ} {inRange : Bool}
    {config : UserJobDesc} {ret : AipuStatus} {id : Option ℕ}
    (h : g.buildNewJob handle inRange addr config = some (ret, g', id)) :
    (¬g.BuildsJob handle inRange ∧ id = none ∧ (g' = g ∨ g' = g.setTbufFree handle false)) ∨
      (g.BuildsJob handle inRange ∧ ∃ jobId, g.createJobIdInner = some jobId ∧ id = some jobId ∧
        g' = (g.setTbufFree handle false).insertJob
          { addr := addr, id := jobId, state := .built, bufHandle := handle,
            config := config }) := by
  unfold Graph.buildNewJob at h
  split at h
  next hnone =>
    obtain ⟨-, rfl, rfl⟩ : _ ∧ g = g' ∧ none = id := by simpa using h
    exact .inl ⟨by simp [Graph.BuildsJob, hnone], rfl, .inl rfl⟩
  next tbuf htbuf =>
    split_ifs at h with hfree hrange
    · dsimp only at h
      split at h
      · cases h
      next jobId hid =>
        obtain ⟨-, rfl, rfl⟩ : _ ∧ _ = g' ∧ some jobId = id := by simpa using h
        exact .inr ⟨⟨hrange, tbuf, htbuf, hfree⟩, jobId, hid, rfl, rfl⟩
    · obtain ⟨-, rfl, rfl⟩ : _ ∧ g.setTbufFree handle false = g' ∧ none = id := by simpa using h
      exact .inl ⟨fun hbuilds => hrange hbuilds.1, rfl, .inr rfl⟩
    · obtain ⟨-, rfl, rfl⟩ : _ ∧ g = g' ∧ none = id := by simpa using h
      exact .inl ⟨by simp [Graph.BuildsJob, htbuf, hfree], rfl, .inl rfl⟩

/-- `flush_job` up to the call of `schedule_job_on_aipu`: the job that is scheduled and the graph,
or the status of the call. -/
def Graph.flushJobMark (g : Graph) (jobId : ℕ) : Except AipuStatus (JobDesc × Graph) :=
  match g.getJobPtr jobId with
  | none => .error .errorJobNotExist
  | some job =>
    if job.state ≠ .built then .error .errorJobSched
    else .ok (job, { g.setJobState jobId .sched with sched := g.sched ++ [job.id] })

/-- The end of `schedule_job_on_aipu` when RUNJOB was accepted or not; its status is success. -/
def Graph.scheduleJobEnd (g : Graph) (jobId : ℕ) (accepted : Bool) : Graph :=
  if accepted then g else g.setJobState jobId .noState

/-- `flush_job` on an open device. -/
def Graph.flushJob (g : Graph) (jobId : ℕ) (accepted : Bool) : AipuStatus × Graph :=
  match g.flushJobMark jobId with
  | .error e => (e, g)
  | .ok (_, g) => (.success, g.scheduleJobEnd jobId accepted)

/-- `is_job_sched` -/
def Graph.isJobSched (g : Graph) (jobId : ℕ) : AipuStatus :=
  match g.getJobPtr jobId with
  | none => .errorJobNotExist
  | some job => if job.state = .built then .errorJobNotSched else .success

/-- `is_job_end` -/
def Graph.isJobEnd (g : Graph) (jobId : ℕ) : Bool :=
  g.jobStateIs jobId fun state => state = .done ∨ state = .exception ∨ state = .timeout

/-- `get_job_status` -/
def Graph.getJobStatus (g : Graph) (jobId : ℕ) : AipuStatus × AipuJobStatus :=
  match g.getJobPtr jobId with
  | none => (.errorJobNotExist, .noStatus)
  | some job =>
    match job.state with
    | .done => (.success, .done)
    | .exception => (.errorJobException, .exception)
    | .timeout => (.errorJobTimeout, .noStatus)
    | _ => (.success, .noStatus)

/-- The state in a record of the kernel, as the code casts it. -/
def ReportedState.jobState : ReportedState → JobState
  | .done => .done
  | .exception => .exception

/-- The state in a record of the kernel, as the code casts it. -/
def ReportedState.jobStatus : ReportedState → AipuJobStatus
  | .done => .done
  | .exception => .exception

/-- `update_job_status` for a job id and a state. -/
def Graph.updateJobState (g : Graph) (jobId : ℕ) (state : JobState) : AipuStatus × Graph :=
  match g.getJobPtr jobId with
  | none => (.errorJobNotExist, g)
  | some _ => (.success, g.setJobState jobId state)

/-- `update_job_status` for a record of the kernel. -/
def Graph.updateJobStatus (g : Graph) (status : JobStatusDesc) : AipuStatus × Graph :=
  g.updateJobState status.jobId status.state.jobState

/-- `wait_for_job_end_sleep` without its sleep and the kill: the result of the call, or `none` when
the job has not ended. -/
def Graph.waitForJobEndSleep (g : Graph) (jobId : ℕ) : Option (AipuStatus × AipuJobStatus) :=
  match g.getJobPtr jobId with
  | none => some (.errorJobNotExist, .noStatus)
  | some job =>
    match job.state with
    | .built | .timeout => some (.errorJobNotSched, .noStatus)
    | .done => some (.success, .done)
    | .exception => some (.errorJobException, .exception)
    | .noState | .sched => none

/-- `clean_job` -/
def Graph.cleanJob (g : Graph) (jobId : ℕ) : AipuStatus × Graph :=
  match g.getJobPtr jobId with
  | none => (.errorJobNotExist, g)
  | some job =>
    match job.state with
    | .built => (.errorJobNotSched, g)
    | .sched => (.errorJobNotEnd, g)
    | _ =>
      let g := (g.setTbufFree job.bufHandle true).deleteFromSchedQueueInner jobId
      (.success, g.eraseJob job.id)

end Aipu
