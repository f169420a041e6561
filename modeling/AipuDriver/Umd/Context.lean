import AipuDriver.Lib.Transition
import AipuDriver.Umd.Graph

/-!
# The context of the user-mode driver (`context.cpp`)

A context keeps the loaded graphs in a map from their ids; it is a list here, like the maps of a
graph. The calls that name a job or a buffer find the graph by the upper half of the id.

A call of the context returns before the next one starts, and `contextSystem` takes each as one
step. What the kernel answers is part of the action: whether RUNJOB was accepted, and what
`poll_status` has got (`none` when it failed, and no records when the time is over).  The step is
`none` where a call does not return.
-/

namespace Aipu

open Transition UnusedId

/-! ## Data -/

/-- `MainContext` -/
structure MainContext where
  graphs : List Graph := []
  /-- `rt_cfg.poll_opt` -/
  pollOpt : Bool := false
  /-- The number of the next `job_desc_t`. -/
  nextAddr : ℕ := 0
deriving DecidableEq, Repr

/-- `get_graph_object` -/
def MainContext.getGraphObject (ctx : MainContext) (id : ℕ) : Option Graph :=
  ctx.graphs.find? fun g => g.id = id

/-- The graph object with the id of `g` becomes `g`. -/
def MainContext.setGraph (ctx : MainContext) (g : Graph) : MainContext :=
  { ctx with graphs := ctx.graphs.map fun h => if h.id = g.id then g else h }

/-- A call on the graph with the id; `err` is the status when there is none. -/
def MainContext.inGraph (ctx : MainContext) (err : AipuStatus) (id : ℕ)
    (f : Graph → AipuStatus × Graph) : AipuStatus × MainContext :=
  match ctx.getGraphObject id with
  | none => (err, ctx)
  | some g => ((f g).1, ctx.setGraph (f g).2)

/-- `create_unique_graph_id_inner` -/
def MainContext.createUniqueGraphIdInner (ctx : MainContext) : Option ℕ :=
  firstUnused (fun id => (ctx.getGraphObject id).isSome) uint32Size (ctx.graphs.length + 1) 1

/-- A graph that is found has the id. -/
theorem MainContext.getGraphObject_eq_some {ctx : MainContext} {id : ℕ} {g : Graph}
    (h : ctx.getGraphObject id = some g) : g ∈ ctx.graphs ∧ g.id = id := by
  unfold MainContext.getGraphObject at h
  exact ⟨List.mem_of_find?_eq_some h, by simpa using List.find?_some h⟩

/-- There is a graph with the id iff one is found. -/
theorem MainContext.isSome_getGraphObject {ctx : MainContext} {id : ℕ} :
    (ctx.getGraphObject id).isSome ↔ ∃ g ∈ ctx.graphs, g.id = id := by
  simp [MainContext.getGraphObject]

/-- What is found after one graph was written. -/
theorem MainContext.getGraphObject_setGraph {ctx : MainContext} {g g' : Graph} {id : ℕ}
    (hg : ctx.getGraphObject g'.id = some g) :
    (ctx.setGraph g').getGraphObject id = if id = g'.id then some g'
      else ctx.getGraphObject id := by
  have hids : (fun h : Graph => decide (h.id = id)) ∘ (fun h => if h.id = g'.id then g' else h) =
      fun h => decide (h.id = id) := by
    funext h
    by_cases hid : h.id = g'.id <;> simp [hid]
  unfold MainContext.getGraphObject at hg ⊢
  rw [MainContext.setGraph, List.find?_map, hids]
  split
  next hid =>
    rw [hid, hg, Option.map_some, if_pos (MainContext.getGraphObject_eq_some hg).2]
  next hid =>
    cases hh : ctx.graphs.find? fun h => h.id = id with
    | none => rfl
    | some h =>
      have hhid := (MainContext.getGraphObject_eq_some hh).2
      rw [Option.map_some, if_neg (hhid ▸ hid)]

/-- A call on a graph gives no number to a job. -/
@[simp]
theorem MainContext.inGraph_nextAddr (ctx : MainContext) (err : AipuStatus) (id : ℕ)
    (f : Graph → AipuStatus × Graph) : (ctx.inGraph err id f).2.nextAddr = ctx.nextAddr := by
  unfold MainContext.inGraph
  split <;> rfl

/-! ## Graphs and buffers -/

/-- `load_graph`; `ret` is what the parser, the allocations and the loading of the graph return. -/
def MainContext.loadGraph (ctx : MainContext) (ret : AipuStatus) :
    Option (AipuStatus × MainContext × Option ℕ) :=
  match ctx.createUniqueGraphIdInner with
  | none => none
  | some id =>
    if ret = .success then some (ret, { ctx with graphs := { id := id } :: ctx.graphs }, some id)
    else some (ret, ctx, none)

/-- `unload_graph` -/
def MainContext.unloadGraph (ctx : MainContext) (id : ℕ) (textOk : Bool) (oks : Oracle) :
    AipuStatus × MainContext :=
  match ctx.getGraphObject id with
  | none => (.errorGraphNotExist, ctx)
  | some g =>
    match g.unload textOk oks with
    | (.success, _) => (.success, { ctx with graphs := ctx.graphs.filter (·.id ≠ id) })
    | (ret, g) => (ret, ctx.setGraph g)

/-- `alloc_tensor_buffers` -/
def MainContext.allocTensorBuffers (ctx : MainContext) (id : ℕ) (ok : Bool) :
    Option (AipuStatus × MainContext × Option ℕ) :=
  match ctx.getGraphObject id with
  | none => some (.errorGraphNotExist, ctx, none)
  | some g =>
    match g.allocThreadBuffer ok with
    | none => none
    | some (ret, g, handle) => some (ret, ctx.setGraph g, handle)

/-- `free_tensor_buffers` -/
def MainContext.freeTensorBuffers (ctx : MainContext) (handle : ℕ) (ok : Bool) :
    AipuStatus × MainContext :=
  ctx.inGraph .errorInvalidHandle (handle2graphId handle) (·.freeThreadBuffer handle ok)

/-! ## Jobs -/

/-- The job that the graph `id` stores under an id. -/
def MainContext.job (ctx : MainContext) (id jobId : ℕ) : Option JobDesc :=
  (ctx.getGraphObject id).bind (·.getJobPtr jobId)

/-- The job that the calls find for the id. -/
def MainContext.getJob (ctx : MainContext) (jobId : ℕ) : Option JobDesc :=
  ctx.job (jobId2graphId jobId) jobId

/-- `create_new_job` -/
def MainContext.createNewJob (ctx : MainContext) (id handle : ℕ) (inRange : Bool)
    (config : UserJobDesc) : Option (AipuStatus × MainContext × Option ℕ) :=
  match ctx.getGraphObject id with
  | none => some (.errorGraphNotExist, ctx, none)
  | some g =>
    match g.buildNewJob handle inRange ctx.nextAddr config with
    | none => none
    | some (ret, g, jobId) =>
      some (ret, { ctx.setGraph g with nextAddr := ctx.nextAddr + 1 }, jobId)

/-- `flush_job` -/
def MainContext.flushJob (ctx : MainContext) (jobId : ℕ) (accepted : Bool) :
    AipuStatus × MainContext :=
  ctx.inGraph .errorJobNotExist (jobId2graphId jobId) (·.flushJob jobId accepted)

/-- The end of `schedule_job_on_aipu` when RUNJOB was accepted or not. -/
def MainContext.scheduleJobEnd (ctx : MainContext) (jobId : ℕ) (accepted : Bool) : MainContext :=
  (ctx.inGraph .errorJobNotExist (jobId2graphId jobId)
    fun g => (.success, g.scheduleJobEnd jobId accepted)).2

/-- `wait_for_job_end` up to its wait: what it returns if it need not wait. -/
def MainContext.waitStart (ctx : MainContext) (jobId : ℕ) : Option (AipuStatus × AipuJobStatus) :=
  match ctx.getGraphObject (jobId2graphId jobId) with
  | none => some (.errorJobNotExist, .noStatus)
  | some g =>
    if g.isJobSched jobId = .success then
      if g.isJobEnd jobId then
        let (ret, status) := g.getJobStatus jobId
        some (ret, if ret = .success then status else .noStatus)
      else none
    else some (g.isJobSched jobId, .noStatus)

/-- `wait_for_job_end_sleep` once it is awake: what `wait_for_job_end` returns if the job has
ended. -/
def MainContext.waitSleep (ctx : MainContext) (jobId : ℕ) : Option (AipuStatus × AipuJobStatus) :=
  match ctx.getGraphObject (jobId2graphId jobId) with
  | none => some (.errorJobNotExist, .noStatus)
  | some g =>
    (g.waitForJobEndSleep jobId).map fun (ret, status) =>
      (ret, if ret = .success then status else .noStatus)

/-- The end of `wait_for_job_end` when the time is over and the job was killed. -/
def MainContext.waitTimeout (ctx : MainContext) (jobId : ℕ) :
    (AipuStatus × AipuJobStatus) × MainContext :=
  ((.errorJobTimeout, .noStatus),
    (ctx.inGraph .errorJobNotExist (jobId2graphId jobId) (·.updateJobState jobId .timeout)).2)

/-- The end of `wait_for_job_end` for the first record that it has got. -/
def MainContext.waitReply (ctx : MainContext) (jobId : ℕ) (status : JobStatusDesc) :
    (AipuStatus × AipuJobStatus) × MainContext :=
  let (ret, ctx) := ctx.inGraph .errorJobNotExist (jobId2graphId jobId) (·.updateJobStatus status)
  ((ret, if ret = .success then status.state.jobStatus else .noStatus), ctx)

/-- `wait_for_job_end` with the answer of `poll_status`. -/
def MainContext.waitForJobEnd (ctx : MainContext) (jobId : ℕ) (timeOut : ℤ)
    (reply : Option (List JobStatusDesc)) : Option ((AipuStatus × AipuJobStatus) × MainContext) :=
  match ctx.waitStart jobId with
  | some result => some (result, ctx)
  | none =>
    if ctx.pollOpt then
      match ctx.waitSleep jobId with
      | some result => some (result, ctx)
      | none => if timeOut ≤ 0 then none else some (ctx.waitTimeout jobId)
    else
      match reply with
      | none => some ((.errorNullPtr, .noStatus), ctx)
      | some [] => if timeOut ≤ 0 then none else some (ctx.waitTimeout jobId)
      | some (status :: _) => some (ctx.waitReply jobId status)

/-- What `wait_for_job_end` may do to the context. -/
theorem MainContext.waitForJobEnd_cases {ctx ctx' : MainContext} {jobId : ℕ} {timeOut : ℤ}
    {reply : Option (List JobStatusDesc)} {result : AipuStatus × AipuJobStatus}
    (h : ctx.waitForJobEnd jobId timeOut reply = some (result, ctx')) :
    ctx' = ctx ∨ (result, ctx') = ctx.waitTimeout jobId ∨
      ∃ status rest, reply = some (status :: rest) ∧
        (result, ctx') = ctx.waitReply jobId status := by
  have hsame : ∀ result₀, some (result₀, ctx) = some (result, ctx') → ctx' = ctx := by
    rintro _ ⟨⟩
    rfl
  have hover : (if timeOut ≤ 0 then none else some (ctx.waitTimeout jobId)) = some (result, ctx') →
      (result, ctx') = ctx.waitTimeout jobId := by
    intro hover
    split_ifs at hover
    exact (Option.some.inj hover).symm
  unfold MainContext.waitForJobEnd at h
  split at h
  · exact .inl (hsame _ h)
  · by_cases hopt : ctx.pollOpt = true
    · rw [if_pos hopt] at h
      split at h
      · exact .inl (hsame _ h)
      · exact .inr (.inl (hover h))
    · rw [if_neg hopt] at h
      split at h
      · exact .inl (hsame _ h)
      · exact .inr (.inl (hover h))
      · exact .inr (.inr ⟨_, _, rfl, (Option.some.inj h).symm⟩)

/-- `get_max_poll_job_cnt` -/
def MainContext.getMaxPollJobCnt (ctx : MainContext) : ℕ :=
  1 + (ctx.graphs.map (·.getSchedJobCnt)).sum

/-- The loop of `poll_job_status` over the records. -/
def MainContext.pollReply (ctx : MainContext) : List JobStatusDesc → AipuStatus × MainContext
  | [] => (.success, ctx)
  | status :: rest =>
    match ctx.inGraph .errorJobNotExist (jobId2graphId status.jobId) (·.updateJobStatus status) with
    | (.success, ctx) => ctx.pollReply rest
    | (ret, ctx) => (ret, ctx)

/-- The loop gives no number to a job. -/
@[simp]
theorem MainContext.pollReply_nextAddr (ctx : MainContext) (records : List JobStatusDesc) :
    (ctx.pollReply records).2.nextAddr = ctx.nextAddr := by
  induction records generalizing ctx with
  | nil => rfl
  | cons status rest ih =>
    have hfirst := ctx.inGraph_nextAddr .errorJobNotExist (jobId2graphId status.jobId)
      (·.updateJobStatus status)
    rw [MainContext.pollReply]
    split
    next ctx₁ heq => rw [ih ctx₁, ← hfirst, heq]
    next ret ctx₁ _ heq => rw [← hfirst, heq]

/-- `poll_job_status` with the answer of `poll_status`: the status, the context and the number of
jobs that it reports. -/
def MainContext.pollJobStatus (ctx : MainContext) (reply : Option (List JobStatusDesc)) :
    AipuStatus × MainContext × Option ℕ :=
  match reply with
  | none => (.errorNullPtr, ctx, none)
  | some records =>
    let (ret, ctx) := ctx.pollReply records
    (ret, ctx, if ret = .success then some records.length else none)

/-- `clean_job` -/
def MainContext.cleanJob (ctx : MainContext) (jobId : ℕ) : AipuStatus × MainContext :=
  ctx.inGraph .errorJobNotExist (jobId2graphId jobId) (·.cleanJob jobId)

/-! ## What the calls do to the jobs -/

/-- Only the state of the job `jobId` was written, if there is one. -/
def MainContext.Writes (ctx : MainContext) (jobId : ℕ) (state : JobState)
    (ctx' : MainContext) : Prop :=
  ∀ id i, ctx'.job id i = if id = jobId2graphId jobId ∧ i = jobId then
    (ctx.job id i).map fun job => { job with state := state } else ctx.job id i

section Jobs

variable {ctx ctx' : MainContext} {id jobId i : ℕ}

/-- The jobs after a graph was written. -/
theorem MainContext.job_setGraph {g g' : Graph} (hg : ctx.getGraphObject g'.id = some g) :
    (ctx.setGraph g').job id i = if id = g'.id then g'.getJobPtr i else ctx.job id i := by
  rw [MainContext.job, MainContext.getGraphObject_setGraph hg, MainContext.job]
  split <;> rfl

/-- Writing a state in the graph that a job id routes to. -/
theorem MainContext.writes_setJobState {g : Graph} {state : JobState}
    (hg : ctx.getGraphObject (jobId2graphId jobId) = some g) {g' : Graph} (hid : g'.id = g.id)
    (hjobs : ∀ i, g'.getJobPtr i = (g.setJobState jobId state).getJobPtr i) :
    ctx.Writes jobId state (ctx.setGraph g') := by
  intro id i
  have hgid := (MainContext.getGraphObject_eq_some hg).2
  have hg' : ctx.getGraphObject g'.id = some g := by rw [hid, hgid, hg]
  rw [MainContext.job_setGraph hg', hid, hgid, hjobs, Graph.getJobPtr_setJobState]
  by_cases hroute : id = jobId2graphId jobId
  · have hjob : ctx.job id i = g.getJobPtr i := by rw [MainContext.job, hroute, hg]; rfl
    rw [if_pos hroute, hjob]
    by_cases hi : i = jobId
    · simp [hi, hroute]
    · simp [hi]
  · simp [hroute]

/-- Nothing was written. -/
theorem MainContext.Writes.refl {state : JobState} (hnone : ctx.getJob jobId = none) :
    ctx.Writes jobId state ctx := by
  intro id i
  split
  next h =>
    obtain ⟨rfl, rfl⟩ := h
    rw [MainContext.getJob] at hnone
    rw [hnone]
    rfl
  next => rfl

/-- `update_job_status` writes the state of the job, and finds it if there is one. -/
theorem MainContext.updateJobState_spec (ctx : MainContext) (jobId : ℕ) (state : JobState) :
    ctx.Writes jobId state
        (ctx.inGraph .errorJobNotExist (jobId2graphId jobId) (·.updateJobState jobId state)).2 ∧
      ((ctx.getJob jobId).isSome → (ctx.inGraph .errorJobNotExist (jobId2graphId jobId)
        (·.updateJobState jobId state)).1 = .success) := by
  unfold MainContext.inGraph
  split
  next hg =>
    have hnone : ctx.getJob jobId = none := by rw [MainContext.getJob, MainContext.job, hg]; rfl
    exact ⟨.refl hnone, by simp [hnone]⟩
  next g hg =>
    have hjob : ctx.getJob jobId = g.getJobPtr jobId := by
      rw [MainContext.getJob, MainContext.job, hg]
      rfl
    rw [hjob]
    dsimp only
    rw [Graph.updateJobState]
    split
    next hnone =>
      refine ⟨MainContext.writes_setJobState hg rfl fun i => ?_, by simp [hnone]⟩
      rw [Graph.getJobPtr_setJobState]
      by_cases hi : i = jobId
      · simp [hi, hnone]
      · simp [hi]
    next => exact ⟨MainContext.writes_setJobState hg rfl fun _ => rfl, fun _ => rfl⟩

/-- `wait_for_job_end` writes the state in a record that is about the job for which it waits. -/
theorem MainContext.waitReply_spec (ctx : MainContext) (status : JobStatusDesc) :
    ctx.Writes status.jobId status.state.jobState (ctx.waitReply status.jobId status).2 :=
  (ctx.updateJobState_spec status.jobId status.state.jobState).1

/-- A refused job loses its state; otherwise nothing changes. -/
theorem MainContext.scheduleJobEnd_spec (ctx : MainContext) (jobId : ℕ) (accepted : Bool) :
    (accepted = true → ∀ id i, (ctx.scheduleJobEnd jobId accepted).job id i = ctx.job id i) ∧
      (accepted = false → ctx.Writes jobId .noState (ctx.scheduleJobEnd jobId accepted)) := by
  unfold MainContext.scheduleJobEnd MainContext.inGraph Graph.scheduleJobEnd
  split
  next hg =>
    have hnone : ctx.getJob jobId = none := by rw [MainContext.getJob, MainContext.job, hg]; rfl
    exact ⟨fun _ _ _ => rfl, fun _ => .refl hnone⟩
  next g hg =>
    have hgid := (MainContext.getGraphObject_eq_some hg).2
    constructor
    · rintro rfl id i
      have hg' : ctx.getGraphObject g.id = some g := by rw [hgid, hg]
      dsimp only
      rw [if_pos rfl, MainContext.job_setGraph hg']
      split
      next hid => rw [MainContext.job, hid, hg']; rfl
      next => rfl
    · rintro rfl
      exact MainContext.writes_setJobState hg rfl fun _ => rfl

/-- `flush_job` marks a job that is built. -/
theorem MainContext.flushJobMark_spec {g g' : Graph} {job : JobDesc}
    (hg : ctx.getGraphObject (jobId2graphId jobId) = some g)
    (h : g.flushJobMark jobId = .ok (job, g')) :
    ctx.getJob jobId = some job ∧ job.state = .built ∧
      ctx.Writes jobId .sched (ctx.setGraph g') := by
  unfold Graph.flushJobMark at h
  split at h
  · cases h
  next job₁ hjob =>
    split_ifs at h with hbuilt
    obtain ⟨rfl, rfl⟩ := Prod.mk.inj (Except.ok.inj h)
    refine ⟨?_, not_not.mp hbuilt, MainContext.writes_setJobState hg rfl fun _ => rfl⟩
    rw [MainContext.getJob, MainContext.job, hg]
    exact hjob

/-- `create_new_job` builds at most one job, in the graph that it is called on. -/
theorem MainContext.createNewJob_spec {handle : ℕ} {inRange : Bool} {config : UserJobDesc}
    {ret : AipuStatus} {new : Option ℕ}
    (h : ctx.createNewJob id handle inRange config = some (ret, ctx', new)) :
    (ctx.nextAddr ≤ ctx'.nextAddr ∧ ∀ id' i, ctx'.job id' i = ctx.job id' i) ∨
      ctx'.nextAddr = ctx.nextAddr + 1 ∧ ∃ g jobId, ctx.getGraphObject id = some g ∧
        g.BuildsJob handle inRange ∧ g.createJobIdInner = some jobId ∧
        ∀ id' i, ctx'.job id' i = if id' = id ∧ i = jobId then
          some { addr := ctx.nextAddr, id := jobId, state := .built, bufHandle := handle,
                 config := config }
          else ctx.job id' i := by
  unfold MainContext.createNewJob at h
  split at h
  · obtain ⟨-, rfl, rfl⟩ : _ ∧ ctx = ctx' ∧ none = new := by simpa using h
    exact .inl ⟨Nat.le_refl _, fun _ _ => rfl⟩
  next g hg =>
    split at h
    · cases h
    next ret₁ g₁ new₁ hbuild =>
      obtain ⟨-, rfl, rfl⟩ : _ ∧ _ = ctx' ∧ new₁ = new := by simpa using h
      have hgid := (MainContext.getGraphObject_eq_some hg).2
      have haddr : ∀ id' i, { ctx.setGraph g₁ with nextAddr := ctx.nextAddr + 1 }.job id' i =
          (ctx.setGraph g₁).job id' i := fun _ _ => rfl
      have hjob : ∀ i, ctx.job id i = g.getJobPtr i := by
        intro i
        rw [MainContext.job, hg]
        rfl
      rcases Graph.buildNewJob_cases hbuild with ⟨-, -, hg₁⟩ | ⟨hbuilds, jobId, hid, -, hg₁⟩
      · have hsame : g₁.id = g.id ∧ ∀ i, g₁.getJobPtr i = g.getJobPtr i := by
          rcases hg₁ with rfl | rfl <;> exact ⟨rfl, fun _ => rfl⟩
        refine .inl ⟨Nat.le_succ _, fun id' i => ?_⟩
        rw [haddr, MainContext.job_setGraph (by rw [hsame.1, hgid, hg]), hsame.1, hgid]
        split
        next heq => rw [heq, hjob, hsame.2]
        next => rfl
      · have hg₁id : g₁.id = id := by rw [hg₁]; exact hgid
        refine .inr ⟨rfl, g, jobId, hg, hbuilds, hid, fun id' i => ?_⟩
        rw [haddr, MainContext.job_setGraph (by rw [hg₁id, hg]), hg₁id]
        by_cases hid' : id' = id
        · rw [if_pos hid', hg₁, Graph.getJobPtr_insertJob, hid', hjob]
          by_cases hi : i = jobId
          · simp [hi]
          · simp [hi, Graph.setTbufFree, Graph.getJobPtr]
        · simp [hid']

/-- `clean_job` erases at most the job that it names, when it is neither built nor scheduled. -/
theorem MainContext.cleanJob_spec (ctx : MainContext) (jobId : ℕ) :
    (∀ id i, (ctx.cleanJob jobId).2.job id i = ctx.job id i) ∨
      (∃ job, ctx.getJob jobId = some job ∧ job.state ≠ .built ∧ job.state ≠ .sched) ∧
        ∀ id i, (ctx.cleanJob jobId).2.job id i =
          if id = jobId2graphId jobId ∧ i = jobId then none else ctx.job id i := by
  unfold MainContext.cleanJob MainContext.inGraph
  split
  · exact .inl fun _ _ => rfl
  next g hg =>
    have hgid := (MainContext.getGraphObject_eq_some hg).2
    have hjob : ∀ i, ctx.job (jobId2graphId jobId) i = g.getJobPtr i := by
      intro i
      rw [MainContext.job, hg]
      rfl
    have hsame : ∀ id i, (ctx.setGraph g).job id i = ctx.job id i := by
      intro id i
      rw [MainContext.job_setGraph (by rw [hgid, hg]), hgid]
      split
      next heq => rw [heq, hjob]
      next => rfl
    dsimp only
    rw [Graph.cleanJob]
    split
    · exact .inl hsame
    next job hfound =>
      split
      · exact .inl hsame
      · exact .inl hsame
      next hbuilt hsched =>
        have hid := (Graph.getJobPtr_eq_some hfound).2
        refine .inr ⟨⟨job, by rw [MainContext.getJob, hjob, hfound], hbuilt, hsched⟩,
          fun id i => ?_⟩
        dsimp only
        rw [MainContext.job_setGraph (by exact hgid ▸ hg)]
        change (if id = g.id then _ else _) = _
        rw [hgid, Graph.getJobPtr_eraseJob, hid]
        by_cases hroute : id = jobId2graphId jobId
        · rw [if_pos hroute, hroute, hjob]
          by_cases hi : i = jobId
          · simp [hi]
          · simp [hi, Graph.deleteFromSchedQueueInner, Graph.setTbufFree, Graph.getJobPtr]
        · simp [hroute]

end Jobs

/-- Some jobs have got a new state, which meets `P`. -/
def MainContext.Sets (P : ℕ → JobState → Prop) (ctx ctx' : MainContext) : Prop :=
  ∀ id i, ctx'.job id i = ctx.job id i ∨ id = jobId2graphId i ∧ ∃ job state,
    ctx.job id i = some job ∧ P i state ∧ ctx'.job id i = some { job with state := state }

section Sets

variable {ctx ctx' ctx'' : MainContext} {P : ℕ → JobState → Prop}

/-- No job has got a new state. -/
theorem MainContext.Sets.of_same (h : ∀ id i, ctx'.job id i = ctx.job id i) : ctx.Sets P ctx' :=
  fun id i => .inl (h id i)

/-- One job has got a new state, if there is one. -/
theorem MainContext.Writes.sets {jobId : ℕ} {state : JobState} (h : ctx.Writes jobId state ctx')
    (hP : P jobId state) : ctx.Sets P ctx' := by
  intro id i
  rw [h]
  split_ifs with hij
  · obtain ⟨rfl, rfl⟩ := hij
    cases hjob : ctx.job (jobId2graphId i) i with
    | none => exact .inl rfl
    | some job => exact .inr ⟨rfl, job, state, rfl, hP, rfl⟩
  · exact .inl rfl

/-- New states one after the other. -/
theorem MainContext.Sets.trans (h : ctx.Sets P ctx') (h' : ctx'.Sets P ctx'') :
    ctx.Sets P ctx'' := by
  intro id i
  rcases h' id i with hsame' | ⟨hroute, job', state', hjob', hP', hset'⟩
  · rw [hsame']
    exact h id i
  · rcases h id i with hsame | ⟨-, job, state, hjob, -, hset⟩
    · exact .inr ⟨hroute, job', state', hsame ▸ hjob', hP', hset'⟩
    · have hjob₁ : job' = { job with state := state } := Option.some.inj (hjob'.symm.trans hset)
      refine .inr ⟨hroute, job, state', hjob, hP', ?_⟩
      rw [hset', hjob₁]

/-- The loop of `poll_job_status` sets the states in its records. -/
theorem MainContext.pollReply_sets (ctx : MainContext) {records : List JobStatusDesc}
    (hP : ∀ status ∈ records, P status.jobId status.state.jobState) :
    ctx.Sets P (ctx.pollReply records).2 := by
  induction records generalizing ctx with
  | nil => exact .of_same fun _ _ => rfl
  | cons status rest ih =>
    have hfirst : ctx.Sets P
        (ctx.inGraph .errorJobNotExist (jobId2graphId status.jobId) (·.updateJobStatus status)).2 :=
      (ctx.updateJobState_spec status.jobId status.state.jobState).1.sets (hP _ List.mem_cons_self)
    rw [MainContext.pollReply]
    split
    next ctx₁ heq =>
      rw [heq] at hfirst
      exact hfirst.trans (ih ctx₁ fun x hx => hP x (List.mem_cons_of_mem _ hx))
    next ret ctx₁ _ heq =>
      rw [heq] at hfirst
      exact hfirst

end Sets

/-! ## Steps -/

/-- A call of the context. -/
inductive ContextAction
  | loadGraph (ret : AipuStatus)
  | unloadGraph (id : ℕ) (textOk : Bool) (oks : Oracle)
  | allocTensorBuffers (id : ℕ) (ok : Bool)
  | freeTensorBuffers (handle : ℕ) (ok : Bool)
  | createNewJob (id handle : ℕ) (inRange : Bool) (config : UserJobDesc)
  | flushJob (jobId : ℕ) (accepted : Bool)
  | waitForJobEnd (jobId : ℕ) (timeOut : ℤ) (reply : Option (List JobStatusDesc))
  | pollJobStatus (reply : Option (List JobStatusDesc))
  | cleanJob (jobId : ℕ)
deriving DecidableEq

/-- The ids that the calls give away. -/
inductive ContextEvent
  | loaded (id : ℕ)
  | allocated (id handle : ℕ)
  | created (id jobId : ℕ)
deriving DecidableEq, Repr

/-- One call. -/
def contextStep (ctx : MainContext) : ContextAction → Option (MainContext × List ContextEvent)
  | .loadGraph ret =>
    (ctx.loadGraph ret).map fun (_, ctx, id) => (ctx, id.toList.map .loaded)
  | .unloadGraph id textOk oks => some ((ctx.unloadGraph id textOk oks).2, [])
  | .allocTensorBuffers id ok =>
    (ctx.allocTensorBuffers id ok).map fun (_, ctx, handle) =>
      (ctx, handle.toList.map (.allocated id))
  | .freeTensorBuffers handle ok => some ((ctx.freeTensorBuffers handle ok).2, [])
  | .createNewJob id handle inRange config =>
    (ctx.createNewJob id handle inRange config).map fun (_, ctx, jobId) =>
      (ctx, jobId.toList.map (.created id))
  | .flushJob jobId accepted => some ((ctx.flushJob jobId accepted).2, [])
  | .waitForJobEnd jobId timeOut reply =>
    (ctx.waitForJobEnd jobId timeOut reply).map fun (_, ctx) => (ctx, [])
  | .pollJobStatus reply => some ((ctx.pollJobStatus reply).2.1, [])
  | .cleanJob jobId => some ((ctx.cleanJob jobId).2, [])

/-- The calls of a context, from its creation on. -/
def contextSystem : System MainContext ContextAction ContextEvent where
  init ctx := ctx.graphs = []
  step := contextStep

end Aipu
