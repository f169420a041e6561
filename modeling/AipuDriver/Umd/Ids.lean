import AipuDriver.Umd.Context
import Mathlib.Data.Nat.Find

/-!
# Ids of jobs and buffers

An id of a job or of a buffer is the id of its graph, shifted left by 16 bits, plus a counter.  The
calls of a context find the graph by the upper half of the id, so an id has to route to the graph
that holds it (`MainContext.RoutesHome`).

The search for a job id asks `is_job_exist_inner`, which does not see the jobs that have timed out,
nor those that the kernel has refused: their ids are given away again although they are stored.
Neither search knows where the range of the graph ends.  A call gives away a fresh id that routes
home exactly when its search meets, within the range, an id that is in no use (`Graph.FreshJobId`,
`Graph.FreshHandle`).
-/

namespace Aipu

open Transition UnusedId

/-! ## The property -/

/-- The ids in a graph are unique, and they route to it. -/
structure Graph.Home (g : Graph) : Prop where
  jobs : ∀ job ∈ g.jobs, jobId2graphId job.id = g.id
  tbufs : ∀ tbuf ∈ g.tbufs, handle2graphId tbuf.handle = g.id
  jobsNodup : (g.jobs.map JobDesc.id).Nodup
  tbufsNodup : (g.tbufs.map TbufInfo.handle).Nodup

/-- Ids are unique and route home. -/
structure MainContext.RoutesHome (ctx : MainContext) : Prop where
  nodup : (ctx.graphs.map Graph.id).Nodup
  home : ∀ g ∈ ctx.graphs, g.Home

/-- The id given away is not in use, in whatever state its job is. -/
def ContextEvent.Fresh (ctx : MainContext) : ContextEvent → Prop
  | .loaded id => ∀ g ∈ ctx.graphs, g.id ≠ id
  | .allocated _ handle => ∀ g ∈ ctx.graphs, ∀ tbuf ∈ g.tbufs, tbuf.handle ≠ handle
  | .created _ jobId => ∀ g ∈ ctx.graphs, ∀ job ∈ g.jobs, job.id ≠ jobId

/-! ## When it is kept -/

/-- Past the ids that `is_job_exist_inner` sees there is, in the range of the graph, one that no job
has. -/
def Graph.FreshJobId (g : Graph) : Prop :=
  g.id < 2 ^ 16 ∧ ∃ k < 2 ^ 16, (∀ l < k, g.isJobExistInner (g.idBase + l) = true) ∧
    g.getJobPtr (g.idBase + k) = none

/-- There is a handle in the range of the graph that no buffer has. -/
def Graph.FreshHandle (g : Graph) : Prop :=
  g.id < 2 ^ 16 ∧ ∃ k < 2 ^ 16, g.getTbufPtr (g.idBase + k) = none

/-- A call that comes to the search for an id finds one that is fresh. -/
def KeepsIds (ctx : MainContext) : ContextAction → Prop
  | .allocTensorBuffers id ok => ok = true → ∀ g, ctx.getGraphObject id = some g → g.FreshHandle
  | .createNewJob id handle inRange _ =>
    ∀ g, ctx.getGraphObject id = some g → g.BuildsJob handle inRange → g.FreshJobId
  | _ => True

section Ids

variable {g g' : Graph} {ctx ctx' : MainContext}

/-! ## Searches in the range of a graph -/

/-- The first id of a graph is a `uint32_t`. -/
theorem Graph.idBase_lt (g : Graph) : g.idBase < uint32Size := Nat.mod_lt _ (by decide)

/-- An id of the range of a graph routes to the graph. -/
theorem Graph.idBase_route (hid : g.id < 2 ^ 16) {k : ℕ} (hk : k < 2 ^ 16) :
    (g.idBase + k) % uint32Size = g.idBase + k ∧ (g.idBase + k) / 2 ^ 16 = g.id := by
  unfold Graph.idBase uint32Size
  omega

/-- Only ids of its range route to a graph. -/
theorem Graph.route_idBase {k : ℕ} (hk : k < uint32Size)
    (hroute : (g.idBase + k) % uint32Size / 2 ^ 16 = g.id) : g.id < 2 ^ 16 ∧ k < 2 ^ 16 := by
  unfold Graph.idBase uint32Size at *
  omega

/-- What a search that starts at the first id of the graph finds is in no use and routes home iff
the search meets such an id within the range. -/
theorem Graph.search_home {seen : ℕ → Bool} {n i : ℕ} (p : ℕ → Prop)
    (hsearch : firstUnused seen uint32Size n g.idBase = some i)
    (hseen : ∀ j, p j → seen j = false) :
    (i / 2 ^ 16 = g.id ∧ p i) ↔
      g.id < 2 ^ 16 ∧ ∃ k < 2 ^ 16, (∀ l < k, seen (g.idBase + l) = true) ∧ p (g.idBase + k) := by
  obtain ⟨k, hk, rfl, hfree, hbefore⟩ :=
    exists_lt_of_firstUnused g.idBase_lt hsearch
  constructor
  · rintro ⟨hroute, hp⟩
    obtain ⟨hid, hk⟩ := Graph.route_idBase hk hroute
    have hrange : ∀ l ≤ k, (g.idBase + l) % uint32Size = g.idBase + l := fun l hl =>
      (Graph.idBase_route hid (Nat.lt_of_le_of_lt hl hk)).1
    refine ⟨hid, k, hk, fun l hl => ?_, hrange k le_rfl ▸ hp⟩
    rw [← hrange l hl.le]
    exact hbefore l hl
  · rintro ⟨hid, k', hk', hbefore', hp⟩
    have hrange : ∀ l ≤ k', (g.idBase + l) % uint32Size = g.idBase + l := fun l hl =>
      (Graph.idBase_route hid (Nat.lt_of_le_of_lt hl hk')).1
    -- both are the first id that is not seen
    have hkk' : k = k' := by
      rcases Nat.lt_trichotomy k k' with hlt | heq | hlt
      · rw [hrange k hlt.le, hbefore' k hlt] at hfree
        cases hfree
      · exact heq
      · have := hbefore k' hlt
        rw [hrange k' le_rfl, hseen _ hp] at this
        cases this
    subst hkk'
    rw [hrange k le_rfl]
    exact ⟨(Graph.idBase_route hid hk').2, hp⟩

/-- When the new job id is in no use and routes home. -/
theorem Graph.createJobIdInner_home {jobId : ℕ} (h : g.createJobIdInner = some jobId) :
    (jobId2graphId jobId = g.id ∧ g.getJobPtr jobId = none) ↔ g.FreshJobId := by
  refine Graph.search_home (fun i => g.getJobPtr i = none) h fun i hi => ?_
  rw [← Bool.not_eq_true, Graph.isJobExistInner_eq_true]
  rintro ⟨job, hjob, -⟩
  rw [hi] at hjob
  cases hjob

/-- When the new handle routes home; that it is in no use goes without saying. -/
theorem Graph.createBufHandleInner_home {handle : ℕ} (h : g.createBufHandleInner = some handle) :
    handle2graphId handle = g.id ↔ g.FreshHandle := by
  have hunused := not_used_of_firstUnused g.idBase_lt h
  have hhome := Graph.search_home (fun i => g.getTbufPtr i = none) h (by simp)
  simp only [Option.isSome_eq_false_iff, Option.isNone_iff_eq_none] at hunused
  rw [Graph.FreshHandle, handle2graphId]
  constructor
  · intro hroute
    obtain ⟨hid, k, hk, -, hnone⟩ := hhome.mp ⟨hroute, hunused⟩
    exact ⟨hid, k, hk, hnone⟩
  · rintro ⟨hid, hk⟩
    -- the first one of the range
    have hfirst := Nat.find_spec hk
    refine (hhome.mpr ⟨hid, Nat.find hk, hfirst.1, fun l hl => ?_, hfirst.2⟩).1
    have := Nat.find_min hk hl
    rw [Option.isSome_iff_ne_none]
    exact fun hnone => this ⟨hl.trans hfirst.1, hnone⟩

/-! ## Calls that take ids away -/

/-- The graph keeps its id and gets no new id of a job or a buffer. -/
structure Graph.Shrinks (g g' : Graph) : Prop where
  id : g'.id = g.id
  jobs : (g'.jobs.map JobDesc.id).Sublist (g.jobs.map JobDesc.id)
  tbufs : (g'.tbufs.map TbufInfo.handle).Sublist (g.tbufs.map TbufInfo.handle)

/-- A graph that does not change. -/
theorem Graph.Shrinks.refl (g : Graph) : g.Shrinks g := ⟨rfl, .refl _, .refl _⟩

/-- One change after the other. -/
theorem Graph.Shrinks.trans {g'' : Graph} (h : g.Shrinks g') (h' : g'.Shrinks g'') :
    g.Shrinks g'' :=
  ⟨h'.id.trans h.id, h'.jobs.trans h.jobs, h'.tbufs.trans h.tbufs⟩

/-- The ids that are left are still unique and route home. -/
theorem Graph.Home.shrink (hg : g.Home) (h : g.Shrinks g') : g'.Home := by
  constructor
  · intro job hjob
    obtain ⟨old, hold, hid⟩ := List.mem_map.mp (h.jobs.subset (List.mem_map_of_mem hjob))
    rw [h.id, ← hid]
    exact hg.jobs old hold
  · intro tbuf htbuf
    obtain ⟨old, hold, hid⟩ := List.mem_map.mp (h.tbufs.subset (List.mem_map_of_mem htbuf))
    rw [h.id, ← hid]
    exact hg.tbufs old hold
  · exact hg.jobsNodup.sublist h.jobs
  · exact hg.tbufsNodup.sublist h.tbufs

/-- A new state keeps the ids. -/
theorem Graph.setJobState_shrinks (g : Graph) (jobId : ℕ) (state : JobState) :
    g.Shrinks (g.setJobState jobId state) := by
  refine ⟨rfl, ?_, .refl _⟩
  have hids : JobDesc.id ∘
      (fun job => if job.id = jobId then { job with state := state } else job) =
      JobDesc.id := by
    funext job
    by_cases hid : job.id = jobId <;> simp [hid]
  rw [Graph.setJobState, List.map_map, hids]

/-- A new flag keeps the handles. -/
theorem Graph.setTbufFree_shrinks (g : Graph) (handle : ℕ) (isFree : Bool) :
    g.Shrinks (g.setTbufFree handle isFree) := by
  refine ⟨rfl, .refl _, ?_⟩
  have hids : TbufInfo.handle ∘
      (fun tbuf => if tbuf.handle = handle then { tbuf with isFree := isFree } else tbuf) =
      TbufInfo.handle := by
    funext tbuf
    by_cases hid : tbuf.handle = handle <;> simp [hid]
  rw [Graph.setTbufFree, List.map_map, hids]

/-- `free_thread_buffer` takes at most a handle away. -/
theorem Graph.freeThreadBuffer_shrinks (g : Graph) (handle : ℕ) (ok : Bool) :
    g.Shrinks (g.freeThreadBuffer handle ok).2 := by
  unfold Graph.freeThreadBuffer
  split
  · exact .refl g
  · split_ifs
    · exact ⟨rfl, .refl _, List.filter_sublist.map _⟩
    · exact .refl g
    · exact .refl g

/-- So does the loop of `unload`. -/
theorem Graph.freeThreadBuffers_shrinks (g : Graph) (oks : Oracle) (handles : List ℕ) :
    g.Shrinks (g.freeThreadBuffers oks handles).2 := by
  induction handles generalizing g oks with
  | nil => exact .refl g
  | cons handle rest ih =>
    have hfirst := g.freeThreadBuffer_shrinks handle oks.next.1
    rw [Graph.freeThreadBuffers]
    split
    next g₁ heq =>
      rw [heq] at hfirst
      exact hfirst.trans (ih _ _)
    next ret g₁ _ heq =>
      rw [heq] at hfirst
      exact hfirst

/-- `unload` adds no ids. -/
theorem Graph.unload_shrinks (g : Graph) (textOk : Bool) (oks : Oracle) :
    g.Shrinks (g.unload textOk oks).2 := by
  have hjobs : g.Shrinks { g with jobs := [] } := ⟨rfl, List.nil_sublist _, .refl _⟩
  unfold Graph.unload
  split_ifs
  · exact hjobs.trans (Graph.freeThreadBuffers_shrinks _ _ _)
  · exact hjobs
  · exact .refl g

/-- `flush_job` adds no ids. -/
theorem Graph.flushJob_shrinks (g : Graph) (jobId : ℕ) (accepted : Bool) :
    g.Shrinks (g.flushJob jobId accepted).2 := by
  rw [Graph.flushJob]
  split
  · exact .refl g
  next job g₁ heq =>
    have hmark : g.Shrinks g₁ := by
      unfold Graph.flushJobMark at heq
      split at heq
      · cases heq
      · split_ifs at heq
        obtain ⟨-, rfl⟩ := Prod.mk.inj (Except.ok.inj heq)
        have hset := g.setJobState_shrinks jobId .sched
        exact ⟨hset.id, hset.jobs, hset.tbufs⟩
    dsimp only
    rw [Graph.scheduleJobEnd]
    split_ifs
    · exact hmark
    · exact hmark.trans (g₁.setJobState_shrinks jobId .noState)

/-- `update_job_status` adds no ids. -/
theorem Graph.updateJobState_shrinks (g : Graph) (jobId : ℕ) (state : JobState) :
    g.Shrinks (g.updateJobState jobId state).2 := by
  unfold Graph.updateJobState
  split
  · exact .refl g
  · exact g.setJobState_shrinks jobId state

/-- `clean_job` takes at most an id away. -/
theorem Graph.cleanJob_shrinks (g : Graph) (jobId : ℕ) : g.Shrinks (g.cleanJob jobId).2 := by
  unfold Graph.cleanJob
  split
  · exact .refl g
  next job _ =>
    split
    · exact .refl g
    · exact .refl g
    · refine (g.setTbufFree_shrinks job.bufHandle true).trans ⟨rfl, ?_, .refl _⟩
      exact List.filter_sublist.map _

/-- Writing a graph whose ids are in order. -/
theorem MainContext.RoutesHome.setGraph (h : ctx.RoutesHome) (hg' : g'.Home) :
    (ctx.setGraph g').RoutesHome := by
  constructor
  · have hids : Graph.id ∘ (fun h => if h.id = g'.id then g' else h) = Graph.id := by
      funext h
      by_cases hh : h.id = g'.id <;> simp [hh]
    rw [MainContext.setGraph, List.map_map, hids]
    exact h.nodup
  · intro g₁ hg₁
    obtain ⟨g₀, hg₀, rfl⟩ := List.mem_map.mp hg₁
    split_ifs
    · exact hg'
    · exact h.home g₀ hg₀

/-- A call that adds no ids to the graph it is on. -/
theorem MainContext.RoutesHome.inGraph (h : ctx.RoutesHome) {err : AipuStatus} {id : ℕ}
    {f : Graph → AipuStatus × Graph} (hf : ∀ g : Graph, g.Shrinks (f g).2) :
    (ctx.inGraph err id f).2.RoutesHome := by
  unfold MainContext.inGraph
  split
  · exact h
  next g hg =>
    have hmem := (MainContext.getGraphObject_eq_some hg).1
    exact h.setGraph ((h.home g hmem).shrink (hf g))

/-- The loop of `poll_job_status` adds no ids. -/
theorem MainContext.RoutesHome.pollReply (h : ctx.RoutesHome) (records : List JobStatusDesc) :
    (ctx.pollReply records).2.RoutesHome := by
  induction records generalizing ctx with
  | nil => exact h
  | cons status rest ih =>
    have hfirst : (ctx.inGraph .errorJobNotExist (jobId2graphId status.jobId)
        (·.updateJobStatus status)).2.RoutesHome :=
      h.inGraph fun g => g.updateJobState_shrinks status.jobId status.state.jobState
    rw [MainContext.pollReply]
    split
    next ctx₁ heq =>
      rw [heq] at hfirst
      exact ih hfirst
    next ret ctx₁ _ heq =>
      rw [heq] at hfirst
      exact hfirst

/-- `poll_job_status` adds no ids. -/
theorem MainContext.RoutesHome.pollJobStatus (h : ctx.RoutesHome)
    (reply : Option (List JobStatusDesc)) : (ctx.pollJobStatus reply).2.1.RoutesHome := by
  unfold MainContext.pollJobStatus
  split
  · exact h
  · exact h.pollReply _

/-- `wait_for_job_end` adds no ids. -/
theorem MainContext.RoutesHome.waitForJobEnd (h : ctx.RoutesHome) {jobId : ℕ} {timeOut : ℤ}
    {reply : Option (List JobStatusDesc)} {result : AipuStatus × AipuJobStatus}
    (hwait : ctx.waitForJobEnd jobId timeOut reply = some (result, ctx')) : ctx'.RoutesHome := by
  rcases MainContext.waitForJobEnd_cases hwait with rfl | hover | ⟨status, -, -, hreply⟩
  · exact h
  · obtain ⟨-, rfl⟩ := Prod.mk.inj hover
    exact h.inGraph fun g => g.updateJobState_shrinks jobId .timeout
  · obtain ⟨-, rfl⟩ := Prod.mk.inj hreply
    exact h.inGraph fun g => g.updateJobState_shrinks status.jobId status.state.jobState

/-- `unload_graph` adds no ids. -/
theorem MainContext.RoutesHome.unloadGraph (h : ctx.RoutesHome) (id : ℕ) (textOk : Bool)
    (oks : Oracle) : (ctx.unloadGraph id textOk oks).2.RoutesHome := by
  unfold MainContext.unloadGraph
  split
  · exact h
  next g hg =>
    have hmem := (MainContext.getGraphObject_eq_some hg).1
    have hunload := (h.home g hmem).shrink (g.unload_shrinks textOk oks)
    split
    · exact ⟨h.nodup.sublist (List.filter_sublist.map _),
        fun g' hg' => h.home g' (List.mem_of_mem_filter hg')⟩
    next ret g₁ _ heq =>
      rw [heq] at hunload
      exact h.setGraph hunload

/-! ## Calls that give ids away -/

/-- A new job in a graph. -/
theorem Graph.Home.insertJob_iff (hg : g.Home) {job : JobDesc} :
    (g.insertJob job).Home ↔ jobId2graphId job.id = g.id := by
  constructor
  · intro h
    exact h.jobs job (List.mem_cons_self ..)
  · intro hroute
    refine ⟨?_, hg.tbufs, ?_, hg.tbufsNodup⟩
    · intro other hother
      rcases List.mem_cons.mp hother with rfl | hother
      · exact hroute
      · exact hg.jobs other (List.mem_of_mem_filter hother)
    · rw [Graph.insertJob, List.map_cons, List.nodup_cons]
      refine ⟨?_, hg.jobsNodup.sublist (List.filter_sublist.map _)⟩
      simp

/-- A new buffer in a graph. -/
theorem Graph.Home.insertTbuf_iff (hg : g.Home) {tbuf : TbufInfo} :
    ({ g with tbufs := tbuf :: g.tbufs.filter (·.handle ≠ tbuf.handle) } : Graph).Home ↔
      handle2graphId tbuf.handle = g.id := by
  constructor
  · intro h
    exact h.tbufs tbuf (List.mem_cons_self ..)
  · intro hroute
    refine ⟨hg.jobs, ?_, hg.jobsNodup, ?_⟩
    · intro other hother
      rcases List.mem_cons.mp hother with rfl | hother
      · exact hroute
      · exact hg.tbufs other (List.mem_of_mem_filter hother)
    · rw [List.map_cons, List.nodup_cons]
      refine ⟨?_, hg.tbufsNodup.sublist (List.filter_sublist.map _)⟩
      simp

/-- A graph is written in its place. -/
theorem MainContext.RoutesHome.setGraph_iff (h : ctx.RoutesHome) (hg : g ∈ ctx.graphs)
    (hid : g.id = g'.id) : (ctx.setGraph g').RoutesHome ↔ g'.Home := by
  refine ⟨fun h' => h'.home g' (List.mem_map.mpr ⟨g, hg, ?_⟩), h.setGraph⟩
  rw [if_pos hid]

/-- The graph that holds a job is the one that its id routes to. -/
theorem MainContext.RoutesHome.job_graph (h : ctx.RoutesHome) (hg : g ∈ ctx.graphs)
    (hg' : g' ∈ ctx.graphs) {job : JobDesc} (hjob : job ∈ g'.jobs)
    (hroute : jobId2graphId job.id = g.id) : g' = g :=
  List.inj_on_of_nodup_map h.nodup hg' hg (((h.home g' hg').jobs job hjob).symm.trans hroute)

/-- The graph that holds a buffer is the one that its handle routes to. -/
theorem MainContext.RoutesHome.tbuf_graph (h : ctx.RoutesHome) (hg : g ∈ ctx.graphs)
    (hg' : g' ∈ ctx.graphs) {tbuf : TbufInfo} (htbuf : tbuf ∈ g'.tbufs)
    (hroute : handle2graphId tbuf.handle = g.id) : g' = g :=
  List.inj_on_of_nodup_map h.nodup hg' hg (((h.home g' hg').tbufs tbuf htbuf).symm.trans hroute)

/-- A job id that routes to the graph is in use in no graph iff it is not in use in this one. -/
theorem MainContext.RoutesHome.created_fresh (h : ctx.RoutesHome) (hg : g ∈ ctx.graphs) (id : ℕ)
    {jobId : ℕ} (hroute : jobId2graphId jobId = g.id) :
    (ContextEvent.created id jobId).Fresh ctx ↔ g.getJobPtr jobId = none := by
  rw [← Option.not_isSome_iff_eq_none, Graph.isSome_getJobPtr]
  constructor
  · rintro hfresh ⟨job, hjob, hid⟩
    exact hfresh g hg job hjob hid
  · rintro hnone g' hg' job hjob rfl
    obtain rfl := h.job_graph hg hg' hjob hroute
    exact hnone ⟨job, hjob, rfl⟩

/-- A handle that routes to the graph is in use in no graph iff it is not in use in this one. -/
theorem MainContext.RoutesHome.allocated_fresh (h : ctx.RoutesHome) (hg : g ∈ ctx.graphs) (id : ℕ)
    {handle : ℕ} (hroute : handle2graphId handle = g.id) :
    (ContextEvent.allocated id handle).Fresh ctx ↔ g.getTbufPtr handle = none := by
  rw [← Option.not_isSome_iff_eq_none, Graph.isSome_getTbufPtr]
  constructor
  · rintro hfresh ⟨tbuf, htbuf, hid⟩
    exact hfresh g hg tbuf htbuf hid
  · rintro hnone g' hg' tbuf htbuf rfl
    obtain rfl := h.tbuf_graph hg hg' htbuf hroute
    exact hnone ⟨tbuf, htbuf, rfl⟩

/-- The property after a step. -/
def KeptIds (ctx ctx' : MainContext) (es : List ContextEvent) : Prop :=
  ctx'.RoutesHome ∧ ∀ e ∈ es, e.Fresh ctx

/-- `load_graph` gives a fresh id away. -/
theorem MainContext.RoutesHome.loadGraph (h : ctx.RoutesHome) {ret ret' : AipuStatus}
    {id : Option ℕ} (hload : ctx.loadGraph ret = some (ret', ctx', id)) :
    KeptIds ctx ctx' (id.toList.map .loaded) := by
  unfold MainContext.loadGraph at hload
  split at hload
  · cases hload
  next i hi =>
    have hfree := not_used_of_firstUnused (by decide) hi
    have hnew : ∀ g ∈ ctx.graphs, g.id ≠ i := by
      intro g hg hid
      have hsome := MainContext.isSome_getGraphObject.mpr ⟨g, hg, hid⟩
      rw [hsome] at hfree
      cases hfree
    split_ifs at hload
    · obtain ⟨-, rfl, rfl⟩ : _ ∧ _ = ctx' ∧ some i = id := by simpa using hload
      refine ⟨⟨?_, ?_⟩, ?_⟩
      · rw [List.map_cons, List.nodup_cons]
        refine ⟨fun hmem => ?_, h.nodup⟩
        obtain ⟨g, hg, hid⟩ := List.mem_map.mp hmem
        exact hnew g hg hid
      · intro g hg
        rcases List.mem_cons.mp hg with rfl | hg
        · exact ⟨by simp, by simp, List.nodup_nil, List.nodup_nil⟩
        · exact h.home g hg
      · intro e he
        obtain rfl : e = .loaded i := by simpa using he
        exact hnew
    · obtain ⟨-, rfl, rfl⟩ : _ ∧ ctx = ctx' ∧ none = id := by simpa using hload
      exact ⟨h, by simp⟩

/-- When `alloc_tensor_buffers` keeps the property. -/
theorem MainContext.RoutesHome.allocTensorBuffers (h : ctx.RoutesHome) {id : ℕ} {ok : Bool}
    {ret : AipuStatus} {handle : Option ℕ}
    (halloc : ctx.allocTensorBuffers id ok = some (ret, ctx', handle)) :
    KeepsIds ctx (.allocTensorBuffers id ok) ↔
      KeptIds ctx ctx' (handle.toList.map (.allocated id)) := by
  unfold MainContext.allocTensorBuffers at halloc
  split at halloc
  next hnone =>
    obtain ⟨-, rfl, rfl⟩ : _ ∧ ctx = ctx' ∧ none = handle := by simpa using halloc
    exact iff_of_true (by simp [KeepsIds, hnone]) ⟨h, by simp⟩
  next g hg =>
    obtain ⟨hmem, hid⟩ := MainContext.getGraphObject_eq_some hg
    split at halloc
    · cases halloc
    next ret₁ g₁ handle₁ hgraph =>
      obtain ⟨-, rfl, rfl⟩ : _ ∧ ctx.setGraph g₁ = ctx' ∧ handle₁ = handle := by simpa using halloc
      unfold Graph.allocThreadBuffer at hgraph
      split_ifs at hgraph with hok
      · split at hgraph
        · cases hgraph
        next i hi =>
          obtain ⟨-, hgraph⟩ := Prod.mk.inj (Option.some.inj hgraph)
          obtain ⟨hg₁, rfl⟩ := Prod.mk.inj hgraph
          have hkeeps : KeepsIds ctx (.allocTensorBuffers id ok) ↔ handle2graphId i = g.id := by
            rw [Graph.createBufHandleInner_home hi]
            simp [KeepsIds, hok, hg]
          have hunused := not_used_of_firstUnused g.idBase_lt hi
          simp only [Option.isSome_eq_false_iff, Option.isNone_iff_eq_none] at hunused
          have hg₁id : g.id = g₁.id := by rw [← hg₁]
          rw [hkeeps, KeptIds, h.setGraph_iff hmem hg₁id, ← hg₁, (h.home g hmem).insertTbuf_iff]
          refine ⟨fun hroute => ⟨hroute, ?_⟩, And.left⟩
          intro e he
          obtain rfl : e = .allocated id i := by simpa using he
          exact (h.allocated_fresh hmem id hroute).mpr hunused
      · obtain ⟨-, rfl, rfl⟩ : _ ∧ g = g₁ ∧ none = handle₁ := by simpa using hgraph
        exact iff_of_true (by simp [KeepsIds, hok]) ⟨h.setGraph (h.home g hmem), by simp⟩

/-- When `create_new_job` keeps the property. -/
theorem MainContext.RoutesHome.createNewJob (h : ctx.RoutesHome) {id handle : ℕ} {inRange : Bool}
    {config : UserJobDesc} {ret : AipuStatus} {jobId : Option ℕ}
    (hcreate : ctx.createNewJob id handle inRange config = some (ret, ctx', jobId)) :
    KeepsIds ctx (.createNewJob id handle inRange config) ↔
      KeptIds ctx ctx' (jobId.toList.map (.created id)) := by
  unfold MainContext.createNewJob at hcreate
  split at hcreate
  next hnone =>
    obtain ⟨-, rfl, rfl⟩ : _ ∧ ctx = ctx' ∧ none = jobId := by simpa using hcreate
    exact iff_of_true (by simp [KeepsIds, hnone]) ⟨h, by simp⟩
  next g hg =>
    obtain ⟨hmem, hid⟩ := MainContext.getGraphObject_eq_some hg
    split at hcreate
    · cases hcreate
    next ret₁ g₁ jobId₁ hbuild =>
      obtain ⟨-, rfl, rfl⟩ : _ ∧ _ = ctx' ∧ jobId₁ = jobId := by simpa using hcreate
      have haddr : ∀ es, KeptIds ctx { ctx.setGraph g₁ with nextAddr := ctx.nextAddr + 1 } es ↔
          KeptIds ctx (ctx.setGraph g₁) es := fun es =>
        ⟨fun hkept => ⟨⟨hkept.1.nodup, hkept.1.home⟩, hkept.2⟩,
          fun hkept => ⟨⟨hkept.1.nodup, hkept.1.home⟩, hkept.2⟩⟩
      rw [haddr]
      have hflag := (h.home g hmem).shrink (g.setTbufFree_shrinks handle false)
      rcases Graph.buildNewJob_cases hbuild with ⟨hbuilds, rfl, hg₁⟩ | ⟨hbuilds, i, hi, rfl, hg₁⟩
      · have hkeeps : KeepsIds ctx (.createNewJob id handle inRange config) := by
          intro g' hg' hbuilds'
          rw [hg] at hg'
          obtain rfl := Option.some.inj hg'
          exact absurd hbuilds' hbuilds
        have hhome : g₁.Home := by
          rcases hg₁ with rfl | rfl
          · exact h.home _ hmem
          · exact hflag
        exact iff_of_true hkeeps ⟨h.setGraph hhome, by simp⟩
      · have hkeeps : KeepsIds ctx (.createNewJob id handle inRange config) ↔
            jobId2graphId i = g.id ∧ g.getJobPtr i = none := by
          rw [Graph.createJobIdInner_home hi]
          simp [KeepsIds, hg, hbuilds]
        have hg₁id : g.id = g₁.id := by rw [hg₁]; rfl
        rw [hkeeps, KeptIds, h.setGraph_iff hmem hg₁id, hg₁, hflag.insertJob_iff]
        refine and_congr_right fun hroute => ?_
        rw [← h.created_fresh hmem id hroute]
        simp

/-- **One step.**  A call keeps the property exactly when it meets the condition. -/
theorem contextStep_keeps (h : ctx.RoutesHome) {a : ContextAction} {es : List ContextEvent}
    (hst : contextStep ctx a = some (ctx', es)) : KeepsIds ctx a ↔ KeptIds ctx ctx' es := by
  have hother : KeepsIds ctx a → ctx'.RoutesHome → es = [] →
      (KeepsIds ctx a ↔ KeptIds ctx ctx' es) :=
    fun hkeeps h' hes => iff_of_true hkeeps ⟨h', by simp [hes]⟩
  cases a with
  | loadGraph ret =>
    obtain ⟨⟨ret', ctx₁, id⟩, hload, hst⟩ := Option.map_eq_some_iff.mp hst
    obtain ⟨rfl, rfl⟩ := Prod.mk.inj hst
    exact iff_of_true trivial (h.loadGraph hload)
  | allocTensorBuffers id ok =>
    obtain ⟨⟨ret, ctx₁, handle⟩, halloc, hst⟩ := Option.map_eq_some_iff.mp hst
    obtain ⟨rfl, rfl⟩ := Prod.mk.inj hst
    exact h.allocTensorBuffers halloc
  | createNewJob id handle inRange config =>
    obtain ⟨⟨ret, ctx₁, jobId⟩, hcreate, hst⟩ := Option.map_eq_some_iff.mp hst
    obtain ⟨rfl, rfl⟩ := Prod.mk.inj hst
    exact h.createNewJob hcreate
  | unloadGraph id textOk oks =>
    obtain ⟨rfl, rfl⟩ := Prod.mk.inj (Option.some.inj hst)
    exact hother trivial (h.unloadGraph id textOk oks) rfl
  | freeTensorBuffers handle ok =>
    obtain ⟨rfl, rfl⟩ := Prod.mk.inj (Option.some.inj hst)
    exact hother trivial (h.inGraph fun g => g.freeThreadBuffer_shrinks handle ok) rfl
  | flushJob jobId accepted =>
    obtain ⟨rfl, rfl⟩ := Prod.mk.inj (Option.some.inj hst)
    exact hother trivial (h.inGraph fun g => g.flushJob_shrinks jobId accepted) rfl
  | waitForJobEnd jobId timeOut reply =>
    obtain ⟨⟨result, ctx₁⟩, hwait, hst⟩ := Option.map_eq_some_iff.mp hst
    obtain ⟨rfl, rfl⟩ := Prod.mk.inj hst
    exact hother trivial (h.waitForJobEnd hwait) rfl
  | pollJobStatus reply =>
    obtain ⟨rfl, rfl⟩ := Prod.mk.inj (Option.some.inj hst)
    exact hother trivial (h.pollJobStatus reply) rfl
  | cleanJob jobId =>
    obtain ⟨rfl, rfl⟩ := Prod.mk.inj (Option.some.inj hst)
    exact hother trivial (h.inGraph fun g => g.cleanJob_shrinks jobId) rfl

end Ids

/-- **Ids are unique and route home.**  In every run whose calls all find a fresh id in the range of
their graph, ids are unique and route home; and the next call gives away ids that are in no use,
which route home, exactly when it finds such an id. -/
theorem ids_unique_and_route_home {tr : List ContextEvent} {ctx : MainContext}
    (h : contextSystem.Run KeepsIds tr ctx) :
    ctx.RoutesHome ∧ ∀ a ctx' es, contextStep ctx a = some (ctx', es) →
      (KeepsIds ctx a ↔ ctx'.RoutesHome ∧ ∀ e ∈ es, e.Fresh ctx) := by
  have hhome : ctx.RoutesHome := by
    refine h.stateInvariant (fun s hs => ?_) fun s a s' es hI hC hst => ?_
    · have hnil : s.graphs = [] := hs
      exact ⟨by simp [hnil], by simp [hnil]⟩
    · exact ((contextStep_keeps hI hst).mp hC).1
  exact ⟨hhome, fun a ctx' es hst => contextStep_keeps hhome hst⟩

/-- A graph with a buffer and a job. -/
theorem ids_unique_and_route_home_sample :
    ∃ ctx : MainContext, (∃ g ∈ ctx.graphs, g.jobs.map JobDesc.id = [65536]) ∧ ctx.RoutesHome := by
  have halloc : KeepsIds { graphs := [⟨1, [], [], []⟩] } (.allocTensorBuffers 1 true) := by
    rintro - g hg
    obtain rfl := Option.some.inj hg
    exact ⟨by decide, 0, by decide, rfl⟩
  have hcreate : KeepsIds { graphs := [⟨1, [⟨65536, true⟩], [], []⟩] }
      (.createNewJob 1 65536 true {}) := by
    rintro g hg -
    obtain rfl := Option.some.inj hg
    exact ⟨by decide, 0, by decide, by simp, rfl⟩
  have hload : KeepsIds {} (.loadGraph .success) := trivial
  have hstart : contextSystem.Run KeepsIds [] {} := .start rfl
  have hrun := ((hstart.next hload rfl).next halloc rfl).next hcreate rfl
  exact ⟨_, ⟨_, List.mem_singleton.mpr rfl, rfl⟩, (ids_unique_and_route_home hrun).1⟩

/-- A graph with two buffers, and a job that is waited for until its time is over. -/
def timedOutJob : List ContextAction :=
  [.loadGraph .success, .allocTensorBuffers 1 true, .allocTensorBuffers 1 true,
    .createNewJob 1 65536 true {}, .flushJob 65536 true, .waitForJobEnd 65536 1000 (some [])]

/-- The id of the job that has timed out is given away again. -/
theorem timed_out_id_reused :
    ∃ tr ctx, contextSystem.Run anyStep tr ctx ∧
      (∃ g ∈ ctx.graphs, ∃ job ∈ g.jobs, job.id = 65536 ∧ job.state = .timeout) ∧
      ∃ es, (contextStep ctx (.createNewJob 1 65537 true {})).map Prod.snd = some es ∧
        ∃ e ∈ es, ¬e.Fresh ctx := by
  have hexec : contextSystem.exec anyStep {} timedOutJob = some
      ({ graphs :=
           [⟨1, [⟨65537, true⟩, ⟨65536, false⟩], [⟨0, 65536, .timeout, 65536, {}⟩], [65536]⟩],
         nextAddr := 1 },
        [.loaded 1, .allocated 1 65536, .allocated 1 65537, .created 1 65536]) := by decide +kernel
  refine ⟨_, _, System.run_of_exec (by rfl) hexec, ?_, [.created 1 65536], by decide +kernel, ?_⟩
  · exact ⟨_, List.mem_singleton.mpr rfl, _, List.mem_singleton.mpr rfl, rfl, rfl⟩
  · refine ⟨_, List.mem_singleton.mpr rfl, fun hfresh => ?_⟩
    exact hfresh _ (List.mem_singleton.mpr rfl) _ (List.mem_singleton.mpr rfl) rfl

end Aipu
