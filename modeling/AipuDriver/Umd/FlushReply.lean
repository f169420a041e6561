import AipuDriver.Kmd.AllocationFailure
import AipuDriver.Umd.Context

/-!
# What `flush_job` reports

RUNJOB answers through two channels, the return value of the ioctl and the error code in `struct
user_job`. `schedule_job_on_aipu` looks at both; when one of them is an error, it takes the state of
the job away and leaves its own status at success.  `flush_job` then returns success for a job that
the kernel has refused, keeps its id in the queue, and a wait for it blocks.

An id may be in the queue already when its job is built: the search for an id does not see a job
that has timed out, whose id is in the queue.
-/

namespace Aipu

open ListSearch Transition UnusedId

/-! ## RUNJOB -/

/-- What goes wrong in RUNJOB: the bytes that `copy_from_user` and `copy_to_user` do not copy,
whether the error code is among the bytes that are copied, and whether the two calls of `kzalloc`
succeed. -/
structure RunjobFaults where
  notCopiedFrom : ℕ := 0
  notCopiedTo : ℕ := 0
  errcodeCopied : Bool := true
  sessionJobOk : Bool := true
  aipuJobOk : Bool := true
deriving DecidableEq, Repr

/-- What RUNJOB does: whether the job manager has got the job, the return value, and the error code
in the memory of the user, which has put `AIPU_ERRCODE_NO_ERROR` there. -/
structure RunjobReply where
  accepted : Bool
  kernRet : ℤ
  errcode : AipuErrcode
deriving DecidableEq, Repr

/-- The end of RUNJOB: `copy_to_user`, whose failure is returned unless there was one before. -/
def RunjobFaults.copyReply (f : RunjobFaults) (accepted : Bool) (ret : ℤ) (errcode : AipuErrcode) :
    RunjobReply where
  accepted := accepted
  kernRet := if ret = 0 ∧ f.notCopiedTo ≠ 0 then f.notCopiedTo else ret
  errcode := if f.notCopiedTo = 0 ∨ f.errcodeCopied = true then errcode else .noError

/-- RUNJOB in `aipu_ioctl` -/
def RunjobFaults.reply (f : RunjobFaults) : RunjobReply :=
  if f.notCopiedFrom ≠ 0 then ⟨false, f.notCopiedFrom, .noError⟩
  -- without a session job the return value stays zero
  else if f.sessionJobOk = false then f.copyReply false 0 .createKobjErr
  else if f.aipuJobOk = false then f.copyReply false (mapErrcode .createKobjErr) .createKobjErr
  else f.copyReply true 0 .noError

/-- Neither channel reports an error. -/
def RunjobReply.Ok (reply : RunjobReply) : Prop := reply.kernRet = 0 ∧ reply.errcode = .noError

instance : DecidablePred RunjobReply.Ok := fun _ => inferInstanceAs (Decidable (_ ∧ _))

/-- No error is reported iff nothing went wrong. -/
theorem RunjobFaults.reply_ok (f : RunjobFaults) :
    f.reply.Ok ↔ f.reply.accepted = true ∧ f.notCopiedTo = 0 := by
  unfold RunjobFaults.reply RunjobFaults.copyReply RunjobReply.Ok
  split
  next hfrom => simp [hfrom]
  next hfrom =>
    by_cases hto : f.notCopiedTo = 0 <;> cases f.sessionJobOk <;> cases f.aipuJobOk <;>
      simp [hto, mapErrcode, efault]

/-- The kernel driver serves RUNJOB with this answer, and its job manager has got one more job iff
it is accepted. -/
theorem aipuIoctlRunjob_reply {k k' : Kmd} {c : Cursor KmdFile} {tid ret : ℤ} {kz : Oracle}
    {kzOk : Bool}
    {userJob : UserJob} {stale : SessionMem} {errcode : AipuErrcode}
    (h : aipuIoctlRunjob k c tid kz kzOk userJob stale = some (ret, errcode, k')) {f : RunjobFaults}
    (hf : f = { sessionJobOk := kz.next.1, aipuJobOk := kzOk }) :
    ret = f.reply.kernRet ∧ errcode = f.reply.errcode ∧
      k'.js.nextJob = k.js.nextJob + if f.reply.accepted then 1 else 0 := by
  subst hf
  unfold aipuIoctlRunjob aipuSessionAddJob at h
  dsimp only at h
  cases hkz : kz.next.1 with
  | false =>
    rw [hkz, if_neg Bool.false_ne_true] at h
    obtain ⟨rfl, rfl, rfl⟩ : 0 = ret ∧ AipuErrcode.createKobjErr = errcode ∧ _ = k' := by
      simpa using h
    exact ⟨rfl, rfl, rfl⟩
  | true =>
    rw [hkz, if_pos rfl] at h
    cases hqueue : createThreadWaitQueueNoLock kz.next.2 c.entry.session.waitQueue
        (initSessionJob k.nextSessionJob tid userJob.desc).uthreadId with
    | none =>
      rw [hqueue] at h
      cases h
    | some queue =>
      rw [hqueue] at h
      dsimp only at h
      split_ifs at h with hok
      · split at h
        · cases h
        next k₁ _ hrun =>
          obtain ⟨rfl, rfl, rfl⟩ : 0 = ret ∧ AipuErrcode.noError = errcode ∧ k₁ = k' := by
            simpa using h
          obtain ⟨js, jes, hjm, rfl, -⟩ := Kmd.runJm_cases hrun
          obtain ⟨rfl, -⟩ := Prod.mk.inj (Option.some.inj hjm)
          subst hok
          exact ⟨rfl, rfl, rfl⟩
      · obtain ⟨rfl, rfl, rfl⟩ : mapErrcode .createKobjErr = ret ∧
            AipuErrcode.createKobjErr = errcode ∧ _ = k' := by
          simpa using h
        rw [Bool.eq_false_iff.mpr hok]
        exact ⟨rfl, rfl, rfl⟩

/-! ## `flush_job` -/

/-- `schedule_job_on_aipu` on the file `fd` -/
def Graph.scheduleJobOnAipu (g : Graph) (fd : ℤ) (jobId : ℕ) (reply : RunjobReply) :
    AipuStatus × Graph :=
  if fd ≤ 0 then (.errorOpenDevFail, g)
  -- the status stays success when the kernel refuses the job
  else if reply.kernRet ≠ 0 ∨ reply.errcode ≠ .noError then (.success, g.setJobState jobId .noState)
  else (.success, g)

/-- `flush_job` on the file `fd`, which may be closed. -/
def Graph.flushJobOn (g : Graph) (fd : ℤ) (jobId : ℕ) (reply : RunjobReply) : AipuStatus × Graph :=
  match g.flushJobMark jobId with
  | .error ret => (ret, g)
  | .ok (job, g) =>
    match g.scheduleJobOnAipu fd job.id reply with
    | (.success, g) => (.success, g)
    | (ret, g) => (ret, g.deleteFromSchedQueueInner jobId)

/-- `flush_job` of the context -/
def MainContext.flushJobOn (ctx : MainContext) (fd : ℤ) (jobId : ℕ) (reply : RunjobReply) :
    AipuStatus × MainContext :=
  ctx.inGraph .errorJobNotExist (jobId2graphId jobId) (·.flushJobOn fd jobId reply)

/-- A job that is built is marked, whatever RUNJOB answers. -/
theorem Graph.flushJobOn_of_built {g : Graph} {jobId : ℕ} {job : JobDesc}
    (hjob : g.getJobPtr jobId = some job)
    (hbuilt : job.state = .built) (fd : ℤ) (reply : RunjobReply) :
    g.flushJobOn fd jobId reply =
      if fd ≤ 0 then (.errorOpenDevFail,
        { g.setJobState jobId .sched with sched := (g.sched ++ [jobId]).erase jobId })
      else (.success,
        Graph.scheduleJobEnd { g.setJobState jobId .sched with sched := g.sched ++ [jobId] } jobId
        (decide reply.Ok)) := by
  have hid := (Graph.getJobPtr_eq_some hjob).2
  simp only [Graph.flushJobOn, Graph.flushJobMark, hjob, hbuilt, hid, ne_eq,
    not_true_eq_false, if_false, Graph.scheduleJobOnAipu, Graph.scheduleJobEnd, RunjobReply.Ok]
  by_cases hfd : fd ≤ 0
  · simp [hfd, Graph.deleteFromSchedQueueInner]
  · by_cases hok : reply.kernRet = 0 ∧ reply.errcode = .noError
    · simp [hfd, hok.1, hok.2]
    · have hor : ¬reply.kernRet = 0 ∨ ¬reply.errcode = .noError := not_and_or.mp hok
      simp [hfd, hor, hok]

/-- On an open device this is the `flush_job` of the runs. -/
theorem MainContext.flushJobOn_open (ctx : MainContext) {fd : ℤ} (hfd : 0 < fd) (jobId : ℕ)
    (reply : RunjobReply) :
    ctx.flushJobOn fd jobId reply = ctx.flushJob jobId (decide reply.Ok) := by
  have hgraph : ∀ g : Graph, g.flushJobOn fd jobId reply = g.flushJob jobId (decide reply.Ok) := by
    intro g
    cases hjob : g.getJobPtr jobId with
    | none => simp [Graph.flushJobOn, Graph.flushJob, Graph.flushJobMark, hjob]
    | some job =>
      by_cases hbuilt : job.state = .built
      · have hid := (Graph.getJobPtr_eq_some hjob).2
        rw [Graph.flushJobOn_of_built hjob hbuilt, if_neg (by omega)]
        simp [Graph.flushJob, Graph.flushJobMark, hjob, hbuilt, hid]
      · simp [Graph.flushJobOn, Graph.flushJob, Graph.flushJobMark, hjob, hbuilt]
  unfold MainContext.flushJobOn MainContext.flushJob
  simp only [hgraph]

/-! ## The truth of the report -/

/-- The job can be flushed, or it can be cleaned. -/
def Graph.Reusable (g : Graph) (jobId : ℕ) : Prop :=
  g.isJobBuiltInner jobId = true ∨ (g.cleanJob jobId).1 = .success

/-- A wait for the job returns although the kernel has no record of the job. -/
def MainContext.WaitReturns (ctx : MainContext) (jobId : ℕ) : Prop :=
  ∀ timeOut, (ctx.waitForJobEnd jobId timeOut (some [])).isSome = true

/-- `flush_job` on the file `fd` tells whether the kernel has accepted the job: on success the job
is scheduled and its id is in the queue once; on failure its id is not in the queue, it can be
flushed or cleaned, and no wait for it blocks. -/
structure FlushTruthful (fd : ℤ) (ctx : MainContext) (jobId : ℕ) (reply : RunjobReply) : Prop where
  tells : (ctx.flushJobOn fd jobId reply).1 = .success ↔ 0 < fd ∧ reply.accepted = true
  flushed : (ctx.flushJobOn fd jobId reply).1 = .success →
    ∃ g, (ctx.flushJobOn fd jobId reply).2.getGraphObject (jobId2graphId jobId) = some g ∧
      g.isJobScheduledInner jobId = true ∧ g.sched.count jobId = 1
  refused : (ctx.flushJobOn fd jobId reply).1 ≠ .success →
    ∃ g, (ctx.flushJobOn fd jobId reply).2.getGraphObject (jobId2graphId jobId) = some g ∧
      jobId ∉ g.sched ∧ g.Reusable jobId ∧ (ctx.flushJobOn fd jobId reply).2.WaitReturns jobId

section Truthful

variable {ctx : MainContext} {g : Graph} {jobId : ℕ} {job : JobDesc} {fd : ℤ}

/-- The graph after `flush_job`. -/
theorem MainContext.flushJobOn_graph
    (hg : ctx.getGraphObject (jobId2graphId jobId) = some g) (fd : ℤ) (reply : RunjobReply) :
    (ctx.flushJobOn fd jobId reply).1 = (g.flushJobOn fd jobId reply).1 ∧
      ((g.flushJobOn fd jobId reply).2.id = g.id →
        (ctx.flushJobOn fd jobId reply).2.getGraphObject (jobId2graphId jobId) =
          some (g.flushJobOn fd jobId reply).2) := by
  have hgid := (MainContext.getGraphObject_eq_some hg).2
  rw [MainContext.flushJobOn, MainContext.inGraph, hg]
  refine ⟨rfl, fun hid => ?_⟩
  have hgid' : (g.flushJobOn fd jobId reply).2.id = jobId2graphId jobId := hid.trans hgid
  rw [MainContext.getGraphObject_setGraph (by rw [hgid', hg]), if_pos hgid'.symm]

/-- The state that was written is found. -/
theorem Graph.getJobPtr_written (hjob : g.getJobPtr jobId = some job) (state : JobState) :
    (g.setJobState jobId state).getJobPtr jobId = some { job with state := state } := by
  rw [Graph.getJobPtr_setJobState, hjob, Option.map_some, if_pos rfl]

/-- On a closed device the job stays marked, so that it can be neither flushed nor cleaned. -/
theorem FlushTruthful.open (hg : ctx.getGraphObject (jobId2graphId jobId) = some g)
    (hjob : g.getJobPtr jobId = some job) (hbuilt : job.state = .built) {reply : RunjobReply}
    (h : FlushTruthful fd ctx jobId reply) : 0 < fd := by
  by_contra hfd
  obtain ⟨hret, hgraph⟩ := MainContext.flushJobOn_graph hg fd reply
  rw [Graph.flushJobOn_of_built hjob hbuilt, if_pos (not_lt.mp hfd)] at hret hgraph
  obtain ⟨g', hg', -, hreusable, -⟩ := h.refused (by rw [hret]; simp)
  obtain rfl := Option.some.inj ((hgraph rfl).symm.trans hg')
  have hsched : Graph.getJobPtr { g.setJobState jobId .sched with
      sched := (g.sched ++ [jobId]).erase jobId } jobId =
      some { job with state := .sched } := Graph.getJobPtr_written hjob .sched
  rcases hreusable with hagain | hclean
  · simp [Graph.isJobBuiltInner, Graph.jobStateIs, hsched] at hagain
  · simp [Graph.cleanJob, hsched] at hclean

/-- A job whose refusal is reported has no state. -/
theorem FlushTruthful.ok (hg : ctx.getGraphObject (jobId2graphId jobId) = some g)
    (hjob : g.getJobPtr jobId = some job) (hbuilt : job.state = .built) {reply : RunjobReply}
    (h : FlushTruthful fd ctx jobId reply) : reply.Ok ∧ jobId ∉ g.sched := by
  have hfd := h.open hg hjob hbuilt
  obtain ⟨hret, hgraph⟩ := MainContext.flushJobOn_graph hg fd reply
  rw [Graph.flushJobOn_of_built hjob hbuilt, if_neg (not_le.mpr hfd)] at hret hgraph
  obtain ⟨g', hg', hsched, hcount⟩ := h.flushed hret
  have hmarked :
      Graph.getJobPtr { g.setJobState jobId .sched with sched := g.sched ++ [jobId] } jobId =
      some { job with state := .sched } := Graph.getJobPtr_written hjob .sched
  have hok : reply.Ok := by
    by_contra hrefused
    rw [Graph.scheduleJobEnd, if_neg (by simpa using hrefused)] at hgraph
    obtain rfl := Option.some.inj ((hgraph rfl).symm.trans hg')
    simp [Graph.isJobScheduledInner, Graph.jobStateIs, Graph.getJobPtr_written hmarked] at hsched
  refine ⟨hok, fun hmem => ?_⟩
  rw [Graph.scheduleJobEnd, if_pos (decide_eq_true hok)] at hgraph
  obtain rfl := Option.some.inj ((hgraph rfl).symm.trans hg')
  have hcount : (g.sched ++ [jobId]).count jobId = 1 := hcount
  have htwice : (g.sched ++ [jobId]).count jobId = g.sched.count jobId + 1 := by simp
  have := List.count_pos_iff.mpr hmem
  omega

/-- A job that is accepted, and whose id is new to the queue, is scheduled. -/
theorem FlushTruthful.of_ok (hg : ctx.getGraphObject (jobId2graphId jobId) = some g)
    (hjob : g.getJobPtr jobId = some job) (hbuilt : job.state = .built) {reply : RunjobReply}
    (hfd : 0 < fd) (hok : reply.Ok) (haccepted : reply.accepted = true) (hnew : jobId ∉ g.sched) :
    FlushTruthful fd ctx jobId reply := by
  obtain ⟨hret, hgraph⟩ := MainContext.flushJobOn_graph hg fd reply
  rw [Graph.flushJobOn_of_built hjob hbuilt, if_neg (not_le.mpr hfd), Graph.scheduleJobEnd,
    if_pos (decide_eq_true hok)] at hret hgraph
  have hmarked :
      Graph.getJobPtr { g.setJobState jobId .sched with sched := g.sched ++ [jobId] } jobId =
      some { job with state := .sched } := Graph.getJobPtr_written hjob .sched
  refine ⟨by simp [hret, hfd, haccepted], fun _ => ⟨_, hgraph rfl, ?_, ?_⟩,
    fun hne => absurd hret hne⟩
  · simp [Graph.isJobScheduledInner, Graph.jobStateIs, hmarked]
  · simp [List.count_eq_zero.mpr hnew]

end Truthful

/-- **The report of `flush_job`.**  For a job that is built, whatever goes wrong in RUNJOB: the
report is true iff the device is open, RUNJOB reports no error, and the id is not yet in the
queue. -/
theorem flushJob_truthful_iff {ctx : MainContext} {g : Graph} {jobId : ℕ} {job : JobDesc}
    (hg : ctx.getGraphObject (jobId2graphId jobId) = some g) (hjob : g.getJobPtr jobId = some job)
    (hbuilt : job.state = .built) (fd : ℤ) (f : RunjobFaults) :
    FlushTruthful fd ctx jobId f.reply ↔ 0 < fd ∧ f.reply.Ok ∧ jobId ∉ g.sched := by
  constructor
  · intro h
    exact ⟨h.open hg hjob hbuilt, h.ok hg hjob hbuilt⟩
  · rintro ⟨hfd, hok, hnew⟩
    exact .of_ok hg hjob hbuilt hfd hok (f.reply_ok.mp hok).1 hnew

/-- A context with one graph, on which one job was built. -/
def builtSample : MainContext where
  graphs := [{ id := 1, tbufs := [⟨65536, false⟩], jobs := [⟨0, 65536, .built, 65536, {}⟩] }]
  nextAddr := 1

/-- The calls that lead to it. -/
theorem builtSample_reachable : ∃ tr, contextSystem.Run anyStep tr builtSample := by
  have hsome : (contextSystem.exec anyStep {} [.loadGraph .success, .allocTensorBuffers 1 true,
      .createNewJob 1 65536 true {}]).map (fun r => r.1) = some builtSample := by decide +kernel
  obtain ⟨⟨ctx, tr⟩, hexec, rfl⟩ := Option.map_eq_some_iff.mp hsome
  have hinit : contextSystem.init {} := rfl
  exact ⟨tr, System.run_of_exec hinit hexec⟩

/-- The job is flushed, and the kernel accepts it. -/
theorem flushJob_truthful_iff_sample : FlushTruthful 3 builtSample 65536 (RunjobFaults.reply {}) :=
  (@flushJob_truthful_iff builtSample _ 65536 ⟨0, 65536, .built, 65536, {}⟩ rfl rfl rfl 3 {}).mpr
    (by decide)

/-- The kernel has no memory for the job: `flush_job` succeeds, the id stays in the queue, and a
wait without a time limit does not return. -/
theorem flushJob_hides_refusal :
    (∃ tr, contextSystem.Run anyStep tr builtSample) ∧
      ¬FlushTruthful 3 builtSample 65536 (RunjobFaults.reply { aipuJobOk := false }) ∧
      (builtSample.flushJobOn 3 65536 (RunjobFaults.reply { aipuJobOk := false })).1 = .success ∧
      ((builtSample.flushJobOn 3 65536
        (RunjobFaults.reply { aipuJobOk := false })).2.waitForJobEnd 65536 (-1)
        (some [])).isNone = true := by
  refine ⟨builtSample_reachable, fun h => ?_, by decide, by decide⟩
  have haccepted := (h.tells.mp (by decide)).2
  exact absurd haccepted (by decide)

end Aipu
