import AipuDriver.Kmd.UpperHalf

/-!
# Kill and cancel with a logic reset

On a platform with a logic reset `aipu_invalidate_job_no_lock` resets the hardware when the job is
SCHED, counts the job as no longer scheduled and triggers the next one.  The job itself stays where
it is: it is still SCHED, it is still valid, and it is before the job that was triggered, so that
the next interrupt ends it.

What was reset is kept beside the job manager (`ResetHistory`); it changes nothing that the job
manager does.  A run in which every step resets cleanly is one in which no step resets at all
(`reset_runs_clean_iff`).
-/

namespace Aipu

open ListSearch Transition

/-! ## What was reset -/

/-- The jobs that were reset, and those that were triggered since the last reset, until the end of a
job is recorded. -/
structure ResetHistory where
  jobs : List AipuJob := []
  awaited : Option (List ℕ) := none
deriving DecidableEq, Repr

/-- The jobs triggered since the last reset after an event. -/
def JmEvent.awaits (awaited : Option (List ℕ)) : JmEvent → Option (List ℕ)
  | .reset => some []
  | .triggered job => awaited.map (· ++ [job])
  | .ended .. => none
  | _ => awaited

/-- The jobs in the state SCHED for which a step calls `aipu_invalidate_job_no_lock`. -/
def JmState.resetJobs (s : JmState) : JmAction → List AipuJob
  | .kill _ tid jobId =>
    let matching := fun job : AipuJob => decide (job.uthreadId = tid ∧ job.desc.jobId = jobId)
    match seek matching s.jm.pendingQueue with
    | some _ => []
    | none => ((seek matching s.jm.scheduledQueue).map Cursor.entry).toList.filter
      (·.state = .sched)
  | .cancel mem session =>
    s.jm.scheduledQueue.filter fun job => job.state = .sched ∧
      mem.userPid job.session = mem.userPid session
  | _ => []

/-- The job manager with what was reset. -/
structure ResetState where
  js : JmState
  history : ResetHistory := {}
deriving DecidableEq, Repr

/-- One step of the job manager, and what it resets. -/
def resetStep (s : ResetState) (a : JmAction) : Option (ResetState × List JmEvent) :=
  (jmStep s.js a).map fun (js, es) =>
    ({ js := js
       history := {
         jobs := s.history.jobs ++ s.js.resetJobs a
         awaited := es.foldl JmEvent.awaits s.history.awaited } }, es)

/-- The runs of the job manager on a platform with a logic reset. -/
def resetSystem (maxSchedNum : ℤ) : System ResetState JmAction JmEvent where
  init s := (jmSystem maxSchedNum true).init s.js ∧ s.history = {}
  step := resetStep

/-! ## The property -/

/-- What a step leaves behind: no job that was reset is SCHED, and the jobs that are SCHED are
counted.  The end that it records is the one of a job triggered after the reset, and the session job
of a job that was reset is not touched. -/
structure ResetsCleanly (s s' : ResetState) (es : List JmEvent) : Prop where
  unscheduled : ∀ job ∈ s'.history.jobs, job.id ∉ s'.js.jm.schedJobs
  counted : s'.js.jm.schedNum = s'.js.jm.schedJobs.length
  ends : ∀ i ∈ endedJobs es, i ∉ jobIds s.history.jobs ∧ ∀ triggered ∈ s.history.awaited,
    i ∈ triggered
  untouched : ∀ job ∈ s.history.jobs, .readSessionJob job.sessionJob ∉ es

/-- A step resets cleanly. -/
def StepsCleanly (s : ResetState) (a : JmAction) : Prop :=
  ∀ s' es, resetStep s a = some (s', es) → ResetsCleanly s s' es

/-! ## The condition -/

/-- A kill or a cancel finds no job that is SCHED. -/
def SparesScheduled (s : ResetState) (a : JmAction) : Prop := s.js.resetJobs a = []

instance decidableSparesScheduled : DecidableRel SparesScheduled :=
  fun s a => inferInstanceAs (Decidable (s.js.resetJobs a = []))

/-! ## Without a reset -/

/-- The job manager of a platform with or without a logic reset. -/
def AipuJobManager.withReset (jm : AipuJobManager) (reset : Bool) :
    AipuJobManager := { jm with hasLogicReset := reset }

/-- The job manager of a platform with or without a logic reset. -/
def JmState.withReset (s : JmState) (reset : Bool) :
    JmState := { s with jm := s.jm.withReset reset }

section Commute

variable {mem : SessionMem} {jm : AipuJobManager} (reset : Bool)

/-- Scheduling does not depend on the logic reset. -/
theorem aipuSchedulePendingJobNoLock_withReset :
    aipuSchedulePendingJobNoLock mem (jm.withReset reset) =
      ((aipuSchedulePendingJobNoLock mem jm).1.withReset reset,
        (aipuSchedulePendingJobNoLock mem jm).2) := by
  have hpending : (jm.withReset reset).pendingQueue = jm.pendingQueue := rfl
  unfold aipuSchedulePendingJobNoLock
  rw [hpending]
  cases jm.pendingQueue with
  | nil => rfl
  | cons curr rest =>
    change (if jm.schedNum < jm.maxSchedNum then _ else _) = _
    split_ifs
    · change (if jm.idle.next.1 = true then _ else _) = _
      dsimp only
      split_ifs <;> rfl
    · rfl

/-- Recording an interrupt does not depend on the logic reset. -/
theorem aipuJobManagerUpdateJobStateIrq_withReset {flag : ℤ} :
    aipuJobManagerUpdateJobStateIrq mem flag (jm.withReset reset) =
      ((aipuJobManagerUpdateJobStateIrq mem flag jm).1.withReset reset,
        (aipuJobManagerUpdateJobStateIrq mem flag jm).2) := by
  have hqueue : (jm.withReset reset).scheduledQueue = jm.scheduledQueue := rfl
  unfold aipuJobManagerUpdateJobStateIrq
  rw [hqueue]
  cases seek (fun job => job.state = .sched) jm.scheduledQueue with
  | none => exact aipuSchedulePendingJobNoLock_withReset reset
  | some c =>
    let curr := { c.entry with state := .finished, exceptionFlag := flag }
    have hschedule := @aipuSchedulePendingJobNoLock_withReset mem { jm with
      scheduledQueue := c.before ++ curr :: c.after
      schedNum := if jm.schedNum ≠ 0 then jm.schedNum - 1 else jm.schedNum } reset
    exact congrArg (fun r : AipuJobManager × List JmEvent =>
      (r.1, .ended curr.id curr.sessionJob flag curr.validFlag :: endReads mem curr ++
        r.2)) hschedule

/-- Invalidating a job that is not SCHED does not depend on the logic reset; a job that is pending
is taken off its queue. -/
theorem aipuInvalidateJobNoLock_withReset {job : AipuJob} (hstate : job.state ≠ .sched) :
    aipuInvalidateJobNoLock mem (jm.withReset reset) job =
        ((aipuInvalidateJobNoLock mem jm job).1,
          (aipuInvalidateJobNoLock mem jm job).2.1.withReset reset,
          (aipuInvalidateJobNoLock mem jm job).2.2) ∧
      ((aipuInvalidateJobNoLock mem jm job).2.1 = jm ∨
        (aipuInvalidateJobNoLock mem jm job).2.1 = jm.listDel job.id) := by
  unfold aipuInvalidateJobNoLock
  cases hjob : job.state with
  | sched => exact absurd hjob hstate
  | pending => exact ⟨rfl, .inr rfl⟩
  | idle => exact ⟨rfl, .inl rfl⟩
  | finished => exact ⟨rfl, .inl rfl⟩

/-- The cancel loop spares the job: it is not SCHED, or it belongs to another process. -/
def AipuJob.SparedBy (job : AipuJob) (mem : SessionMem) (session : ℕ) : Prop :=
  job.state ≠ .sched ∨ mem.userPid job.session ≠ mem.userPid session

/-- The body of the cancel loop does not depend on the logic reset when it spares the job. -/
theorem invalidateIfCanceled_withReset {session : ℕ} {cursor : AipuJob}
    (hspared : cursor.SparedBy mem session) :
    invalidateIfCanceled mem session (jm.withReset reset) cursor =
        ((invalidateIfCanceled mem session jm cursor).1.withReset reset,
          (invalidateIfCanceled mem session jm cursor).2) ∧
      ((invalidateIfCanceled mem session jm cursor).1 = jm ∨
        (invalidateIfCanceled mem session jm cursor).1 = jm.listDel cursor.id) := by
  unfold invalidateIfCanceled
  dsimp only
  split_ifs with hpid
  · obtain ⟨heq, hcases⟩ := @aipuInvalidateJobNoLock_withReset mem jm reset cursor
      (hspared.resolve_right (not_not.mpr hpid))
    rw [heq]
    exact ⟨rfl, hcases⟩
  · exact ⟨rfl, .inl rfl⟩

/-- The cancel loop does not depend on the logic reset when it spares the jobs; it takes at most
these jobs off the queues. -/
theorem aipuInvalidateCanceledJobsNoLock_withReset {session n : ℕ}
    {head : AipuJobManager → List AipuJob}
    (hhead : head = AipuJobManager.pendingQueue ∨ head = AipuJobManager.scheduledQueue)
    {queue : List AipuJob} (hspared : ∀ job ∈ queue, job.SparedBy mem session) :
    aipuInvalidateCanceledJobsNoLock mem session head n queue (jm.withReset reset) =
        ((aipuInvalidateCanceledJobsNoLock mem session head n queue jm).1.withReset reset,
          (aipuInvalidateCanceledJobsNoLock mem session head n queue jm).2) ∧
      (aipuInvalidateCanceledJobsNoLock mem session head n queue jm).1.scheduledQueue ⊆
        jm.scheduledQueue ∧
      ∀ job ∈ jm.scheduledQueue, job.id ∉ jobIds queue →
        job ∈ (aipuInvalidateCanceledJobsNoLock mem session head n queue jm).1.scheduledQueue := by
  induction n generalizing queue jm with
  | zero => exact ⟨rfl, List.Subset.refl _, fun _ hjob _ => hjob⟩
  | succ n ih =>
    cases queue with
    | nil => exact ⟨rfl, List.Subset.refl _, fun _ hjob _ => hjob⟩
    | cons cursor rest =>
      obtain ⟨hcursor, hrest⟩ := List.forall_mem_cons.mp hspared
      obtain ⟨heq, hcases⟩ := @invalidateIfCanceled_withReset mem jm reset session cursor hcursor
      cases hbody : invalidateIfCanceled mem session jm cursor with
      | mk jm₁ es₁ =>
      rw [hbody] at heq hcases
      have hsub : jm₁.scheduledQueue ⊆ jm.scheduledQueue := by
        rcases hcases with rfl | rfl
        · exact List.Subset.refl _
        · exact fun job hjob => List.mem_of_mem_filter hjob
      have hkept : ∀ job ∈ jm.scheduledQueue, job.id ≠ cursor.id → job ∈ jm₁.scheduledQueue := by
        intro job hjob hne
        rcases hcases with rfl | rfl
        · exact hjob
        · exact List.mem_filter.mpr ⟨hjob, decide_eq_true hne⟩
      have hhead₁ : ∀ jm : AipuJobManager, head (jm.withReset reset) = head jm := by
        rcases hhead with rfl | rfl <;> exact fun _ => rfl
      -- nothing is appended to the queue that the loop goes through
      have happended : (head jm₁).drop (head jm).length = [] := by
        refine List.drop_eq_nil_of_le ?_
        rcases hcases with rfl | rfl
        · exact Nat.le_refl _
        · rcases hhead with rfl | rfl <;> exact List.length_filter_le _ _
      have hqueue : (if rest = [] then [] else rest ++ []) = rest := by
        rw [List.append_nil]
        exact ite_eq_right_iff.mpr fun hnil => hnil.symm
      obtain ⟨hloop, hloopSub, hloopKept⟩ := @ih jm₁ rest hrest
      simp only [aipuInvalidateCanceledJobsNoLock, heq, hbody, hhead₁, happended, hqueue, hloop]
      refine ⟨trivial, List.Subset.trans hloopSub hsub, fun job hjob hnot => ?_⟩
      rw [jobIds_cons, List.mem_cons, not_or] at hnot
      exact hloopKept job (hkept job hjob hnot.1) hnot.2

/-- A kill does not depend on the logic reset when the jobs that it finds are not SCHED. -/
theorem aipuInvalidateTimeoutJobNoLock_withReset {head : List AipuJob} {tid : ℤ} {jobId : ℕ}
    (hspared : ∀ c, seek (fun job => job.uthreadId = tid ∧ job.desc.jobId = jobId) head = some c →
      c.entry.state ≠ .sched) :
    aipuInvalidateTimeoutJobNoLock mem (jm.withReset reset) head tid jobId =
      ((aipuInvalidateTimeoutJobNoLock mem jm head tid jobId).1,
        (aipuInvalidateTimeoutJobNoLock mem jm head tid jobId).2.1.withReset reset,
        (aipuInvalidateTimeoutJobNoLock mem jm head tid jobId).2.2) := by
  unfold aipuInvalidateTimeoutJobNoLock
  cases hseek : seek (fun job => decide (job.uthreadId = tid ∧ job.desc.jobId = jobId)) head with
  | none => rfl
  | some c => exact (aipuInvalidateJobNoLock_withReset reset (hspared c hseek)).1

/-- A submission does not depend on the logic reset. -/
theorem aipuJobManagerScheduleNewJob_withReset {id : ℕ} {sub : Submission} :
    aipuJobManagerScheduleNewJob mem id sub (jm.withReset reset) =
      ((aipuJobManagerScheduleNewJob mem id sub jm).1.withReset reset,
        (aipuJobManagerScheduleNewJob mem id sub jm).2) := by
  have hschedule := @aipuSchedulePendingJobNoLock_withReset mem { jm with
    pendingQueue := jm.pendingQueue ++ [{ initAipuJob id sub with state := .pending }] } reset
  exact congrArg (fun r : AipuJobManager × List JmEvent => (r.1, .submitted id :: r.2)) hschedule

/-- The bottom half does not depend on the logic reset. -/
theorem bottomHalfFrom_withReset (pos : Option ℕ) :
    bottomHalfFrom (jm.withReset reset) pos =
      ((bottomHalfFrom jm pos).1.withReset reset, (bottomHalfFrom jm pos).2) := by
  cases pos <;> rfl

end Commute

section Simulation

variable {s s' : JmState} {a : JmAction} {es : List JmEvent} (reset : Bool)

/-- A kill that resets nothing does not depend on the logic reset. -/
theorem aipuInvalidateTimeoutJob_withReset {mem : SessionMem} {tid : ℤ} {jobId : ℕ}
    (hpending : ∀ job ∈ s.jm.pendingQueue, job.state = .pending)
    (hspares : s.resetJobs (.kill mem tid jobId) = []) :
    aipuInvalidateTimeoutJob mem tid jobId (s.jm.withReset reset) =
      ((aipuInvalidateTimeoutJob mem tid jobId s.jm).1,
        (aipuInvalidateTimeoutJob mem tid jobId s.jm).2.1.withReset reset,
        (aipuInvalidateTimeoutJob mem tid jobId s.jm).2.2) := by
  unfold JmState.resetJobs at hspares
  dsimp only at hspares
  have hqueues : (s.jm.withReset reset).pendingQueue = s.jm.pendingQueue ∧
      (s.jm.withReset reset).scheduledQueue = s.jm.scheduledQueue := ⟨rfl, rfl⟩
  unfold aipuInvalidateTimeoutJob
  rw [hqueues.1]
  cases hseek :
    seek (fun job => decide (job.uthreadId = tid ∧ job.desc.jobId = jobId)) s.jm.pendingQueue with
  | some c =>
    -- the pending job is taken off its queue
    obtain ⟨hqueue, -, -⟩ := seek_eq_some hseek
    have hstate := hpending c.entry (hqueue ▸ c.entry_mem)
    have hcall : ∀ jm : AipuJobManager,
        aipuInvalidateTimeoutJobNoLock mem jm s.jm.pendingQueue tid jobId =
        (0, jm.listDel c.entry.id, [.removed c.entry.id]) := by
      intro jm
      simp only [aipuInvalidateTimeoutJobNoLock, hseek, aipuInvalidateJobNoLock, hstate]
    simp only [hcall, ne_eq, not_true_eq_false, if_false]
    rfl
  | none =>
    -- what is found in the scheduled queue has ended
    have hcall : ∀ jm : AipuJobManager,
        aipuInvalidateTimeoutJobNoLock mem jm s.jm.pendingQueue tid jobId =
        (-einval, jm, []) := by
      intro jm
      simp only [aipuInvalidateTimeoutJobNoLock, hseek]
    have hne : -einval ≠ 0 := by decide
    rw [hseek] at hspares
    have hsecond :=
      @aipuInvalidateTimeoutJobNoLock_withReset mem s.jm reset s.jm.scheduledQueue tid jobId
      fun c hc hsched => by
        rw [hc] at hspares
        exact List.filter_eq_nil_iff.mp hspares c.entry List.mem_cons_self (decide_eq_true hsched)
    simp only [hcall, if_pos hne, hqueues.2, hsecond]

/-- A cancel that resets nothing does not depend on the logic reset. -/
theorem aipuJobManagerCancelSessionJobs_withReset {mem : SessionMem} {session : ℕ}
    (hpending : ∀ job ∈ s.jm.pendingQueue, job.state = .pending)
    (hspares : s.resetJobs (.cancel mem session) = []) :
    aipuJobManagerCancelSessionJobs mem session (s.jm.withReset reset) =
      ((aipuJobManagerCancelSessionJobs mem session s.jm).1.withReset reset,
        (aipuJobManagerCancelSessionJobs mem session s.jm).2) := by
  have hqueues : (s.jm.withReset reset).pendingQueue = s.jm.pendingQueue ∧
      (s.jm.withReset reset).scheduledQueue = s.jm.scheduledQueue := ⟨rfl, rfl⟩
  have hfirst := @aipuInvalidateCanceledJobsNoLock_withReset mem s.jm reset session
    (s.jm.pendingQueue.length + s.jm.scheduledQueue.length) _ (.inl rfl) s.jm.pendingQueue
    fun job hjob => .inl (by simp [hpending job hjob])
  unfold aipuJobManagerCancelSessionJobs
  dsimp only
  rw [hqueues.1, hqueues.2]
  cases hloop : aipuInvalidateCanceledJobsNoLock mem session AipuJobManager.pendingQueue
      (s.jm.pendingQueue.length + s.jm.scheduledQueue.length) s.jm.pendingQueue s.jm with
  | mk jm₁ es₁ =>
  rw [hloop] at hfirst
  have hspared : ∀ job ∈ jm₁.scheduledQueue, job.SparedBy mem session := by
    intro job hjob
    have hnot := List.filter_eq_nil_iff.mp hspares job (hfirst.2.1 hjob)
    simpa [AipuJob.SparedBy, imp_iff_not_or] using hnot
  have hsecond := @aipuInvalidateCanceledJobsNoLock_withReset mem jm₁ reset session
    (s.jm.pendingQueue.length + s.jm.scheduledQueue.length) _ (.inr rfl) jm₁.scheduledQueue hspared
  have hqueue₁ : (jm₁.withReset reset).scheduledQueue = jm₁.scheduledQueue := rfl
  simp only [hfirst.1, hqueue₁, hsecond.1]

/-- A step that spares the scheduled jobs does not depend on the logic reset. -/
theorem jmStep_withReset (hpending : ∀ job ∈ s.jm.pendingQueue, job.state = .pending)
    (hspares : s.resetJobs a = [])
    (h : jmStep s a = some (s', es)) :
    jmStep (s.withReset reset) a = some (s'.withReset reset, es) := by
  cases a with
  | submit mem sub =>
    obtain ⟨rfl, rfl⟩ := Prod.mk.inj (Option.some.inj h)
    exact congrArg (fun r : AipuJobManager × List JmEvent =>
      some ({ s with jm := r.1, nextJob := s.nextJob + 1 }, r.2))
      (aipuJobManagerScheduleNewJob_withReset reset)
  | upperHalf mem flag =>
    obtain ⟨rfl, rfl⟩ := Prod.mk.inj (Option.some.inj h)
    exact congrArg (fun r : AipuJobManager × List JmEvent =>
      some ({ s with jm := r.1, handlers := s.handlers + 1 }, r.2))
      (aipuJobManagerUpdateJobStateIrq_withReset reset)
  | queueWork =>
    obtain ⟨hhandlers, rfl, rfl⟩ := jmStep_queueWork_cases h
    exact if_neg hhandlers
  | bhStart =>
    obtain ⟨hrest, hwork, rfl, rfl⟩ := jmStep_bhStart_cases h
    have hrest' : (s.withReset reset).bh = .rest := hrest
    have hwork' : (s.withReset reset).workPending = true := hwork
    simp only [jmStep, hrest', hwork', if_true]
    rfl
  | bhDone =>
    obtain ⟨curr, next, hcalling, rfl, rfl⟩ := jmStep_bhDone_cases h
    have hcalling' : (s.withReset reset).bh = .calling curr next := hcalling
    simp only [jmStep, hcalling']
    rfl
  | bhResume =>
    obtain ⟨curr, next, hreturned, rfl, rfl⟩ := jmStep_bhResume_cases h
    have hreturned' : (s.withReset reset).bh = .returned curr next := hreturned
    have hfrom := @bottomHalfFrom_withReset (s.jm.listDel curr.id) reset next
    simp only [jmStep, hreturned']
    exact congrArg (fun r : AipuJobManager × BottomHalf × List JmEvent =>
      some ({ s with jm := r.1, bh := r.2.1 }, JmEvent.retired curr.id :: r.2.2)) hfrom
  | kill mem tid jobId =>
    obtain ⟨rfl, rfl⟩ := Prod.mk.inj (Option.some.inj h)
    exact congrArg (fun r : ℤ × AipuJobManager × List JmEvent =>
      some ({ s with jm := r.2.1 }, r.2.2 ++ [.killed r.1]))
      (aipuInvalidateTimeoutJob_withReset reset hpending hspares)
  | cancel mem session =>
    obtain ⟨rfl, rfl⟩ := Prod.mk.inj (Option.some.inj h)
    have hcancel := @aipuJobManagerCancelSessionJobs_withReset s reset mem session hpending hspares
    exact congrArg
      (fun r : AipuJobManager × List JmEvent => some ({ s with jm := r.1 }, r.2)) hcancel

end Simulation

/-! ## With a reset -/

section Reset

variable {mem : SessionMem} {jm : AipuJobManager}

/-- The jobs of the scheduled queue keep their places, and jobs that run are appended. -/
def AipuJobManager.Appends (jm jm' : AipuJobManager) : Prop :=
  ∃ suffix, jm'.scheduledQueue = jm.scheduledQueue ++ suffix ∧ ∀ job ∈ suffix, job.state = .sched

/-- Nothing is appended. -/
theorem AipuJobManager.Appends.refl (jm : AipuJobManager) : jm.Appends jm := ⟨[], by simp, by simp⟩

/-- Jobs are appended one after the other. -/
theorem AipuJobManager.Appends.trans {jm' jm'' : AipuJobManager} (h : jm.Appends jm')
    (h' : jm'.Appends jm'') :
    jm.Appends jm'' := by
  obtain ⟨suffix, hqueue, hsched⟩ := h
  obtain ⟨suffix', hqueue', hsched'⟩ := h'
  exact ⟨suffix ++ suffix', by rw [hqueue', hqueue, List.append_assoc],
    List.forall_mem_append.mpr ⟨hsched, hsched'⟩⟩

/-- A job that is SCHED is so still. -/
theorem AipuJobManager.Appends.sched {jm' : AipuJobManager} (h : jm.Appends jm') {job : AipuJob}
    (hjob : job ∈ jm.scheduledQueue) (hstate : job.state = .sched) : job.id ∈ jm'.schedJobs := by
  obtain ⟨suffix, hqueue, -⟩ := h
  refine mem_jobIds (List.mem_filter.mpr ⟨?_, decide_eq_true hstate⟩)
  rw [hqueue]
  exact List.mem_append_left _ hjob

/-- Scheduling does not change whether there is a logic reset. -/
theorem aipuSchedulePendingJobNoLock_hasLogicReset :
    (aipuSchedulePendingJobNoLock mem jm).1.hasLogicReset = jm.hasLogicReset := by
  unfold aipuSchedulePendingJobNoLock
  split
  · rfl
  · dsimp only
    split_ifs <;> rfl

/-- With a logic reset, invalidating a job that is not pending leaves it SCHED if it was. -/
theorem aipuInvalidateJobNoLock_appends (hreset : jm.hasLogicReset = true) {job : AipuJob}
    (hstate : job.state ≠ .pending) :
    jm.Appends (aipuInvalidateJobNoLock mem jm job).2.1 ∧
      (aipuInvalidateJobNoLock mem jm job).2.1.hasLogicReset = true := by
  unfold aipuInvalidateJobNoLock
  cases hjob : job.state with
  | pending => exact absurd hjob hstate
  | idle => exact ⟨.refl jm, hreset⟩
  | finished => exact ⟨.refl jm, hreset⟩
  | sched =>
    rw [if_pos hreset]
    exact ⟨aipuSchedulePendingJobNoLock_scheduled mem { jm with schedNum := jm.schedNum - 1 },
      aipuSchedulePendingJobNoLock_hasLogicReset.trans hreset⟩

/-- So does the cancel loop over the scheduled queue. -/
theorem aipuInvalidateCanceledJobsNoLock_appends {session n : ℕ} (hreset : jm.hasLogicReset = true)
    {queue : List AipuJob} (hstate : ∀ job ∈ queue, job.state ≠ .pending) :
    jm.Appends (aipuInvalidateCanceledJobsNoLock mem session AipuJobManager.scheduledQueue n
      queue jm).1 := by
  induction n generalizing queue jm with
  | zero => exact .refl jm
  | succ n ih =>
    cases queue with
    | nil => exact .refl jm
    | cons cursor rest =>
      obtain ⟨hcursor, hrest⟩ := List.forall_mem_cons.mp hstate
      have hbody : jm.Appends (invalidateIfCanceled mem session jm cursor).1 ∧
          (invalidateIfCanceled mem session jm cursor).1.hasLogicReset = true := by
        unfold invalidateIfCanceled
        dsimp only
        split_ifs
        · exact aipuInvalidateJobNoLock_appends hreset hcursor
        · exact ⟨.refl jm, hreset⟩
      obtain ⟨⟨suffix, hqueue, hsched⟩, hreset₁⟩ := hbody
      rw [aipuInvalidateCanceledJobsNoLock]
      refine AipuJobManager.Appends.trans ⟨suffix, hqueue, hsched⟩ (ih hreset₁ ?_)
      rw [hqueue, List.drop_left]
      split_ifs
      · exact List.forall_mem_nil _
      · exact List.forall_mem_append.mpr ⟨hrest, fun job hjob => by simp [hsched job hjob]⟩

variable {max : ℤ} {tr es : List JmEvent} {s s' : JmState} {a : JmAction}

/-- A kill that finds a SCHED job with a logic reset leaves it SCHED. -/
theorem aipuInvalidateTimeoutJob_resets {tid : ℤ} {jobId : ℕ} (hreset : s.jm.hasLogicReset = true)
    {job : AipuJob} (hjob : job ∈ s.resetJobs (.kill mem tid jobId)) :
    job ∈ s.jm.scheduledQueue ∧ job.state = .sched ∧
      job.id ∈ (aipuInvalidateTimeoutJob mem tid jobId s.jm).2.1.schedJobs := by
  unfold JmState.resetJobs at hjob
  dsimp only at hjob
  cases hpending :
    seek (fun job => decide (job.uthreadId = tid ∧ job.desc.jobId = jobId)) s.jm.pendingQueue with
  | some c =>
    rw [hpending] at hjob
    cases hjob
  | none =>
    cases hseek : seek
      (fun job => decide (job.uthreadId = tid ∧ job.desc.jobId = jobId)) s.jm.scheduledQueue with
    | none =>
      rw [hpending, hseek] at hjob
      cases hjob
    | some c =>
      rw [hpending, hseek] at hjob
      obtain ⟨hentry, hsched⟩ := List.mem_filter.mp hjob
      obtain rfl : job = c.entry := List.mem_singleton.mp hentry
      have hstate : c.entry.state = .sched := of_decide_eq_true hsched
      have hqueued : c.entry ∈ s.jm.scheduledQueue := (seek_eq_some hseek).1 ▸ c.entry_mem
      have happends :=
        (@aipuInvalidateJobNoLock_appends mem s.jm hreset c.entry (by simp [hstate])).1
      -- nothing is found in the pending queue
      have hne : -einval ≠ 0 := by decide
      refine ⟨hqueued, hstate, ?_⟩
      simp only [aipuInvalidateTimeoutJob, aipuInvalidateTimeoutJobNoLock, hpending,
        hseek, if_pos hne]
      exact happends.sched hqueued hstate

/-- A job that is reset is SCHED before the step, and it is SCHED after it. -/
theorem jmStep_resets (hinv : JobQueueInv max tr (s.withReset false))
    (hreset : s.jm.hasLogicReset = true)
    (h : jmStep s a = some (s', es)) {job : AipuJob} (hjob : job ∈ s.resetJobs a) :
    job.id ∈ s'.jm.schedJobs := by
  cases a with
  | kill mem tid jobId =>
    obtain ⟨rfl, -⟩ := Prod.mk.inj (Option.some.inj h)
    exact (aipuInvalidateTimeoutJob_resets hreset hjob).2.2
  | cancel mem session =>
    obtain ⟨rfl, -⟩ := Prod.mk.inj (Option.some.inj h)
    obtain ⟨hqueued, hfound⟩ := List.mem_filter.mp hjob
    have hsched : job.state = .sched := (of_decide_eq_true hfound).1
    have hpending : ∀ j ∈ s.jm.pendingQueue, j.state = .pending := hinv.pendingState
    have hstate : ∀ j ∈ s.jm.scheduledQueue, j.state ≠ .pending := by
      intro j hj
      rcases hinv.schedState j hj with hstate | hstate <;> simp [hstate]
    -- the loop over the pending queue keeps the job, which is not in that queue
    obtain ⟨hfirst, hsub, hkept⟩ :=
      @aipuInvalidateCanceledJobsNoLock_withReset mem s.jm true session
      (s.jm.pendingQueue.length + s.jm.scheduledQueue.length) _ (.inl rfl) s.jm.pendingQueue
      fun job hjob => .inl (by simp [hpending job hjob])
    have hself : s.jm.withReset true = s.jm := by rw [AipuJobManager.withReset, ← hreset]
    rw [hself] at hfirst
    have hreset₁ := congrArg (fun r : AipuJobManager × List JmEvent => r.1.hasLogicReset) hfirst
    have hkept₁ := hkept job hqueued (hinv.nodup.sched_not_pending hqueued)
    have hsecond := @aipuInvalidateCanceledJobsNoLock_appends mem _ session
      (s.jm.pendingQueue.length + s.jm.scheduledQueue.length) hreset₁ _ fun j hj =>
        hstate j (hsub hj)
    exact hsecond.sched hkept₁ hsched
  | submit | upperHalf | queueWork | bhStart | bhDone | bhResume => cases hjob

/-- A step that has something to reset is enabled. -/
theorem jmStep_enabled {job : AipuJob} (hjob : job ∈ s.resetJobs a) :
    ∃ s' es, jmStep s a = some (s', es) := by
  cases a with
  | kill | cancel => exact ⟨_, _, rfl⟩
  | submit | upperHalf | queueWork | bhStart | bhDone | bhResume => cases hjob

/-- A move is not a reset. -/
theorem JmMoves.no_reset (h : JmMoves s es s') : .reset ∉ es := by
  induction h with
  | refl => exact List.not_mem_nil
  | tail _ hmove ih =>
    rw [List.mem_append, not_or]
    refine ⟨ih, fun hmem => ?_⟩
    cases hmove with
    | note hnote =>
      rw [← List.mem_singleton.mp hmem] at hnote
      cases hnote
    | control => cases hmem
    | enqueue | trigger | finish | invalidate | remove | retire => cases List.mem_singleton.mp hmem

/-- Before a reset no end is awaited. -/
theorem foldl_awaits (hreset : .reset ∉ es) : es.foldl JmEvent.awaits none = none := by
  induction es with
  | nil => rfl
  | cons e es ih =>
    rw [List.mem_cons, not_or] at hreset
    have hnone : e.awaits none = none := by
      cases e with
      | reset => exact absurd rfl hreset.1
      | submitted | triggered | ended | invalidated | removed | retired | readSession
      | readSessionJob | killed => rfl
    rw [List.foldl_cons, hnone, ih hreset.2]

end Reset

/-! ## Runs -/

section Runs

variable {max : ℤ} {tr es : List JmEvent} {s s' : ResetState} {a : JmAction}

/-- A step that is recorded is one of the job manager. -/
theorem resetStep_eq_some (h : resetStep s a = some (s', es)) :
    jmStep s.js a = some (s'.js, es) ∧ s'.history = {
      jobs := s.history.jobs ++ s.js.resetJobs a
      awaited := es.foldl JmEvent.awaits s.history.awaited } := by
  unfold resetStep at h
  obtain ⟨⟨js, es'⟩, hstep, heq⟩ := Option.map_eq_some_iff.mp h
  obtain ⟨rfl, rfl⟩ := Prod.mk.inj heq
  exact ⟨hstep, rfl⟩

/-- A run that spares the scheduled jobs is one on a platform without a logic reset, and nothing was
reset. -/
theorem resetSystem_spared (hmax : 0 ≤ max) (h : (resetSystem max).Run SparesScheduled tr s) :
    (jmSystem max false).Run anyStep tr (s.js.withReset false) ∧ s.js.jm.hasLogicReset = true ∧
      s.history = {} := by
  induction h with
  | start hinit =>
    obtain ⟨⟨idle, hjs⟩, hhistory⟩ := hinit
    rw [hjs]
    exact ⟨.start ⟨idle, rfl⟩, rfl, hhistory⟩
  | @next tr s a s' es _ hspares hstep ih =>
    obtain ⟨hrun, hreset, hhistory⟩ := ih
    obtain ⟨hjm, hhistory'⟩ := resetStep_eq_some hstep
    obtain ⟨hinv, hbh⟩ := jmSystem_inv hmax hrun
    have hpending : ∀ job ∈ s.js.jm.pendingQueue, job.state = .pending := hinv.pendingState
    have hwithout := jmStep_withReset false hpending hspares hjm
    have hnone : .reset ∉ es := (jmStep_moves hinv hbh hwithout).1.no_reset
    refine ⟨hrun.next trivial hwithout, ?_, ?_⟩
    · have hself : s.js.withReset true = s.js := by
        rw [JmState.withReset, AipuJobManager.withReset, ← hreset]
      have hwith := jmStep_withReset true hpending hspares hjm
      rw [hself, hjm] at hwith
      rw [(Prod.mk.inj (Option.some.inj hwith)).1]
      rfl
    · rw [hhistory', hhistory, hspares, foldl_awaits hnone]
      rfl

/-- As long as nothing was reset, a step resets cleanly exactly if it resets nothing. -/
theorem stepsCleanly_iff (hmax : 0 ≤ max) (hrun : (resetSystem max).Run SparesScheduled tr s) :
    StepsCleanly s a ↔ SparesScheduled s a := by
  obtain ⟨hjm, hreset, hhistory⟩ := resetSystem_spared hmax hrun
  constructor
  · -- a job that is reset stays SCHED
    intro hclean
    refine List.eq_nil_iff_forall_not_mem.mpr fun job hjob => ?_
    obtain ⟨js', es, hstep⟩ := jmStep_enabled hjob
    have hcleanly := hclean _ es (by rw [resetStep, hstep]; rfl)
    exact hcleanly.unscheduled job (List.mem_append_right _ hjob)
      (jmStep_resets (jmSystem_inv hmax hjm).1 hreset hstep hjob)
  · intro hspares s' es hstep
    obtain ⟨hjm', -, hhistory'⟩ := resetSystem_spared hmax (hrun.next hspares hstep)
    have hcount := (jmSystem_inv hmax hjm').1.schedNum
    have hnone : s'.history.jobs = [] := by rw [hhistory']
    refine ⟨?_, ?_, ?_, ?_⟩
    · simp [hnone]
    · rw [AipuJobManager.schedJobs, jobIds, List.length_map, ← List.countP_eq_length_filter]
      exact hcount
    · simp [hhistory]
    · simp [hhistory]

/-- **Kill and cancel on a platform with a logic reset.**  The steps of a run all reset cleanly
exactly if no kill or cancel in it finds a job that is SCHED. -/
theorem reset_runs_clean_iff (hmax : 1 ≤ max) :
    (resetSystem max).Run StepsCleanly tr s ↔ (resetSystem max).Run SparesScheduled tr s := by
  have hmax' : 0 ≤ max := by omega
  constructor
  · intro h
    induction h with
    | start hinit => exact .start hinit
    | next _ hclean hstep ih => exact ih.next ((stepsCleanly_iff hmax' ih).mp hclean) hstep
  · intro h
    induction h with
    | start hinit => exact .start hinit
    | next hrun hspares hstep ih => exact ih.next ((stepsCleanly_iff hmax' hrun).mpr hspares) hstep

end Runs

/-- A job runs and another one is pending.  The pending one is killed and the running one ends:
everything is clean. -/
theorem reset_runs_clean_sample : ∃ tr s, (resetSystem 1).Run StepsCleanly tr s ∧
    removedJobs tr = [1] ∧ endedJobs tr = [0] ∧ s.js.jm.schedNum = 0 := by
  obtain ⟨s, tr, hexec, hremoved, hended, hnum⟩ : ∃ s tr,
      (resetSystem 1).exec SparesScheduled { js := .initial 1 true [] }
        [.submit sampleMem ⟨7, { jobId := 1 }, 0, 0⟩, .submit sampleMem ⟨7, { jobId := 2 }, 0, 1⟩,
          .kill sampleMem 7 2, .upperHalf sampleMem 0] = some (s, tr) ∧
      removedJobs tr = [1] ∧ endedJobs tr = [0] ∧ s.js.jm.schedNum = 0 := ⟨_, _, rfl, rfl, rfl, rfl⟩
  have hrun : (resetSystem 1).Run SparesScheduled tr s := System.run_of_exec ⟨⟨[], rfl⟩, rfl⟩ hexec
  exact ⟨tr, s, (reset_runs_clean_iff (by decide)).mpr hrun, hremoved, hended, hnum⟩

/-- A job runs and another one is pending when the running one is killed.  The kill returns 0 and
triggers the other one. Two jobs are SCHED and one is counted, and the interrupt of the second job
ends the first one and reads its session job. -/
theorem reset_runs_not_clean : ∃ tr s s' es s'' es', (resetSystem 1).Run anyStep tr s ∧
    s.js.jm.schedJobs = [0] ∧
    resetStep s (.kill sampleMem 7 1) = some (s', es) ∧ .reset ∈ es ∧ .killed 0 ∈ es ∧
    triggeredJobs es = [1] ∧
    s'.js.jm.schedJobs = [0, 1] ∧ s'.js.jm.schedNum = 1 ∧ ¬ResetsCleanly s s' es ∧
    resetStep s' (.upperHalf sampleMem 0) = some (s'', es') ∧ endedJobs es' = [0] ∧
    .readSessionJob 0 ∈ es' ∧
    s''.js.jm.schedJobs = [1] ∧ ¬ResetsCleanly s' s'' es' := by
  obtain ⟨s, tr, s', es, s'', es', hexec, hsched, hkill, hreset, hret, htrig, hsched', hnum, hjobs,
      hirq, hended, hread, hsched''⟩ : ∃ s tr s' es s'' es',
      (resetSystem 1).exec anyStep { js := .initial 1 true [] }
        [.submit sampleMem ⟨7, { jobId := 1 }, 0, 0⟩, .submit sampleMem ⟨7, { jobId := 2 }, 0, 1⟩] =
          some (s, tr) ∧
      s.js.jm.schedJobs = [0] ∧
      resetStep s (.kill sampleMem 7 1) = some (s', es) ∧ .reset ∈ es ∧ .killed 0 ∈ es ∧
      triggeredJobs es = [1] ∧
      s'.js.jm.schedJobs = [0, 1] ∧ s'.js.jm.schedNum = 1 ∧ jobIds s'.history.jobs = [0] ∧
      resetStep s' (.upperHalf sampleMem 0) = some (s'', es') ∧ endedJobs es' = [0] ∧
      .readSessionJob 0 ∈ es' ∧
      s''.js.jm.schedJobs = [1] :=
    ⟨_, _, _, _, _, _, rfl, rfl, rfl, by decide, by decide, rfl, rfl, rfl, rfl, rfl, rfl,
      by decide, rfl⟩
  refine ⟨tr, s, s', es, s'', es', System.run_of_exec ⟨⟨[], rfl⟩, rfl⟩ hexec, hsched, hkill, hreset,
    hret, htrig, hsched', hnum, fun hclean => ?_, hirq, hended, hread, hsched'', fun hclean => ?_⟩
  · -- two jobs are SCHED
    have hcounted := hclean.counted
    rw [hnum, hsched'] at hcounted
    cases hcounted
  · -- the job that ends is the one that was reset
    exact (hclean.ends 0 (by simp [hended])).1 (by simp [hjobs])

end Aipu
