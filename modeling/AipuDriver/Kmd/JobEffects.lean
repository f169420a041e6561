import AipuDriver.Kmd.JobSteps

/-!
# What the calls do to the jobs

The exact effect of a cancel and of a kill on the two queues, the objects that each call reads, and
`AipuJob.Evolves`, the ways in which a queued job may change over a step.
-/

namespace Aipu

open ListSearch Transition

/-! ## Cancel and kill -/

section Exact

variable {mem : SessionMem} {jm : AipuJobManager} {session : ℕ}

/-- A cancel through `session` concerns the job: its session has the same process id. -/
def SessionMem.Cancels (mem : SessionMem) (session : ℕ) (job : AipuJob) : Prop :=
  mem.userPid job.session = mem.userPid session

instance (mem : SessionMem) (session : ℕ) : DecidablePred (mem.Cancels session) :=
  fun _ => inferInstanceAs (Decidable (_ = _))

/-- What a cancel makes of a scheduled job. -/
def SessionMem.cancel (mem : SessionMem) (session : ℕ) (job : AipuJob) : AipuJob :=
  if mem.Cancels session job ∧ job.state = .sched then { job with validFlag := false } else job

/-- Invalidating a pending job deletes it. -/
theorem aipuInvalidateJobNoLock_pending {job : AipuJob} (h : job.state = .pending) :
    aipuInvalidateJobNoLock mem jm job = (0, jm.listDel job.id, [.removed job.id]) := by
  simp [aipuInvalidateJobNoLock, h]

/-- Without logic reset, invalidating a running job clears its valid flag. -/
theorem aipuInvalidateJobNoLock_sched {job : AipuJob} (hreset : jm.hasLogicReset = false)
    (h : job.state = .sched) :
    aipuInvalidateJobNoLock mem jm job = (0, jm.clearValid job.id, [.invalidated job.id]) := by
  simp [aipuInvalidateJobNoLock, h, hreset]

/-- A job that has ended is not invalidated. -/
theorem aipuInvalidateJobNoLock_finished {job : AipuJob} (h : job.state = .finished) :
    aipuInvalidateJobNoLock mem jm job = (-einval, jm, []) := by
  simp [aipuInvalidateJobNoLock, h]

/-- The body of the cancel loop invalidates the jobs that the cancel concerns. -/
theorem invalidateIfCanceled_fst {cursor : AipuJob} :
    (invalidateIfCanceled mem session jm cursor).1 =
      if mem.Cancels session cursor then (aipuInvalidateJobNoLock mem jm cursor).2.1 else jm := by
  unfold invalidateIfCanceled
  by_cases h : mem.userPid cursor.session = mem.userPid session
  · rw [if_pos h, if_pos (show mem.Cancels session cursor from h)]
  · rw [if_neg h, if_neg (show ¬mem.Cancels session cursor from h)]

/-- The cancel loop takes the jobs that it concerns off the pending queue. -/
theorem cancelPending_eq {n : ℕ} {before queue : List AipuJob} (hn : queue.length ≤ n)
    (hqueue : jm.pendingQueue = before ++ queue) (hstate : ∀ j ∈ queue, j.state = .pending)
    (hnodup : jm.IdsNodup) :
    (aipuInvalidateCanceledJobsNoLock mem session AipuJobManager.pendingQueue n queue jm).1 =
      { jm with pendingQueue := before ++ queue.filter fun j => ¬mem.Cancels session j } := by
  induction n generalizing before queue jm with
  | zero =>
    obtain rfl := List.length_eq_zero_iff.mp (Nat.le_zero.mp hn)
    simp [aipuInvalidateCanceledJobsNoLock, ← hqueue]
  | succ n ih =>
    cases queue with
    | nil => simp [aipuInvalidateCanceledJobsNoLock, ← hqueue]
    | cons cursor rest =>
      have hrest : ∀ j ∈ rest, j.state = .pending := fun j hj => hstate j (by simp [hj])
      have hlen : rest.length ≤ n := by simpa using hn
      have hpending : cursor.state = .pending := hstate cursor (by simp)
      have hmem : cursor ∈ jm.pendingQueue := by simp [hqueue]
      by_cases hc : mem.Cancels session cursor
      · have hdel := hnodup.listDel_pending_at hqueue
        have hbody : (invalidateIfCanceled mem session jm cursor).1 =
            { jm with pendingQueue := before ++ rest } := by
          rw [invalidateIfCanceled_fst, if_pos hc, aipuInvalidateJobNoLock_pending hpending, hdel]
        have hnodup' := hnodup.listDel cursor.id
        rw [hdel] at hnodup'
        have happended : ((before ++ rest).drop (before ++ cursor :: rest).length) = [] :=
          List.drop_eq_nil_of_le (by simp)
        simp only [aipuInvalidateCanceledJobsNoLock, hbody, hqueue, happended, List.append_nil]
        rw [ite_eq_right_iff.mpr (fun hnil => hnil.symm),
          @ih { jm with pendingQueue := before ++ rest } before rest hlen rfl hrest hnodup',
          List.filter_cons_of_neg (by simpa using hc)]
      · have hbody : (invalidateIfCanceled mem session jm cursor).1 = jm := by
          rw [invalidateIfCanceled_fst, if_neg hc]
        have hqueue' : jm.pendingQueue = (before ++ [cursor]) ++ rest := by simp [hqueue]
        simp only [aipuInvalidateCanceledJobsNoLock, hbody, List.drop_length, List.append_nil]
        rw [ite_eq_right_iff.mpr (fun hnil => hnil.symm), ih hlen hqueue' hrest hnodup,
          List.filter_cons_of_pos (by simpa using hc)]
        simp

/-- The cancel loop clears the valid flag of the running jobs that it concerns. -/
theorem cancelScheduled_eq {n : ℕ} {before queue : List AipuJob} (hn : queue.length ≤ n)
    (hreset : jm.hasLogicReset = false) (hqueue : jm.scheduledQueue = before ++ queue)
    (hstate : ∀ j ∈ queue, j.state = .sched ∨ j.state = .finished) (hnodup : jm.IdsNodup) :
    (aipuInvalidateCanceledJobsNoLock mem session AipuJobManager.scheduledQueue n queue jm).1 =
      { jm with scheduledQueue := before ++ queue.map (mem.cancel session) } := by
  induction n generalizing before queue jm with
  | zero =>
    obtain rfl := List.length_eq_zero_iff.mp (Nat.le_zero.mp hn)
    simp [aipuInvalidateCanceledJobsNoLock, ← hqueue]
  | succ n ih =>
    cases queue with
    | nil => simp [aipuInvalidateCanceledJobsNoLock, ← hqueue]
    | cons cursor rest =>
      have hrest : ∀ j ∈ rest, j.state = .sched ∨ j.state = .finished :=
        fun j hj => hstate j (by simp [hj])
      have hlen : rest.length ≤ n := by simpa using hn
      obtain ⟨jm₁, hbody, hqueue₁, hreset₁, hnodup₁, hjm₁⟩ : ∃ jm₁ : AipuJobManager,
          (invalidateIfCanceled mem session jm cursor).1 = jm₁ ∧
          jm₁.scheduledQueue = before ++ mem.cancel session cursor :: rest ∧
          jm₁.hasLogicReset = false ∧ jm₁.IdsNodup ∧
          jm₁ = { jm with scheduledQueue := before ++ mem.cancel session cursor :: rest } := by
        by_cases hc : mem.Cancels session cursor ∧ cursor.state = .sched
        · have hclear := hnodup.clearValid_at hqueue
          refine ⟨jm.clearValid cursor.id, ?_, ?_, hreset, hnodup.clearValid _, ?_⟩
          · rw [invalidateIfCanceled_fst, if_pos hc.1, aipuInvalidateJobNoLock_sched hreset hc.2]
          · rw [hclear, SessionMem.cancel, if_pos hc]
          · rw [hclear, SessionMem.cancel, if_pos hc]
        · refine ⟨jm, ?_, ?_, hreset, hnodup, ?_⟩
          · rw [invalidateIfCanceled_fst]
            split
            · rename_i hcan
              rw [aipuInvalidateJobNoLock_finished
                ((hstate cursor (by simp)).resolve_left fun hs => hc ⟨hcan, hs⟩)]
            · rfl
          · rw [hqueue, SessionMem.cancel, if_neg hc]
          · rw [SessionMem.cancel, if_neg hc, ← hqueue]
      have happended : (jm₁.scheduledQueue.drop jm.scheduledQueue.length) = [] := by
        rw [hqueue₁, hqueue]
        exact List.drop_eq_nil_of_le (by simp)
      have hqueue' : jm₁.scheduledQueue = (before ++ [mem.cancel session cursor]) ++ rest := by
        simp [hqueue₁]
      simp only [aipuInvalidateCanceledJobsNoLock, hbody, happended, List.append_nil]
      rw [ite_eq_right_iff.mpr (fun hnil => hnil.symm), ih hlen hreset₁ hqueue' hrest hnodup₁,
        hjm₁]
      simp

variable {max : ℤ} {tr : List JmEvent} {s : JmState}

/-- The first loop of a cancel, over the whole pending queue. -/
theorem JobQueueInv.cancelPending (hinv : JobQueueInv max tr s) :
    (aipuInvalidateCanceledJobsNoLock mem session AipuJobManager.pendingQueue
      (s.jm.pendingQueue.length + s.jm.scheduledQueue.length) s.jm.pendingQueue s.jm).1 =
      { s.jm with
        pendingQueue := [] ++ s.jm.pendingQueue.filter fun j => ¬mem.Cancels session j } :=
  cancelPending_eq (Nat.le_add_right _ _) rfl hinv.pendingState hinv.nodup

/-- **Cancel.**  A cancel takes the pending jobs that it concerns off their queue and clears the
valid flag of the running ones; jobs that have ended stay as they are. -/
theorem aipuJobManagerCancelSessionJobs_eq (hinv : JobQueueInv max tr s) :
    (aipuJobManagerCancelSessionJobs mem session s.jm).1 =
      { s.jm with
        pendingQueue := s.jm.pendingQueue.filter fun j => ¬mem.Cancels session j
        scheduledQueue := s.jm.scheduledQueue.map (mem.cancel session) } := by
  unfold aipuJobManagerCancelSessionJobs
  dsimp only
  rw [hinv.cancelPending]
  have hnodup : AipuJobManager.IdsNodup { s.jm with
      pendingQueue := [] ++ s.jm.pendingQueue.filter fun j => ¬mem.Cancels session j } :=
    hinv.nodup.sublist ((List.Sublist.map _ List.filter_sublist).append (List.Sublist.refl _))
  exact @cancelScheduled_eq _ _ _ _ [] _ (Nat.le_add_left _ _) hinv.noReset rfl hinv.schedState
    hnodup

/-- **Kill.**  A kill takes the first pending job of the thread with the id off its queue; if there
is none, it clears the valid flag of the first such scheduled job, unless that job has ended. -/
theorem aipuInvalidateTimeoutJob_eq (hinv : JobQueueInv max tr s) (tid : ℤ) (jobId : ℕ) :
    aipuInvalidateTimeoutJob mem tid jobId s.jm =
      match seek (fun job => job.uthreadId = tid ∧ job.desc.jobId = jobId) s.jm.pendingQueue with
      | some c => (0, { s.jm with pendingQueue := c.before ++ c.after }, [.removed c.entry.id])
      | none =>
        match seek (fun job => job.uthreadId = tid ∧ job.desc.jobId = jobId)
            s.jm.scheduledQueue with
        | none => (-einval, s.jm, [])
        | some c =>
          if c.entry.state = .sched then
            (0, { s.jm with
              scheduledQueue := c.before ++ { c.entry with validFlag := false } :: c.after },
              [.invalidated c.entry.id])
          else (-einval, s.jm, []) := by
  unfold aipuInvalidateTimeoutJob aipuInvalidateTimeoutJobNoLock
  cases hp : seek (fun job => job.uthreadId = tid ∧ job.desc.jobId = jobId) s.jm.pendingQueue with
  | some c =>
    obtain ⟨hqueue, -, -⟩ := seek_eq_some hp
    have hstate := hinv.pendingState c.entry (hqueue ▸ c.entry_mem)
    simp [aipuInvalidateJobNoLock_pending hstate, hinv.nodup.listDel_pending_at hqueue]
  | none =>
    cases hs : seek (fun job => job.uthreadId = tid ∧ job.desc.jobId = jobId)
        s.jm.scheduledQueue with
    | none => simp [-Bool.decide_and, hs, einval]
    | some c =>
      obtain ⟨hqueue, -, -⟩ := seek_eq_some hs
      rcases hinv.schedState c.entry (hqueue ▸ c.entry_mem) with hstate | hstate
      · simp [-Bool.decide_and, hs, einval, hstate,
          aipuInvalidateJobNoLock_sched hinv.noReset hstate, hinv.nodup.clearValid_at hqueue]
      · simp [-Bool.decide_and, hs, einval, hstate, aipuInvalidateJobNoLock_finished hstate]

/-- A kill takes the first pending job that matches off its queue; if there is none, it invalidates
the first such scheduled job where that is running; otherwise it fails and changes nothing. -/
theorem jmStep_kill_cases {s' : JmState} {es : List JmEvent} {tid : ℤ} {jobId : ℕ}
    (hinv : JobQueueInv max tr s) (h : jmStep s (.kill mem tid jobId) = some (s', es)) :
    (∃ c, seek (fun job : AipuJob => job.uthreadId = tid ∧ job.desc.jobId = jobId)
          s.jm.pendingQueue = some c ∧
        s' = { s with jm := { s.jm with pendingQueue := c.before ++ c.after } } ∧
        es = [.removed c.entry.id, .killed 0]) ∨
      (seek (fun job : AipuJob => job.uthreadId = tid ∧ job.desc.jobId = jobId)
          s.jm.pendingQueue = none ∧
        ((∃ c, seek (fun job : AipuJob => job.uthreadId = tid ∧ job.desc.jobId = jobId)
            s.jm.scheduledQueue = some c ∧ c.entry.state = .sched ∧
          s' = { s with jm := { s.jm with
            scheduledQueue := c.before ++ { c.entry with validFlag := false } :: c.after } } ∧
          es = [.invalidated c.entry.id, .killed 0]) ∨
        ((∀ c, seek (fun job : AipuJob => job.uthreadId = tid ∧ job.desc.jobId = jobId)
            s.jm.scheduledQueue = some c → c.entry.state = .finished) ∧
          s' = s ∧ es = [.killed (-einval)]))) := by
  cases hkill : aipuInvalidateTimeoutJob mem tid jobId s.jm with
  | mk ret r =>
  obtain ⟨jm, es₁⟩ := r
  simp only [jmStep, hkill] at h
  obtain ⟨rfl, rfl⟩ := Prod.mk.inj (Option.some.inj h)
  rw [aipuInvalidateTimeoutJob_eq hinv] at hkill
  split at hkill
  · rename_i c hseek
    simp only [Prod.mk.injEq] at hkill
    obtain ⟨rfl, rfl, rfl⟩ := hkill
    exact .inl ⟨c, hseek, rfl, rfl⟩
  rename_i hnone
  refine .inr ⟨hnone, ?_⟩
  split at hkill
  · rename_i hsched
    simp only [Prod.mk.injEq] at hkill
    obtain ⟨rfl, rfl, rfl⟩ := hkill
    exact .inr ⟨by simp [-Bool.decide_and, hsched], rfl, rfl⟩
  · rename_i c hseek
    split at hkill
    · rename_i hstate
      simp only [Prod.mk.injEq] at hkill
      obtain ⟨rfl, rfl, rfl⟩ := hkill
      exact .inl ⟨c, hseek, hstate, rfl, rfl⟩
    · rename_i hstate
      simp only [Prod.mk.injEq] at hkill
      obtain ⟨rfl, rfl, rfl⟩ := hkill
      refine .inr ⟨fun c' hc' => ?_, rfl, rfl⟩
      obtain rfl := Option.some.inj (hseek.symm.trans hc')
      exact (hinv.schedState _ ((seek_eq_some hseek).1 ▸ c.entry_mem)).resolve_left hstate

/-- A cancel takes the pending jobs that it concerns off their queue and clears the valid flag of
the running ones. -/
theorem jmStep_cancel_eq {s' : JmState} {es : List JmEvent} (hinv : JobQueueInv max tr s)
    (h : jmStep s (.cancel mem session) = some (s', es)) :
    s'.jm = { s.jm with
      pendingQueue := s.jm.pendingQueue.filter fun j => ¬mem.Cancels session j
      scheduledQueue := s.jm.scheduledQueue.map (mem.cancel session) } := by
  cases hcancel : aipuJobManagerCancelSessionJobs mem session s.jm with
  | mk jm es₁ =>
  simp only [jmStep, hcancel] at h
  obtain ⟨rfl, -⟩ := Prod.mk.inj (Option.some.inj h)
  rw [← aipuJobManagerCancelSessionJobs_eq hinv, hcancel]

end Exact

/-! ## How a job may change -/

/-- The order in which a job passes through its states. -/
def AipuJobState.rank : AipuJobState → ℕ
  | .idle => 0
  | .pending => 1
  | .sched => 2
  | .finished => 3

/-- All queued jobs. -/
def AipuJobManager.jobs (jm : AipuJobManager) : List AipuJob := jm.pendingQueue ++ jm.scheduledQueue

/-- The job `j'` is what a step may have made of the job `j`: the state only advances, the valid
flag is only cleared, and a job that has ended does not change. -/
structure AipuJob.Evolves (j j' : AipuJob) : Prop where
  id : j'.id = j.id
  uthreadId : j'.uthreadId = j.uthreadId
  desc : j'.desc = j.desc
  session : j'.session = j.session
  sessionJob : j'.sessionJob = j.sessionJob
  state : j.state.rank ≤ j'.state.rank
  valid : j'.validFlag = true → j.validFlag = true
  finished : j.state = .finished → j' = j

theorem AipuJob.Evolves.refl (j : AipuJob) : j.Evolves j :=
  ⟨rfl, rfl, rfl, rfl, rfl, Nat.le_refl _, fun h => h, fun _ => rfl⟩

theorem AipuJob.Evolves.trans {j j' j'' : AipuJob} (h : j.Evolves j') (h' : j'.Evolves j'') :
    j.Evolves j'' where
  id := h'.id.trans h.id
  uthreadId := h'.uthreadId.trans h.uthreadId
  desc := h'.desc.trans h.desc
  session := h'.session.trans h.session
  sessionJob := h'.sessionJob.trans h.sessionJob
  state := Nat.le_trans h.state h'.state
  valid hv := h.valid (h'.valid hv)
  finished hf := by
    obtain rfl := h.finished hf
    exact h'.finished hf

/-- A job that has not ended had not ended before. -/
theorem AipuJob.Evolves.not_finished {j j' : AipuJob} (h : j.Evolves j')
    (hj : j'.state ≠ .finished) : j.state ≠ .finished := fun hf => hj (h.finished hf ▸ hf)

/-- Two queued jobs with the same address are the same. -/
theorem JobQueueInv.eq_of_id {max : ℤ} {tr : List JmEvent} {s : JmState}
    (hinv : JobQueueInv max tr s) {j j' : AipuJob} (hj : j ∈ s.jm.jobs) (hj' : j' ∈ s.jm.jobs)
    (hid : j.id = j'.id) : j = j' := by
  have hnodup : (jobIds s.jm.jobs).Nodup := by
    rw [AipuJobManager.jobs, jobIds_append]
    exact hinv.nodup
  exact eq_of_id_eq hnodup hj hj' hid

section Evolution

variable {max : ℤ} {tr : List JmEvent} {s s' : JmState} {es : List JmEvent}

/-- A move that submits no job lets the queued jobs evolve. -/
theorem JmMove.evolves (hinv : JobQueueInv max tr s) (h : JmMove s es s')
    (hes : submittedJobs es = []) : ∀ j' ∈ s'.jm.jobs, ∃ j ∈ s.jm.jobs, j.Evolves j' := by
  have hsame : ∀ {j}, j ∈ s.jm.jobs → ∃ j₀ ∈ s.jm.jobs, j₀.Evolves j := fun hj =>
    ⟨_, hj, .refl _⟩
  intro j' hj'
  cases h with
  | control hjm =>
    rw [hjm] at hj'
    exact hsame hj'
  | note => exact hsame hj'
  | enqueue => simp [submittedJobs, JmEvent.submits] at hes
  | @trigger curr rest hpending =>
    have hcurr : curr ∈ s.jm.pendingQueue := by simp [hpending]
    simp only [AipuJobManager.jobs, List.mem_append, List.mem_singleton] at hj'
    rcases hj' with hj' | hj' | rfl
    · exact hsame (List.mem_append_left _ (by simp [hpending, hj']))
    · exact hsame (List.mem_append_right _ hj')
    · have hstate := hinv.pendingState curr hcurr
      exact ⟨curr, List.mem_append_left _ hcurr, rfl, rfl, rfl, rfl, rfl,
        by simp [hstate, AipuJobState.rank], id, by simp [hstate]⟩
  | @finish c flag hqueue hstate =>
    have hmem : ∀ {j}, j ∈ c.toList → j ∈ s.jm.jobs := fun hj =>
      List.mem_append_right _ (hqueue ▸ hj)
    rcases List.mem_append.mp hj' with hj' | hj'
    · exact hsame (List.mem_append_left _ hj')
    rcases List.mem_append.mp hj' with hj' | hj'
    · exact hsame (hmem (Cursor.mem_toList.mpr (.inl hj')))
    rcases List.mem_cons.mp hj' with rfl | hj'
    · exact ⟨c.entry, hmem c.entry_mem, rfl, rfl, rfl, rfl, rfl,
        by simp [hstate, AipuJobState.rank], id, by simp [hstate]⟩
    · exact hsame (hmem (Cursor.mem_toList.mpr (.inr (.inr hj'))))
  | @invalidate job hjob hstate =>
    have hclear := hinv.nodup.clearValid_sched hjob
    rw [hclear] at hj'
    rcases List.mem_append.mp hj' with hj' | hj'
    · exact hsame (List.mem_append_left _ hj')
    · obtain ⟨j, hj, rfl⟩ := List.mem_map.mp hj'
      refine ⟨j, List.mem_append_right _ hj, ?_⟩
      split
      · rename_i hid
        obtain rfl := eq_of_id_eq hinv.nodup.sched hj hjob hid
        exact ⟨rfl, rfl, rfl, rfl, rfl, Nat.le_refl _, by simp, by simp [hstate]⟩
      · exact .refl j
  | remove | retire =>
    rcases List.mem_append.mp hj' with hj' | hj'
    · exact hsame (List.mem_append_left _ (List.mem_filter.mp hj').1)
    · exact hsame (List.mem_append_right _ (List.mem_filter.mp hj').1)

/-- Moves that submit no job let the queued jobs evolve. -/
theorem JmMoves.evolves (hinv : JobQueueInv max tr s) (h : JmMoves s es s')
    (hnext : s'.nextJob = s.nextJob) : ∀ j' ∈ s'.jm.jobs, ∃ j ∈ s.jm.jobs, j.Evolves j' := by
  have hes : submittedJobs es = [] := by
    have hafter := (hinv.moves h).submitted
    rw [hnext, ← hinv.submitted, submittedJobs, List.filterMap_append] at hafter
    exact List.append_right_eq_self.mp hafter
  clear hnext
  induction h with
  | refl => exact fun j hj => ⟨j, hj, .refl j⟩
  | tail hmoves hmove ih =>
    rw [submittedJobs, List.filterMap_append, List.append_eq_nil_iff] at hes
    intro j' hj'
    obtain ⟨j₁, hj₁, hev₁⟩ := hmove.evolves (hinv.moves hmoves) hes.2 j' hj'
    obtain ⟨j, hj, hev⟩ := ih hes.1 j₁ hj₁
    exact ⟨j, hj, hev.trans hev₁⟩

/-- The job that a submission puts into the pending queue. -/
def newJob (id : ℕ) (sub : Submission) : AipuJob :=
  { initAipuJob id sub with state := .pending }

/-- A submission appends the job to the pending queue and schedules. -/
theorem jmStep_submit_cases {mem : SessionMem} {sub : Submission}
    (h : jmStep s (.submit mem sub) = some (s', es)) :
    s' = { s with
        jm := (aipuSchedulePendingJobNoLock mem { s.jm with
          pendingQueue := s.jm.pendingQueue ++ [newJob s.nextJob sub] }).1
        nextJob := s.nextJob + 1 } ∧
      es = .submitted s.nextJob :: (aipuSchedulePendingJobNoLock mem { s.jm with
        pendingQueue := s.jm.pendingQueue ++ [newJob s.nextJob sub] }).2 := by
  obtain ⟨rfl, rfl⟩ := Prod.mk.inj (Option.some.inj h)
  exact ⟨rfl, rfl⟩

/-- Over a step, a queued job evolves from a queued one, or it is the job that was submitted. -/
theorem jmStep_evolves {a : JmAction} (hinv : JobQueueInv max tr s) (hbh : s.BhInv)
    (h : jmStep s a = some (s', es)) :
    ∀ j' ∈ s'.jm.jobs, (∃ j ∈ s.jm.jobs, j.Evolves j') ∨
      ∃ mem sub, a = .submit mem sub ∧ (newJob s.nextJob sub).Evolves j' := by
  obtain ⟨hmoves, -⟩ := jmStep_moves hinv hbh h
  have hkeep : s'.nextJob = s.nextJob → ∀ j' ∈ s'.jm.jobs, (∃ j ∈ s.jm.jobs, j.Evolves j') ∨
      ∃ mem sub, a = .submit mem sub ∧ (newJob s.nextJob sub).Evolves j' :=
    fun hnext j' hj' => .inl (hmoves.evolves hinv hnext j' hj')
  cases a with
  | submit mem sub =>
    obtain ⟨rfl, -⟩ := jmStep_submit_cases h
    intro j' hj'
    obtain ⟨j, hj, hev⟩ := (aipuSchedulePendingJobNoLock_moves (s := { s with
      jm := { s.jm with pendingQueue := s.jm.pendingQueue ++ [newJob s.nextJob sub] }
      nextJob := s.nextJob + 1 }) rfl).evolves (hinv.enqueue sub) rfl j' hj'
    simp only [AipuJobManager.jobs, List.mem_append, List.mem_singleton] at hj
    rcases hj with (hj | rfl) | hj
    · exact .inl ⟨j, List.mem_append_left _ hj, hev⟩
    · exact .inr ⟨mem, sub, rfl, hev⟩
    · exact .inl ⟨j, List.mem_append_right _ hj, hev⟩
  | upperHalf | kill | cancel =>
    obtain ⟨rfl, -⟩ := Prod.mk.inj (Option.some.inj h)
    exact hkeep rfl
  | queueWork =>
    obtain ⟨-, rfl, -⟩ := jmStep_queueWork_cases h
    exact hkeep rfl
  | bhStart =>
    obtain ⟨-, -, rfl, -⟩ := jmStep_bhStart_cases h
    exact hkeep rfl
  | bhDone =>
    obtain ⟨curr, next, -, rfl, -⟩ := jmStep_bhDone_cases h
    exact hkeep rfl
  | bhResume =>
    obtain ⟨curr, next, -, rfl, -⟩ := jmStep_bhResume_cases h
    exact hkeep rfl

end Evolution

/-! ## What the calls read -/

/-- The event, if it is a read, reads a session that satisfies `P` or a session job that satisfies
`Q`. -/
def JmEvent.ReadsOnly (P Q : ℕ → Prop) : JmEvent → Prop
  | .readSession session => P session
  | .readSessionJob sessionJob => Q sessionJob
  | _ => True

theorem JmEvent.ReadsOnly.mono {P P' Q Q' : ℕ → Prop} {e : JmEvent} (h : e.ReadsOnly P Q)
    (hP : ∀ x, P x → P' x) (hQ : ∀ x, Q x → Q' x) : e.ReadsOnly P' Q' := by
  cases e <;> first | trivial | exact hP _ h | exact hQ _ h

section Reads

variable {mem : SessionMem} {jm : AipuJobManager}

/-- Scheduling reads the session job of a pending job. -/
theorem aipuSchedulePendingJobNoLock_reads :
    ∀ e ∈ (aipuSchedulePendingJobNoLock mem jm).2,
      e.ReadsOnly (fun _ => False) (fun x => ∃ j ∈ jm.pendingQueue, j.sessionJob = x) := by
  unfold aipuSchedulePendingJobNoLock aipuJobManagerTriggerJobSched
  split
  · simp
  · rename_i curr rest hpending
    have hread : JmEvent.ReadsOnly (fun _ => False) (fun x => ∃ j ∈ jm.pendingQueue,
        j.sessionJob = x) (.readSessionJob curr.sessionJob) := ⟨curr, by simp [hpending], rfl⟩
    dsimp only
    split_ifs
    all_goals simp only [List.cons_append, List.nil_append, List.forall_mem_cons]
    · exact ⟨trivial, hread, hread, by simp⟩
    · exact ⟨trivial, hread, by simp⟩
    · simp
    · simp

/-- Recording the end of a job reads its session job and its session. -/
theorem endReads_reads {job : AipuJob} :
    ∀ e ∈ endReads mem job,
      e.ReadsOnly (fun x => job.session = x) (fun x => job.sessionJob = x) := by
  unfold endReads aipuJobManagerUpdateJobProfilingData
  split_ifs <;> simp [JmEvent.ReadsOnly]

/-- An interrupt reads through the pointers of the job that it ends and of a pending job. -/
theorem aipuJobManagerUpdateJobStateIrq_reads {flag : ℤ} :
    ∀ e ∈ (aipuJobManagerUpdateJobStateIrq mem flag jm).2, e.ReadsOnly
      (fun x => ∃ j ∈ jm.scheduledQueue, j.state = .sched ∧ j.session = x)
      (fun x => (∃ j ∈ jm.pendingQueue, j.sessionJob = x) ∨
        ∃ j ∈ jm.scheduledQueue, j.state = .sched ∧ j.sessionJob = x) := by
  have hsched : ∀ jm' : AipuJobManager, jm'.pendingQueue = jm.pendingQueue →
      ∀ e ∈ (aipuSchedulePendingJobNoLock mem jm').2, e.ReadsOnly
        (fun x => ∃ j ∈ jm.scheduledQueue, j.state = .sched ∧ j.session = x)
        (fun x => (∃ j ∈ jm.pendingQueue, j.sessionJob = x) ∨
          ∃ j ∈ jm.scheduledQueue, j.state = .sched ∧ j.sessionJob = x) := by
    intro jm' hq e he
    exact (aipuSchedulePendingJobNoLock_reads e he).mono (fun _ h => h.elim)
      fun x hx => .inl (hq ▸ hx)
  unfold aipuJobManagerUpdateJobStateIrq
  split
  · exact hsched jm rfl
  · rename_i c hseek
    obtain ⟨hqueue, hstate, -⟩ := seek_eq_some hseek
    have hmem : c.entry ∈ jm.scheduledQueue := hqueue ▸ c.entry_mem
    have hstate : c.entry.state = .sched := by simpa using hstate
    refine List.forall_mem_append.mpr ⟨List.forall_mem_cons.mpr ⟨trivial, fun e he => ?_⟩,
      hsched _ rfl⟩
    refine (endReads_reads e he).mono (fun x hx => ⟨c.entry, hmem, hstate, hx⟩)
      fun x hx => .inr ⟨c.entry, hmem, hstate, hx⟩

/-- Without logic reset, invalidating a job reads nothing and lets no queue grow. -/
theorem aipuInvalidateJobNoLock_reads (mem : SessionMem) (job : AipuJob)
    (hreset : jm.hasLogicReset = false) :
    (∀ e ∈ (aipuInvalidateJobNoLock mem jm job).2.2, e.ReadsOnly (fun _ => False) fun _ => False) ∧
      (aipuInvalidateJobNoLock mem jm job).2.1.hasLogicReset = false ∧
      (aipuInvalidateJobNoLock mem jm job).2.1.pendingQueue.length ≤ jm.pendingQueue.length ∧
      (aipuInvalidateJobNoLock mem jm job).2.1.scheduledQueue.length ≤
        jm.scheduledQueue.length := by
  cases hstate : job.state with
  | idle => simp [aipuInvalidateJobNoLock, hstate, hreset]
  | finished => simp [aipuInvalidateJobNoLock_finished hstate, hreset]
  | pending =>
    rw [aipuInvalidateJobNoLock_pending hstate]
    exact ⟨by simp [JmEvent.ReadsOnly], hreset, List.length_filter_le _ _,
      List.length_filter_le _ _⟩
  | sched =>
    rw [aipuInvalidateJobNoLock_sched hreset hstate]
    exact ⟨by simp [JmEvent.ReadsOnly], hreset, by simp [AipuJobManager.clearValid],
      by simp [AipuJobManager.clearValid]⟩

/-- The body of the cancel loop reads the two sessions that it compares. -/
theorem invalidateIfCanceled_reads (mem : SessionMem) (session : ℕ) (cursor : AipuJob)
    (hreset : jm.hasLogicReset = false) :
    (∀ e ∈ (invalidateIfCanceled mem session jm cursor).2,
        e.ReadsOnly (fun x => x = session ∨ cursor.session = x) fun _ => False) ∧
      (invalidateIfCanceled mem session jm cursor).1.hasLogicReset = false ∧
      (invalidateIfCanceled mem session jm cursor).1.pendingQueue.length ≤
        jm.pendingQueue.length ∧
      (invalidateIfCanceled mem session jm cursor).1.scheduledQueue.length ≤
        jm.scheduledQueue.length := by
  have hreads : ∀ e ∈ [JmEvent.readSession cursor.session, .readSession session],
      e.ReadsOnly (fun x => x = session ∨ cursor.session = x) fun _ => False := by
    simp [JmEvent.ReadsOnly]
  obtain ⟨hevents, hrest⟩ := aipuInvalidateJobNoLock_reads mem cursor hreset
  unfold invalidateIfCanceled
  split
  · refine ⟨List.forall_mem_append.mpr ⟨hreads, fun e he => ?_⟩, hrest⟩
    exact (hevents e he).mono (fun _ h => h.elim) fun _ h => h
  · exact ⟨hreads, hreset, Nat.le_refl _, Nat.le_refl _⟩

/-- The cancel loop reads the session that is canceled and the sessions of the jobs it passes. -/
theorem aipuInvalidateCanceledJobsNoLock_reads {session n : ℕ}
    {head : AipuJobManager → List AipuJob} {queue : List AipuJob}
    (hhead : head = AipuJobManager.pendingQueue ∨ head = AipuJobManager.scheduledQueue)
    (hreset : jm.hasLogicReset = false) :
    ∀ e ∈ (aipuInvalidateCanceledJobsNoLock mem session head n queue jm).2,
      e.ReadsOnly (fun x => x = session ∨ ∃ j ∈ queue, j.session = x) fun _ => False := by
  induction n generalizing queue jm with
  | zero => simp [aipuInvalidateCanceledJobsNoLock]
  | succ n ih =>
    cases queue with
    | nil => simp [aipuInvalidateCanceledJobsNoLock]
    | cons cursor rest =>
      obtain ⟨hbody, hreset₁, hpending, hsched⟩ :=
        invalidateIfCanceled_reads mem session cursor hreset
      have happended : (head (invalidateIfCanceled mem session jm cursor).1).drop
          (head jm).length = [] := by
        apply List.drop_eq_nil_of_le
        rcases hhead with rfl | rfl
        · exact hpending
        · exact hsched
      rw [aipuInvalidateCanceledJobsNoLock]
      dsimp only
      rw [happended, List.append_nil, ite_eq_right_iff.mpr (fun hnil => hnil.symm)]
      refine List.forall_mem_append.mpr ⟨fun e he => ?_, fun e he => ?_⟩
      · refine (hbody e he).mono ?_ fun _ h => h
        rintro x (rfl | rfl)
        · exact .inl rfl
        · exact .inr ⟨cursor, by simp, rfl⟩
      · refine (ih hreset₁ e he).mono ?_ fun _ h => h
        rintro x (rfl | ⟨j, hj, hx⟩)
        · exact .inl rfl
        · exact .inr ⟨j, List.mem_cons_of_mem _ hj, hx⟩

/-- A cancel reads the session that is canceled and the sessions of the queued jobs. -/
theorem aipuJobManagerCancelSessionJobs_reads {max : ℤ} {tr : List JmEvent} {s : JmState}
    {session : ℕ} (hinv : JobQueueInv max tr s) :
    ∀ e ∈ (aipuJobManagerCancelSessionJobs mem session s.jm).2,
      e.ReadsOnly (fun x => x = session ∨ ∃ j ∈ s.jm.jobs, j.session = x) fun _ => False := by
  unfold aipuJobManagerCancelSessionJobs
  dsimp only
  rw [hinv.cancelPending]
  refine List.forall_mem_append.mpr ⟨fun e he => ?_, fun e he => ?_⟩
  · refine (aipuInvalidateCanceledJobsNoLock_reads (.inl rfl) hinv.noReset e he).mono ?_
      fun _ h => h
    rintro x (rfl | ⟨j, hj, hx⟩)
    · exact .inl rfl
    · exact .inr ⟨j, List.mem_append_left _ hj, hx⟩
  · refine (aipuInvalidateCanceledJobsNoLock_reads (.inr rfl)
      (by exact hinv.noReset) e he).mono ?_ fun _ h => h
    rintro x (rfl | ⟨j, hj, hx⟩)
    · exact .inl rfl
    · exact .inr ⟨j, List.mem_append_right _ hj, hx⟩

/-- A kill reads nothing. -/
theorem aipuInvalidateTimeoutJob_reads {max : ℤ} {tr : List JmEvent} {s : JmState} {tid : ℤ}
    {jobId : ℕ} (hinv : JobQueueInv max tr s) :
    ∀ e ∈ (aipuInvalidateTimeoutJob mem tid jobId s.jm).2.2,
      e.ReadsOnly (fun _ => False) fun _ => False := by
  rw [aipuInvalidateTimeoutJob_eq hinv]
  split
  · simp [JmEvent.ReadsOnly]
  · split
    · simp
    · split <;> simp [JmEvent.ReadsOnly]

/-- The bottom half reads through no pointer while it holds the lock. -/
theorem bottomHalfScan_reads {queue : List AipuJob} :
    ∀ e ∈ (bottomHalfScan queue).2.2, e.ReadsOnly (fun _ => False) fun _ => False := by
  induction queue with
  | nil => simp [bottomHalfScan]
  | cons curr rest ih =>
    rw [bottomHalfScan]
    split_ifs
    · exact ih
    · simp
    · exact List.forall_mem_cons.mpr ⟨trivial, ih⟩

/-- The pointer to the session that a step reads although no queued job may have it: a cancel reads
the session that it cancels. -/
def JmAction.canceled : JmAction → Option ℕ
  | .cancel _ session => some session
  | _ => none

/-- The session job of the job that a step submits. -/
def JmAction.submittedSessionJob : JmAction → Option ℕ
  | .submit _ sub => some sub.sessionJob
  | _ => none

/-- The job whose session job `aipu_session_job_done` is about to read. -/
def BottomHalf.callingJob : BottomHalf → Option AipuJob
  | .calling curr _ => some curr
  | _ => none

/-- It is the job that the bottom half is working on. -/
theorem BottomHalf.curr?_of_callingJob {bh : BottomHalf} {curr : AipuJob}
    (h : bh.callingJob = some curr) : bh.curr? = some curr := by
  cases bh with
  | calling => exact h
  | rest | returned => cases h

/-- **Reads.**  Every pointer that a step reads is the session of a queued job or the session that
is canceled, or it is the session job of a queued job that has not ended, of the job that is
submitted, or of the job that the bottom half is about to report. -/
theorem jmStep_reads {max : ℤ} {tr : List JmEvent} {s s' : JmState} {a : JmAction}
    {es : List JmEvent} (hinv : JobQueueInv max tr s) (hbh : s.BhInv)
    (h : jmStep s a = some (s', es)) :
    ∀ e ∈ es, e.ReadsOnly
      (fun x => a.canceled = some x ∨ ∃ j ∈ s.jm.jobs, j.session = x)
      (fun x => a.submittedSessionJob = some x ∨
        ∃ j ∈ s.jm.jobs, (j.state ≠ .finished ∨ s.bh.callingJob = some j) ∧ j.sessionJob = x) := by
  have hpending : ∀ j ∈ s.jm.pendingQueue, j.state ≠ .finished := fun j hj => by
    simp [hinv.pendingState j hj]
  cases a with
  | submit mem sub =>
    cases hsub : aipuJobManagerScheduleNewJob mem s.nextJob sub s.jm with
    | mk jm es₁ =>
    simp only [jmStep, hsub] at h
    obtain ⟨-, rfl⟩ := Prod.mk.inj (Option.some.inj h)
    obtain ⟨-, rfl⟩ := Prod.mk.inj hsub
    refine List.forall_mem_cons.mpr ⟨trivial, fun e he => ?_⟩
    refine (aipuSchedulePendingJobNoLock_reads e he).mono (fun _ h => h.elim) ?_
    rintro x ⟨j, hj, rfl⟩
    rcases List.mem_append.mp hj with hj | hj
    · exact .inr ⟨j, List.mem_append_left _ hj, .inl (hpending j hj), rfl⟩
    · rw [List.mem_singleton.mp hj]
      exact .inl rfl
  | upperHalf mem flag =>
    obtain ⟨-, rfl⟩ := Prod.mk.inj (Option.some.inj h)
    intro e he
    refine (aipuJobManagerUpdateJobStateIrq_reads e he).mono ?_ ?_
    · rintro x ⟨j, hj, -, rfl⟩
      exact .inr ⟨j, List.mem_append_right _ hj, rfl⟩
    · rintro x (⟨j, hj, rfl⟩ | ⟨j, hj, hstate, rfl⟩)
      · exact .inr ⟨j, List.mem_append_left _ hj, .inl (hpending j hj), rfl⟩
      · exact .inr ⟨j, List.mem_append_right _ hj, .inl (by simp [hstate]), rfl⟩
  | queueWork =>
    obtain ⟨-, -, rfl⟩ := jmStep_queueWork_cases h
    simp
  | bhStart =>
    obtain ⟨-, -, -, rfl⟩ := jmStep_bhStart_cases h
    exact fun e he => (bottomHalfScan_reads e he).mono (fun _ h => h.elim) fun _ h => h.elim
  | bhDone =>
    obtain ⟨curr, next, hcalling, -, rfl⟩ := jmStep_bhDone_cases h
    have hmem : curr ∈ s.jm.jobs :=
      List.mem_append_right _ (hbh curr (by rw [hcalling]; rfl)).1
    have hcurr : s.bh.callingJob = some curr := by rw [hcalling]; rfl
    refine List.forall_mem_cons.mpr ⟨.inr ⟨curr, hmem, rfl⟩, ?_⟩
    exact List.forall_mem_singleton.mpr (.inr ⟨curr, hmem, .inr hcurr, rfl⟩)
  | bhResume =>
    obtain ⟨curr, next, -, -, rfl⟩ := jmStep_bhResume_cases h
    refine List.forall_mem_cons.mpr ⟨trivial, ?_⟩
    cases next with
    | none => simp [bottomHalfFrom]
    | some pos =>
      exact fun e he => (bottomHalfScan_reads e he).mono (fun _ h => h.elim) fun _ h => h.elim
  | kill mem tid jobId =>
    obtain ⟨-, rfl⟩ := Prod.mk.inj (Option.some.inj h)
    refine List.forall_mem_append.mpr ⟨fun e he => ?_, by simp [JmEvent.ReadsOnly]⟩
    exact (aipuInvalidateTimeoutJob_reads hinv e he).mono (fun _ h => h.elim) fun _ h => h.elim
  | cancel mem session =>
    obtain ⟨-, rfl⟩ := Prod.mk.inj (Option.some.inj h)
    intro e he
    refine (aipuJobManagerCancelSessionJobs_reads hinv e he).mono ?_ fun _ h => h.elim
    rintro x (rfl | hx)
    · exact .inl rfl
    · exact .inr hx

end Reads

/-! ## The end of the bottom half -/

/-- The job that the bottom half has reported and is about to retire. -/
def BottomHalf.returnedJob : BottomHalf → Option AipuJob
  | .returned curr _ => some curr
  | _ => none

/-- The scan only takes jobs off the queue. -/
theorem bottomHalfScan_sublist {queue : List AipuJob} :
    (bottomHalfScan queue).1.Sublist queue := by
  induction queue with
  | nil => exact List.Sublist.refl _
  | cons curr rest ih =>
    rw [bottomHalfScan]
    split_ifs
    · exact ih.cons_cons curr
    · exact List.Sublist.refl _
    · exact ih.cons curr

/-- So does the loop of the bottom half after it takes the lock again. -/
theorem bottomHalfFrom_sublist {jm : AipuJobManager} {next : Option ℕ} :
    (bottomHalfFrom jm next).1.scheduledQueue.Sublist jm.scheduledQueue := by
  cases next with
  | none => exact List.Sublist.refl _
  | some pos =>
    have hsplit := List.takeWhile_append_dropWhile (p := fun j => j.id ≠ pos)
      (l := jm.scheduledQueue)
    calc (bottomHalfFrom jm (some pos)).1.scheduledQueue
      _ = jm.scheduledQueue.takeWhile (·.id ≠ pos) ++
          (bottomHalfScan (jm.scheduledQueue.dropWhile (·.id ≠ pos))).1 := rfl
      List.Sublist _ (jm.scheduledQueue.takeWhile (·.id ≠ pos) ++
          jm.scheduledQueue.dropWhile (·.id ≠ pos)) :=
        (List.Sublist.refl _).append bottomHalfScan_sublist
      _ = jm.scheduledQueue := hsplit

/-- The job that the bottom half has reported stays its current job until it is retired. -/
theorem jmStep_returned {s s' : JmState} {a : JmAction} {es : List JmEvent} {curr : AipuJob}
    (h : jmStep s a = some (s', es)) (hcurr : s.bh.returnedJob = some curr) :
    s'.bh.returnedJob = some curr ∨ ∀ j ∈ s'.jm.scheduledQueue, j.id ≠ curr.id := by
  cases a with
  | submit | upperHalf | kill | cancel =>
    obtain ⟨rfl, -⟩ := Prod.mk.inj (Option.some.inj h)
    exact .inl hcurr
  | queueWork =>
    obtain ⟨-, rfl, -⟩ := jmStep_queueWork_cases h
    exact .inl hcurr
  | bhStart =>
    obtain ⟨hrest, -⟩ := jmStep_bhStart_cases h
    rw [hrest] at hcurr
    cases hcurr
  | bhDone =>
    obtain ⟨curr', next, hcalling, -⟩ := jmStep_bhDone_cases h
    rw [hcalling] at hcurr
    cases hcurr
  | bhResume =>
    obtain ⟨curr', next, hbh, rfl, -⟩ := jmStep_bhResume_cases h
    rw [hbh] at hcurr
    obtain rfl : curr' = curr := Option.some.inj hcurr
    refine .inr fun j hj => ?_
    have hkept := (List.mem_filter.mp (bottomHalfFrom_sublist.subset hj)).2
    simpa using hkept

end Aipu
