import AipuDriver.Kmd.JobQueue

/-!
# Every step of the job manager is a sequence of moves

For each function of the job manager one lemma says which moves it makes.  Together with the
invariant of the bottom half (the job it works on is a scheduled one that has ended) they give
that every step is a sequence of moves, and so that the invariant of the queues holds in every run.
-/

namespace Aipu

open ListSearch Transition

/-! ## The functions as moves -/

section Functions

variable {mem : SessionMem} {s : JmState} {es : List JmEvent} {jm : AipuJobManager}

/-- Scheduling triggers the first pending job or at most polls the hardware. -/
theorem aipuSchedulePendingJobNoLock_moves
    (h : aipuSchedulePendingJobNoLock mem s.jm = (jm, es)) :
    JmMoves s es { s with jm := jm } := by
  unfold aipuSchedulePendingJobNoLock at h
  split at h
  · obtain ⟨rfl, rfl⟩ := Prod.mk.inj h
    exact .refl
  · rename_i curr rest hpending
    split at h
    case isFalse =>
      obtain ⟨rfl, rfl⟩ := Prod.mk.inj h
      exact .refl
    case isTrue hmax =>
      dsimp only at h
      split at h
      · obtain ⟨rfl, rfl⟩ := Prod.mk.inj h
        have hpoll : JmMoves s [] { s with jm := { s.jm with idle := s.jm.idle.next.2 } } :=
          JmMoves.refl.control rfl rfl
        refine (hpoll.tail (.trigger hpending hmax)).trans (JmMoves.notes ?_)
        refine List.forall_mem_cons.mpr ⟨rfl, ?_⟩
        split <;> simp [JmEvent.isNote]
      · obtain ⟨rfl, rfl⟩ := Prod.mk.inj h
        exact JmMoves.refl.control rfl rfl

/-- A submission puts the job into the pending queue and schedules. -/
theorem aipuJobManagerScheduleNewJob_moves {sub : Submission}
    (h : aipuJobManagerScheduleNewJob mem s.nextJob sub s.jm = (jm, es)) :
    JmMoves s es { s with jm := jm, nextJob := s.nextJob + 1 } := by
  unfold aipuJobManagerScheduleNewJob at h
  obtain ⟨rfl, rfl⟩ := Prod.mk.inj h
  exact (JmMove.enqueue sub).moves.trans (aipuSchedulePendingJobNoLock_moves rfl)

/-- Recording the end of a job only reads. -/
theorem endReads_isNote {job : AipuJob} : ∀ e ∈ endReads mem job, e.isNote = true := by
  unfold endReads aipuJobManagerUpdateJobProfilingData
  split_ifs <;> simp [JmEvent.isNote]

/-- Recording an interrupt ends the first scheduled job, if there is one, and schedules. -/
theorem aipuJobManagerUpdateJobStateIrq_moves {flag : ℤ}
    (h : aipuJobManagerUpdateJobStateIrq mem flag s.jm = (jm, es)) :
    JmMoves s es { s with jm := jm } := by
  unfold aipuJobManagerUpdateJobStateIrq at h
  split at h
  · exact aipuSchedulePendingJobNoLock_moves h
  · rename_i c hseek
    obtain ⟨hqueue, hstate, -⟩ := seek_eq_some hseek
    obtain ⟨rfl, rfl⟩ := Prod.mk.inj h
    have hfinish := (JmMove.finish flag hqueue (by simpa using hstate)).moves
    exact (hfinish.trans (JmMoves.notes endReads_isNote)).trans
      (aipuSchedulePendingJobNoLock_moves rfl)

/-- Invalidating a queued job flags a running one, removes a pending one and refuses one that has
ended. -/
theorem aipuInvalidateJobNoLock_cases {job : AipuJob} {ret : ℤ}
    (hreset : s.jm.hasLogicReset = false) (hjob : s.jm.Queued job)
    (h : aipuInvalidateJobNoLock mem s.jm job = (ret, jm, es)) :
    (job ∈ s.jm.scheduledQueue ∧ job.state = .sched ∧ ret = 0 ∧ jm = s.jm.clearValid job.id ∧
        es = [.invalidated job.id]) ∨
      (job ∈ s.jm.pendingQueue ∧ job.state = .pending ∧ ret = 0 ∧ jm = s.jm.listDel job.id ∧
        es = [.removed job.id]) ∨
      (job ∈ s.jm.scheduledQueue ∧ job.state = .finished ∧ ret = -einval ∧ jm = s.jm ∧
        es = []) := by
  rcases hjob with ⟨hmem, hstate⟩ | ⟨hmem, hstate | hstate⟩
  · simp only [aipuInvalidateJobNoLock, hstate, Prod.mk.injEq] at h
    exact .inr (.inl ⟨hmem, hstate, h.1.symm, h.2.1.symm, h.2.2.symm⟩)
  · simp only [aipuInvalidateJobNoLock, hstate, hreset, Bool.false_eq_true, if_false,
      Prod.mk.injEq] at h
    exact .inl ⟨hmem, hstate, h.1.symm, h.2.1.symm, h.2.2.symm⟩
  · simp only [aipuInvalidateJobNoLock, hstate, Prod.mk.injEq] at h
    exact .inr (.inr ⟨hmem, hstate, h.1.symm, h.2.1.symm, h.2.2.symm⟩)

/-- Invalidating a queued job is at most one move; it appends nothing to a queue and leaves the
other jobs queued as they are. -/
theorem aipuInvalidateJobNoLock_moves {job : AipuJob} {ret : ℤ}
    (hreset : s.jm.hasLogicReset = false) (hnodup : s.jm.IdsNodup) (hjob : s.jm.Queued job)
    (h : aipuInvalidateJobNoLock mem s.jm job = (ret, jm, es)) :
    JmMoves s es { s with jm := jm } ∧ jm.hasLogicReset = false ∧ jm.IdsNodup ∧
      jm.pendingQueue.length ≤ s.jm.pendingQueue.length ∧
      jm.scheduledQueue.length ≤ s.jm.scheduledQueue.length ∧
      ∀ j, s.jm.Queued j → j.id ≠ job.id → jm.Queued j := by
  rcases aipuInvalidateJobNoLock_cases hreset hjob h with
    ⟨hmem, hstate, -, rfl, rfl⟩ | ⟨hmem, hstate, -, rfl, rfl⟩ | ⟨-, -, -, rfl, rfl⟩
  · refine ⟨(JmMove.invalidate hmem hstate).moves, hreset, hnodup.clearValid _, ?_, ?_,
      fun j hj hne => hj.clearValid hne⟩ <;> simp [AipuJobManager.clearValid]
  · exact ⟨(JmMove.remove hmem).moves, hreset, hnodup.listDel _, List.length_filter_le ..,
      List.length_filter_le .., fun j hj hne => hj.listDel hne⟩
  · exact ⟨.refl, hreset, hnodup, Nat.le_refl _, Nat.le_refl _, fun j hj _ => hj⟩

/-- The body of the cancel loop is at most one move, as is the invalidation it may do. -/
theorem invalidateIfCanceled_moves {session : ℕ} {cursor : AipuJob}
    (hreset : s.jm.hasLogicReset = false) (hnodup : s.jm.IdsNodup) (hjob : s.jm.Queued cursor)
    (h : invalidateIfCanceled mem session s.jm cursor = (jm, es)) :
    JmMoves s es { s with jm := jm } ∧ jm.hasLogicReset = false ∧ jm.IdsNodup ∧
      jm.pendingQueue.length ≤ s.jm.pendingQueue.length ∧
      jm.scheduledQueue.length ≤ s.jm.scheduledQueue.length ∧
      ∀ j, s.jm.Queued j → j.id ≠ cursor.id → jm.Queued j := by
  have hreads : JmMoves s [.readSession cursor.session, .readSession session] s :=
    .notes (by simp [JmEvent.isNote])
  unfold invalidateIfCanceled at h
  dsimp only at h
  split at h
  · obtain ⟨rfl, rfl⟩ := Prod.mk.inj h
    obtain ⟨hmoves, hrest⟩ := aipuInvalidateJobNoLock_moves hreset hnodup hjob rfl
    exact ⟨hreads.trans hmoves, hrest⟩
  · obtain ⟨rfl, rfl⟩ := Prod.mk.inj h
    exact ⟨hreads, hreset, hnodup, Nat.le_refl _, Nat.le_refl _, fun j hj _ => hj⟩

/-- The cancel loop over jobs that are queued when it starts is a sequence of moves. -/
theorem aipuInvalidateCanceledJobsNoLock_moves {session n : ℕ}
    {head : AipuJobManager → List AipuJob} {queue : List AipuJob}
    (hhead : head = AipuJobManager.pendingQueue ∨ head = AipuJobManager.scheduledQueue)
    (hreset : s.jm.hasLogicReset = false) (hids : (jobIds queue).Nodup)
    (hqueued : ∀ j ∈ queue, s.jm.Queued j) (hnodup : s.jm.IdsNodup)
    (h : aipuInvalidateCanceledJobsNoLock mem session head n queue s.jm = (jm, es)) :
    JmMoves s es { s with jm := jm } := by
  induction n generalizing queue s es with
  | zero =>
    obtain ⟨rfl, rfl⟩ := Prod.mk.inj h
    exact .refl
  | succ n ih =>
    cases queue with
    | nil =>
      obtain ⟨rfl, rfl⟩ := Prod.mk.inj h
      exact .refl
    | cons cursor rest =>
      obtain ⟨hcursor, hrest⟩ := List.nodup_cons.mp hids
      cases hbody : invalidateIfCanceled mem session s.jm cursor with
      | mk jm₁ es₁ =>
      obtain ⟨hmoves, hreset₁, hnodup₁, hplen, hslen, hframe⟩ :=
        invalidateIfCanceled_moves hreset hnodup (hqueued cursor (by simp)) hbody
      have happended : (head jm₁).drop (head s.jm).length = [] := by
        rcases hhead with rfl | rfl
        · exact List.drop_eq_nil_of_le hplen
        · exact List.drop_eq_nil_of_le hslen
      have hqueued₁ : ∀ j ∈ rest, jm₁.Queued j := by
        intro j hj
        refine hframe j (hqueued j (List.mem_cons_of_mem cursor hj)) ?_
        intro heq
        exact hcursor (heq ▸ mem_jobIds hj)
      simp only [aipuInvalidateCanceledJobsNoLock, hbody, happended, List.append_nil] at h
      rw [ite_eq_right_iff.mpr (fun hnil => hnil.symm)] at h
      obtain ⟨rfl, rfl⟩ := Prod.mk.inj h
      exact hmoves.trans (ih (s := { s with jm := jm₁ }) hreset₁ hrest hqueued₁ hnodup₁ rfl)

/-- Killing a queued job is at most one move. -/
theorem aipuInvalidateTimeoutJobNoLock_moves {head : List AipuJob} {tid ret : ℤ} {jobId : ℕ}
    (hreset : s.jm.hasLogicReset = false) (hnodup : s.jm.IdsNodup)
    (hqueued : ∀ j ∈ head, s.jm.Queued j)
    (h : aipuInvalidateTimeoutJobNoLock mem s.jm head tid jobId = (ret, jm, es)) :
    JmMoves s es { s with jm := jm } := by
  unfold aipuInvalidateTimeoutJobNoLock at h
  split at h
  · simp only [Prod.mk.injEq] at h
    obtain ⟨-, rfl, rfl⟩ := h
    exact .refl
  · rename_i c hseek
    obtain ⟨hhead, -, -⟩ := seek_eq_some hseek
    exact (aipuInvalidateJobNoLock_moves hreset hnodup (hqueued _ (hhead ▸ c.entry_mem)) h).1

/-- The scan of the bottom half retires the jobs that have ended and are invalid. -/
theorem bottomHalfScan_moves {before queue queue' : List AipuJob} {bh : BottomHalf}
    (hnodup : s.jm.IdsNodup) (hqueue : s.jm.scheduledQueue = before ++ queue)
    (h : bottomHalfScan queue = (queue', bh, es)) :
    JmMoves s es { s with jm := { s.jm with scheduledQueue := before ++ queue' } } := by
  induction queue generalizing s before queue' bh es with
  | nil =>
    simp only [bottomHalfScan, Prod.mk.injEq] at h
    obtain ⟨rfl, -, rfl⟩ := h
    rw [← hqueue]
    exact .refl
  | cons curr rest ih =>
    simp only [bottomHalfScan] at h
    split at h
    · -- a job that has not ended is skipped
      simp only [Prod.mk.injEq] at h
      obtain ⟨rfl, -, rfl⟩ := h
      have hqueue' : s.jm.scheduledQueue = (before ++ [curr]) ++ rest := by simp [hqueue]
      simpa using ih hnodup hqueue' rfl
    · rename_i hstate
      split at h
      · simp only [Prod.mk.injEq] at h
        obtain ⟨rfl, -, rfl⟩ := h
        rw [← hqueue]
        exact .refl
      · -- an invalid job that has ended is retired, and the scan goes on behind it
        simp only [Prod.mk.injEq] at h
        obtain ⟨rfl, -, rfl⟩ := h
        have hmem : curr ∈ s.jm.scheduledQueue := by simp [hqueue]
        have hfinished : curr.state = .finished := by simpa using hstate
        have hretire := (JmMove.retire (s := s) hmem hfinished).moves
        have hdel := hnodup.listDel_sched_at hqueue
        rw [hdel] at hretire
        have hnodup' := hnodup.listDel curr.id
        rw [hdel] at hnodup'
        exact hretire.trans
          (ih (s := { s with jm := { s.jm with scheduledQueue := before ++ rest } })
          hnodup' rfl rfl)

/-- The loop of the bottom half from a saved position on is a sequence of moves. -/
theorem bottomHalfFrom_moves {pos : Option ℕ} {bh : BottomHalf} (hnodup : s.jm.IdsNodup)
    (h : bottomHalfFrom s.jm pos = (jm, bh, es)) : JmMoves s es { s with jm := jm } := by
  cases pos with
  | none =>
    simp only [bottomHalfFrom, Prod.mk.injEq] at h
    obtain ⟨rfl, -, rfl⟩ := h
    exact .refl
  | some pos =>
    simp only [bottomHalfFrom, Prod.mk.injEq] at h
    obtain ⟨rfl, -, rfl⟩ := h
    exact bottomHalfScan_moves hnodup (List.takeWhile_append_dropWhile).symm rfl

end Functions

/-! ## What the functions log -/

section Events

variable {mem : SessionMem} {jm jm' : AipuJobManager} {es : List JmEvent}

/-- A note neither retires nor removes a job. -/
theorem JmEvent.of_isNote {e : JmEvent} (he : e.isNote = true) :
    e.retires = none ∧ e.removes = none := by
  cases e <;> simp_all [JmEvent.isNote, JmEvent.retires, JmEvent.removes]

/-- Scheduling neither retires nor removes a job. -/
theorem aipuSchedulePendingJobNoLock_events :
    ∀ e ∈ (aipuSchedulePendingJobNoLock mem jm).2, e.retires = none ∧ e.removes = none := by
  unfold aipuSchedulePendingJobNoLock aipuJobManagerTriggerJobSched
  dsimp only
  split
  · simp
  · split_ifs <;> simp [JmEvent.retires, JmEvent.removes]

/-- A submission neither retires nor removes a job. -/
theorem aipuJobManagerScheduleNewJob_events {id : ℕ} {sub : Submission}
    (h : aipuJobManagerScheduleNewJob mem id sub jm = (jm', es)) :
    ∀ e ∈ es, e.retires = none ∧ e.removes = none := by
  obtain rfl := congrArg Prod.snd h
  unfold aipuJobManagerScheduleNewJob
  exact List.forall_mem_cons.mpr ⟨⟨rfl, rfl⟩, aipuSchedulePendingJobNoLock_events⟩

/-- Recording an interrupt neither retires nor removes a job. -/
theorem aipuJobManagerUpdateJobStateIrq_events {flag : ℤ}
    (h : aipuJobManagerUpdateJobStateIrq mem flag jm = (jm', es)) :
    ∀ e ∈ es, e.retires = none ∧ e.removes = none := by
  obtain rfl := congrArg Prod.snd h
  unfold aipuJobManagerUpdateJobStateIrq
  split
  · exact aipuSchedulePendingJobNoLock_events
  · refine List.forall_mem_append.mpr ⟨List.forall_mem_cons.mpr ⟨⟨rfl, rfl⟩, ?_⟩,
      aipuSchedulePendingJobNoLock_events⟩
    exact fun e he => JmEvent.of_isNote (endReads_isNote e he)

/-- Invalidating a job retires none. -/
theorem aipuInvalidateJobNoLock_events {job : AipuJob} :
    ∀ e ∈ (aipuInvalidateJobNoLock mem jm job).2.2, e.retires = none := by
  unfold aipuInvalidateJobNoLock
  split
  · split
    · exact List.forall_mem_cons.mpr ⟨rfl, fun e he => (aipuSchedulePendingJobNoLock_events e he).1⟩
    · simp [JmEvent.retires]
  · simp [JmEvent.retires]
  · simp
  · simp

/-- The body of the cancel loop retires no job. -/
theorem invalidateIfCanceled_events {session : ℕ} {cursor : AipuJob} :
    ∀ e ∈ (invalidateIfCanceled mem session jm cursor).2, e.retires = none := by
  have hreads : ∀ e ∈ [JmEvent.readSession cursor.session, .readSession session],
      e.retires = none := by simp [JmEvent.retires]
  unfold invalidateIfCanceled
  dsimp only
  split
  · exact List.forall_mem_append.mpr ⟨hreads, aipuInvalidateJobNoLock_events⟩
  · exact hreads

/-- The cancel loop retires no job. -/
theorem aipuInvalidateCanceledJobsNoLock_events {session n : ℕ}
    {head : AipuJobManager → List AipuJob} {queue : List AipuJob} :
    ∀ e ∈ (aipuInvalidateCanceledJobsNoLock mem session head n queue jm).2, e.retires = none := by
  induction n generalizing queue jm with
  | zero => simp [aipuInvalidateCanceledJobsNoLock]
  | succ n ih =>
    cases queue with
    | nil => simp [aipuInvalidateCanceledJobsNoLock]
    | cons cursor rest =>
      rw [aipuInvalidateCanceledJobsNoLock]
      exact List.forall_mem_append.mpr ⟨invalidateIfCanceled_events, ih⟩

/-- A cancel retires no job. -/
theorem aipuJobManagerCancelSessionJobs_events {session : ℕ}
    (h : aipuJobManagerCancelSessionJobs mem session jm = (jm', es)) :
    ∀ e ∈ es, e.retires = none := by
  obtain rfl := congrArg Prod.snd h
  exact List.forall_mem_append.mpr
    ⟨aipuInvalidateCanceledJobsNoLock_events, aipuInvalidateCanceledJobsNoLock_events⟩

/-- A kill retires no job. -/
theorem aipuInvalidateTimeoutJob_events {tid ret : ℤ} {jobId : ℕ}
    (h : aipuInvalidateTimeoutJob mem tid jobId jm = (ret, jm', es)) :
    ∀ e ∈ es, e.retires = none := by
  obtain rfl := congrArg (fun r => r.2.2) h
  have hone : ∀ jm head, ∀ e ∈ (aipuInvalidateTimeoutJobNoLock mem jm head tid jobId).2.2,
      e.retires = none := by
    intro jm head
    unfold aipuInvalidateTimeoutJobNoLock
    split
    · simp
    · exact aipuInvalidateJobNoLock_events
  unfold aipuInvalidateTimeoutJob
  dsimp only
  split
  · exact List.forall_mem_append.mpr ⟨hone _ _, hone _ _⟩
  · exact hone _ _

/-- The scan of the bottom half removes no job. -/
theorem bottomHalfScan_events {queue : List AipuJob} :
    ∀ e ∈ (bottomHalfScan queue).2.2, e.removes = none := by
  induction queue with
  | nil => simp [bottomHalfScan]
  | cons curr rest ih =>
    unfold bottomHalfScan
    split
    · exact ih
    · split
      · simp
      · exact List.forall_mem_cons.mpr ⟨rfl, ih⟩

end Events

/-! ## The bottom half -/

/-- The job that the bottom half is working on. -/
def BottomHalf.curr? : BottomHalf → Option AipuJob
  | .rest => none
  | .calling curr _ => some curr
  | .returned curr _ => some curr

/-- The job that the bottom half is working on is a valid job of the scheduled queue that has
ended. -/
def JmState.BhInv (s : JmState) : Prop :=
  ∀ curr, s.bh.curr? = some curr →
    curr ∈ s.jm.scheduledQueue ∧ curr.state = .finished ∧ curr.validFlag = true

/-- The scan stops at a valid job that has ended and is left in the queue. -/
theorem bottomHalfScan_curr {queue queue' : List AipuJob} {bh : BottomHalf} {es : List JmEvent}
    (h : bottomHalfScan queue = (queue', bh, es)) {curr : AipuJob} (hcurr : bh.curr? = some curr) :
    curr ∈ queue' ∧ curr.state = .finished ∧ curr.validFlag = true := by
  induction queue generalizing queue' es with
  | nil =>
    simp only [bottomHalfScan, Prod.mk.injEq] at h
    obtain ⟨-, rfl, -⟩ := h
    cases hcurr
  | cons job rest ih =>
    unfold bottomHalfScan at h
    split at h
    · simp only [Prod.mk.injEq] at h
      obtain ⟨rfl, rfl, -⟩ := h
      obtain ⟨hmem, hrest⟩ := ih rfl
      exact ⟨List.mem_cons_of_mem job hmem, hrest⟩
    · rename_i hstate
      split at h
      · rename_i hvalid
        simp only [Prod.mk.injEq] at h
        obtain ⟨rfl, rfl, -⟩ := h
        obtain rfl := Option.some.inj hcurr
        exact ⟨List.mem_cons_self, by simpa using hstate, hvalid⟩
      · simp only [Prod.mk.injEq] at h
        obtain ⟨rfl, rfl, -⟩ := h
        exact ih rfl

/-- A job of the scheduled queue that has ended stays there until it is retired. -/
theorem JmMove.finished_mem {s s' : JmState} {es : List JmEvent} {job : AipuJob}
    (hnodup : s.jm.IdsNodup) (h : JmMove s es s') (hjob : job ∈ s.jm.scheduledQueue)
    (hstate : job.state = .finished) (hes : ∀ e ∈ es, e.retires ≠ some job.id) :
    job ∈ s'.jm.scheduledQueue := by
  cases h with
  | control hjm => rwa [hjm]
  | note => exact hjob
  | enqueue => exact hjob
  | trigger => exact List.mem_append_left _ hjob
  | @finish c flag hqueue hsched =>
    rw [hqueue, Cursor.mem_toList] at hjob
    rcases hjob with hjob | rfl | hjob
    · exact List.mem_append_left _ hjob
    · rw [hstate] at hsched
      cases hsched
    · exact List.mem_append_right _ (List.mem_cons_of_mem _ hjob)
  | @invalidate job' hjob' hsched =>
    have hne : job.id ≠ job'.id := by
      intro heq
      rw [← eq_of_id_eq hnodup.sched hjob hjob' heq, hstate] at hsched
      cases hsched
    exact List.mem_map.mpr ⟨job, hjob, if_neg hne⟩
  | @remove job' hjob' =>
    have hne : job.id ≠ job'.id := by
      intro heq
      exact hnodup.sched_not_pending hjob (heq ▸ mem_jobIds hjob')
    exact List.mem_filter.mpr ⟨hjob, by simpa using hne⟩
  | @retire job' hjob' =>
    have hne : job.id ≠ job'.id := by
      intro heq
      exact hes (.retired job'.id) (by simp) (by simp [JmEvent.retires, heq])
    exact List.mem_filter.mpr ⟨hjob, by simpa using hne⟩

/-- A job of the scheduled queue that has ended stays there in moves that do not retire it. -/
theorem JmMoves.finished_mem {max : ℤ} {tr : List JmEvent} {s s' : JmState} {es : List JmEvent}
    {job : AipuJob} (hinv : JobQueueInv max tr s) (h : JmMoves s es s')
    (hjob : job ∈ s.jm.scheduledQueue) (hstate : job.state = .finished)
    (hes : ∀ e ∈ es, e.retires ≠ some job.id) : job ∈ s'.jm.scheduledQueue := by
  induction h with
  | refl => exact hjob
  | tail hmoves hmove ih =>
    obtain ⟨hes₁, hes₂⟩ := List.forall_mem_append.mp hes
    exact hmove.finished_mem (hinv.moves hmoves).nodup (ih hes₁) hstate hes₂

/-! ## Steps and runs -/

section Steps

variable {max : ℤ} {tr : List JmEvent} {s s' : JmState} {a : JmAction} {es : List JmEvent}

/-- The work is queued by an upper half that has not queued it yet. -/
theorem jmStep_queueWork_cases (h : jmStep s .queueWork = some (s', es)) :
    s.handlers ≠ 0 ∧ s' = { s with handlers := s.handlers - 1, workPending := true } ∧ es = [] := by
  simp only [jmStep] at h
  split at h
  case isTrue => cases h
  case isFalse hhandlers =>
    obtain ⟨rfl, rfl⟩ := Prod.mk.inj (Option.some.inj h)
    exact ⟨hhandlers, rfl, rfl⟩

/-- A bottom half that starts scans the scheduled queue from its head. -/
theorem jmStep_bhStart_cases (h : jmStep s .bhStart = some (s', es)) :
    s.bh = .rest ∧ s.workPending = true ∧
      s' = { s with
        jm := { s.jm with scheduledQueue := (bottomHalfScan s.jm.scheduledQueue).1 }
        bh := (bottomHalfScan s.jm.scheduledQueue).2.1
        workPending := false } ∧
      es = (bottomHalfScan s.jm.scheduledQueue).2.2 := by
  simp only [jmStep] at h
  split at h
  case h_2 => cases h
  case h_1 hrest =>
    split at h
    case isFalse => cases h
    case isTrue hwork =>
      obtain ⟨rfl, rfl⟩ := Prod.mk.inj (Option.some.inj h)
      exact ⟨hrest, hwork, rfl, rfl⟩

/-- A bottom half that reports a job was about to. -/
theorem jmStep_bhDone_cases (h : jmStep s .bhDone = some (s', es)) :
    ∃ curr next, s.bh = .calling curr next ∧ s' = { s with bh := .returned curr next } ∧
      es = [.readSession curr.session, .readSessionJob curr.sessionJob] := by
  simp only [jmStep] at h
  split at h
  case h_2 => cases h
  case h_1 curr next hcalling =>
    obtain ⟨rfl, rfl⟩ := Prod.mk.inj (Option.some.inj h)
    exact ⟨curr, next, hcalling, rfl, rfl⟩

/-- A bottom half that takes the lock again retires the job it has reported and goes on at the
cursor it has saved. -/
theorem jmStep_bhResume_cases (h : jmStep s .bhResume = some (s', es)) :
    ∃ curr next, s.bh = .returned curr next ∧
      s' = { s with
        jm := (bottomHalfFrom (s.jm.listDel curr.id) next).1
        bh := (bottomHalfFrom (s.jm.listDel curr.id) next).2.1 } ∧
      es = .retired curr.id :: (bottomHalfFrom (s.jm.listDel curr.id) next).2.2 := by
  simp only [jmStep] at h
  split at h
  case h_2 => cases h
  case h_1 curr next hreturned =>
    obtain ⟨rfl, rfl⟩ := Prod.mk.inj (Option.some.inj h)
    exact ⟨curr, next, hreturned, rfl, rfl⟩

/-- Pending and scheduled jobs are queued in the queue of their state. -/
theorem JobQueueInv.queued (h : JobQueueInv max tr s) :
    (∀ j ∈ s.jm.pendingQueue, s.jm.Queued j) ∧ ∀ j ∈ s.jm.scheduledQueue, s.jm.Queued j :=
  ⟨fun j hj => .inl ⟨hj, h.pendingState j hj⟩, fun j hj => .inr ⟨hj, h.schedState j hj⟩⟩

/-- The kill of a timed-out job is at most one move. -/
theorem aipuInvalidateTimeoutJob_moves {mem : SessionMem} {tid ret : ℤ}
    {jobId : ℕ} {jm : AipuJobManager} (hinv : JobQueueInv max tr s)
    (h : aipuInvalidateTimeoutJob mem tid jobId s.jm = (ret, jm, es)) :
    JmMoves s es { s with jm := jm } := by
  obtain ⟨hpending, hsched⟩ := hinv.queued
  unfold aipuInvalidateTimeoutJob at h
  cases hfirst : aipuInvalidateTimeoutJobNoLock mem s.jm s.jm.pendingQueue tid jobId with
  | mk ret₁ r =>
  obtain ⟨jm₁, es₁⟩ := r
  have hmoves₁ := aipuInvalidateTimeoutJobNoLock_moves hinv.noReset hinv.nodup hpending hfirst
  simp only [hfirst] at h
  split at h
  · simp only [Prod.mk.injEq] at h
    obtain ⟨-, rfl, rfl⟩ := h
    have hinv₁ := hinv.moves hmoves₁
    exact hmoves₁.trans (aipuInvalidateTimeoutJobNoLock_moves (s := { s with jm := jm₁ })
      hinv₁.noReset hinv₁.nodup hinv₁.queued.2 rfl)
  · simp only [Prod.mk.injEq] at h
    obtain ⟨-, rfl, rfl⟩ := h
    exact hmoves₁

/-- The cancel of a session's jobs is a sequence of moves. -/
theorem aipuJobManagerCancelSessionJobs_moves {mem : SessionMem} {session : ℕ}
    {jm : AipuJobManager} (hinv : JobQueueInv max tr s)
    (h : aipuJobManagerCancelSessionJobs mem session s.jm = (jm, es)) :
    JmMoves s es { s with jm := jm } := by
  unfold aipuJobManagerCancelSessionJobs at h
  dsimp only at h
  cases hfirst : aipuInvalidateCanceledJobsNoLock mem session AipuJobManager.pendingQueue
      (s.jm.pendingQueue.length + s.jm.scheduledQueue.length) s.jm.pendingQueue s.jm with
  | mk jm₁ es₁ =>
  simp only [hfirst] at h
  obtain ⟨rfl, rfl⟩ := Prod.mk.inj h
  have hmoves₁ := aipuInvalidateCanceledJobsNoLock_moves (.inl rfl) hinv.noReset
    hinv.nodup.pending hinv.queued.1 hinv.nodup hfirst
  have hinv₁ := hinv.moves hmoves₁
  exact hmoves₁.trans (aipuInvalidateCanceledJobsNoLock_moves (s := { s with jm := jm₁ })
    (.inr rfl) hinv₁.noReset hinv₁.nodup.sched hinv₁.queued.2 hinv₁.nodup rfl)

/-- Moves that retire no job keep the invariant of the bottom half. -/
theorem JmState.BhInv.of_moves {jm : AipuJobManager} {n : ℕ} (hinv : JobQueueInv max tr s)
    (hbh : s.BhInv) (hmoves : JmMoves s es { s with jm := jm, nextJob := n })
    (hes : ∀ e ∈ es, e.retires = none) (handlers : ℕ) (work : Bool) :
    JmState.BhInv { s with jm := jm, nextJob := n, handlers := handlers, workPending := work } := by
  intro curr hcurr
  obtain ⟨hmem, hstate, hvalid⟩ := hbh curr hcurr
  have hkept : curr ∈ jm.scheduledQueue := by
    refine hmoves.finished_mem hinv hmem hstate ?_
    intro e he
    simp [hes e he]
  exact ⟨hkept, hstate, hvalid⟩

/-- Every step is a sequence of moves, and it keeps the invariant of the bottom half. -/
theorem jmStep_moves (hinv : JobQueueInv max tr s) (hbh : s.BhInv)
    (h : jmStep s a = some (s', es)) : JmMoves s es s' ∧ s'.BhInv := by
  cases a with
  | submit mem sub =>
    cases hsub : aipuJobManagerScheduleNewJob mem s.nextJob sub s.jm with
    | mk jm es₁ =>
    simp only [jmStep, hsub] at h
    obtain ⟨rfl, rfl⟩ := Prod.mk.inj (Option.some.inj h)
    have hmoves := aipuJobManagerScheduleNewJob_moves hsub
    refine ⟨hmoves, hbh.of_moves hinv hmoves (fun e he => ?_) _ _⟩
    exact (aipuJobManagerScheduleNewJob_events hsub e he).1
  | upperHalf mem flag =>
    cases hirq : aipuJobManagerUpdateJobStateIrq mem flag s.jm with
    | mk jm es₁ =>
    simp only [jmStep, hirq] at h
    obtain ⟨rfl, rfl⟩ := Prod.mk.inj (Option.some.inj h)
    have hmoves := aipuJobManagerUpdateJobStateIrq_moves hirq
    refine ⟨hmoves.control rfl rfl, hbh.of_moves hinv hmoves (fun e he => ?_) _ _⟩
    exact (aipuJobManagerUpdateJobStateIrq_events hirq e he).1
  | queueWork =>
    obtain ⟨-, rfl, rfl⟩ := jmStep_queueWork_cases h
    exact ⟨JmMoves.refl.control rfl rfl, hbh⟩
  | bhStart =>
    obtain ⟨-, -, rfl, rfl⟩ := jmStep_bhStart_cases h
    have hscan : bottomHalfScan s.jm.scheduledQueue = (_, _, _) := rfl
    have hqueue : s.jm.scheduledQueue = [] ++ s.jm.scheduledQueue := rfl
    have hmoves := bottomHalfScan_moves hinv.nodup hqueue hscan
    exact ⟨hmoves.control rfl rfl, fun curr hcurr => bottomHalfScan_curr hscan hcurr⟩
  | bhDone =>
    obtain ⟨curr, next, hcalling, rfl, rfl⟩ := jmStep_bhDone_cases h
    have hnotes : JmMoves s [.readSession curr.session, .readSessionJob curr.sessionJob] s :=
      .notes (by simp [JmEvent.isNote])
    refine ⟨hnotes.control rfl rfl, ?_⟩
    intro curr' hcurr'
    refine hbh curr' ?_
    rw [hcalling]
    exact hcurr'
  | bhResume =>
    obtain ⟨curr, next, hreturned, rfl, rfl⟩ := jmStep_bhResume_cases h
    obtain ⟨hmem, hstate, -⟩ := hbh curr (by rw [hreturned]; rfl)
    have hretire := (JmMove.retire hmem hstate).moves
    have hloop := bottomHalfFrom_moves (s := { s with jm := s.jm.listDel curr.id })
      (hinv.nodup.listDel curr.id) (rfl : bottomHalfFrom _ next = (_, _, _))
    refine ⟨(hretire.trans hloop).control rfl rfl, fun curr' hcurr' => ?_⟩
    cases next with
    | none => cases hcurr'
    | some pos =>
      obtain ⟨hqueue, hrest⟩ := bottomHalfScan_curr rfl hcurr'
      exact ⟨List.mem_append_right _ hqueue, hrest⟩
  | kill mem tid jobId =>
    cases hkill : aipuInvalidateTimeoutJob mem tid jobId s.jm with
    | mk ret r =>
    obtain ⟨jm, es₁⟩ := r
    simp only [jmStep, hkill] at h
    obtain ⟨rfl, rfl⟩ := Prod.mk.inj (Option.some.inj h)
    have hmoves := aipuInvalidateTimeoutJob_moves hinv hkill
    exact ⟨hmoves.trans (JmMove.note rfl).moves,
      hbh.of_moves hinv hmoves (aipuInvalidateTimeoutJob_events hkill) _ _⟩
  | cancel mem session =>
    cases hcancel : aipuJobManagerCancelSessionJobs mem session s.jm with
    | mk jm es₁ =>
    simp only [jmStep, hcancel] at h
    obtain ⟨rfl, rfl⟩ := Prod.mk.inj (Option.some.inj h)
    have hmoves := aipuJobManagerCancelSessionJobs_moves hinv hcancel
    exact ⟨hmoves, hbh.of_moves hinv hmoves (aipuJobManagerCancelSessionJobs_events hcancel) _ _⟩

end Steps

/-- The invariants of the queues and of the bottom half hold in every run. -/
theorem jmSystem_inv {max : ℤ} (hmax : 0 ≤ max) {C : JmState → JmAction → Prop}
    {tr : List JmEvent} {s : JmState} (h : (jmSystem max false).Run C tr s) :
    JobQueueInv max tr s ∧ s.BhInv := by
  refine h.invariant (I := fun tr s => JobQueueInv max tr s ∧ s.BhInv) ?_ ?_
  · rintro s ⟨idle, rfl⟩
    refine ⟨.init hmax idle, ?_⟩
    intro curr hcurr
    cases hcurr
  · rintro tr s a s' es ⟨hinv, hbh⟩ - hst
    obtain ⟨hmoves, hbh'⟩ := jmStep_moves hinv hbh hst
    exact ⟨hinv.moves hmoves, hbh'⟩

/-- A kill or a cancel. -/
def JmAction.removesJobs : JmAction → Bool
  | .kill .. | .cancel .. => true
  | _ => false

/-- Only a kill or a cancel removes jobs. -/
theorem jmStep_removes {s s' : JmState} {a : JmAction} {es : List JmEvent}
    (h : jmStep s a = some (s', es)) (hes : removedJobs es ≠ []) : a.removesJobs = true := by
  have hnone : (∀ e ∈ es, e.removes = none) → removedJobs es = [] :=
    List.filterMap_eq_nil_iff.mpr
  cases a with
  | kill | cancel => rfl
  | submit mem sub =>
    cases hsub : aipuJobManagerScheduleNewJob mem s.nextJob sub s.jm with
    | mk jm es₁ =>
    simp only [jmStep, hsub] at h
    obtain ⟨-, rfl⟩ := Prod.mk.inj (Option.some.inj h)
    exact absurd (hnone fun e he => (aipuJobManagerScheduleNewJob_events hsub e he).2) hes
  | upperHalf mem flag =>
    cases hirq : aipuJobManagerUpdateJobStateIrq mem flag s.jm with
    | mk jm es₁ =>
    simp only [jmStep, hirq] at h
    obtain ⟨-, rfl⟩ := Prod.mk.inj (Option.some.inj h)
    exact absurd (hnone fun e he => (aipuJobManagerUpdateJobStateIrq_events hirq e he).2) hes
  | queueWork =>
    obtain ⟨-, -, rfl⟩ := jmStep_queueWork_cases h
    exact absurd rfl hes
  | bhStart =>
    obtain ⟨-, -, -, rfl⟩ := jmStep_bhStart_cases h
    exact absurd (hnone bottomHalfScan_events) hes
  | bhDone =>
    obtain ⟨curr, next, -, -, rfl⟩ := jmStep_bhDone_cases h
    exact absurd rfl hes
  | bhResume =>
    obtain ⟨curr, next, -, -, rfl⟩ := jmStep_bhResume_cases h
    refine absurd (hnone (List.forall_mem_cons.mpr ⟨rfl, ?_⟩)) hes
    cases next with
    | none => simp [bottomHalfFrom]
    | some pos => exact bottomHalfScan_events

/-- **The job queues.**  In every run of the job manager on a platform without logic reset: a
submitted job that was neither removed nor retired is in exactly one of the two queues; pending jobs
have the state PENDING, scheduled ones SCHED or END; the counter is the number of SCHED jobs and
stays in its bounds; jobs are triggered at most once and in the order of their submission; and a job
that is neither pending nor was ever triggered was removed, which only a kill or a cancel does. -/
theorem job_queues {max : ℤ} (hmax : 1 ≤ max) {tr : List JmEvent} {s : JmState}
    (h : (jmSystem max false).Run anyStep tr s) :
    (∀ i ∈ submittedJobs tr, i ∉ removedJobs tr → i ∉ retiredJobs tr →
      (i ∈ jobIds s.jm.pendingQueue ∧ i ∉ jobIds s.jm.scheduledQueue) ∨
        (i ∉ jobIds s.jm.pendingQueue ∧ i ∈ jobIds s.jm.scheduledQueue)) ∧
    (jobIds s.jm.pendingQueue).Nodup ∧ (jobIds s.jm.scheduledQueue).Nodup ∧
    (∀ j ∈ s.jm.pendingQueue, j.state = .pending) ∧
    (∀ j ∈ s.jm.scheduledQueue, j.state = .sched ∨ j.state = .finished) ∧
    s.jm.schedNum = (s.jm.scheduledQueue.countP fun j => j.state = .sched) ∧
    0 ≤ s.jm.schedNum ∧ s.jm.schedNum ≤ max ∧
    (triggeredJobs tr).Nodup ∧ (triggeredJobs tr).Sublist (submittedJobs tr) ∧
    (∀ i ∈ submittedJobs tr, i ∉ jobIds s.jm.pendingQueue → i ∉ triggeredJobs tr →
      i ∈ removedJobs tr) ∧
    (∀ a s' es, (jmSystem max false).step s a = some (s', es) → removedJobs es ≠ [] →
      a.removesJobs = true) := by
  obtain ⟨hinv, -⟩ := jmSystem_inv (Int.le_of_lt hmax) h
  have hsub := hinv.submitted
  have hplace : ∀ i ∈ submittedJobs tr, i ∈ jobIds s.jm.pendingQueue ∨
      i ∈ jobIds s.jm.scheduledQueue ∨ i ∈ removedJobs tr ∨ i ∈ retiredJobs tr := by
    intro i hi
    rw [hsub] at hi
    simpa [or_assoc] using hinv.partition.mem_iff.mp hi
  have hfifo := hinv.fifo
  rw [← hsub] at hfifo
  have htrig : (triggeredJobs tr).Sublist (submittedJobs tr) :=
    (List.sublist_append_left _ _).trans hfifo
  refine ⟨?_, hinv.nodup.pending, hinv.nodup.sched, hinv.pendingState, hinv.schedState,
    hinv.schedNum, ?_, hinv.schedNum_le, ?_, htrig, ?_, fun a s' es hst => jmStep_removes hst⟩
  · intro i hi hrem hret
    rcases hplace i hi with hp | hs | hr | hr
    · obtain ⟨j, hj, rfl⟩ := List.mem_map.mp hp
      exact .inl ⟨hp, hinv.nodup.pending_not_sched hj⟩
    · obtain ⟨j, hj, rfl⟩ := List.mem_map.mp hs
      exact .inr ⟨hinv.nodup.sched_not_pending hj, hs⟩
    · exact absurd hr hrem
    · exact absurd hr hret
  · rw [hinv.schedNum]
    exact Int.natCast_nonneg _
  · exact htrig.nodup (hsub ▸ List.nodup_range)
  · intro i hi hp ht
    have hnot : ∀ i, i ∈ jobIds s.jm.scheduledQueue ∨ i ∈ retiredJobs tr → i ∈ triggeredJobs tr :=
      fun i hi => hinv.triggered.mem_iff.mpr (List.mem_append.mpr hi)
    rcases hplace i hi with h' | h' | h' | h'
    · exact absurd h' hp
    · exact absurd (hnot i (.inl h')) ht
    · exact h'
    · exact absurd (hnot i (.inr h')) ht

/-- Session memory in which every read returns the same. -/
def sampleMem : SessionMem := { userPid := fun _ => 7, enableProf := fun _ => 0 }

/-- Three jobs: the first one ends and is retired, the second one is killed while it is pending,
the third one is running. -/
theorem job_queues_sample :
    ∃ tr s, (jmSystem 1 false).Run anyStep tr s ∧ triggeredJobs tr = [0, 2] ∧ removedJobs tr = [1] ∧
      jobIds s.jm.scheduledQueue = [2] ∧ (triggeredJobs tr).Sublist (submittedJobs tr) := by
  obtain ⟨tr, s, hexec, htrig, hrem, hsched⟩ : ∃ tr s, (jmSystem 1 false).exec anyStep
      (.initial 1 false [])
      [.submit sampleMem ⟨7, { jobId := 1 }, 0, 0⟩,
        .submit sampleMem ⟨7, { jobId := 2 }, 0, 1⟩,
        .submit sampleMem ⟨7, { jobId := 3 }, 0, 2⟩,
        .kill sampleMem 7 2, .upperHalf sampleMem 0, .queueWork, .bhStart, .bhDone,
        .bhResume] = some (s, tr) ∧
      triggeredJobs tr = [0, 2] ∧ removedJobs tr = [1] ∧ jobIds s.jm.scheduledQueue = [2] :=
    ⟨_, _, rfl, rfl, rfl, rfl⟩
  have hrun : (jmSystem 1 false).Run anyStep tr s := System.run_of_exec ⟨[], rfl⟩ hexec
  have hfifo := (job_queues (by decide) hrun).2.2.2.2.2.2.2.2.2.1
  exact ⟨tr, s, hrun, htrig, hrem, hsched, hfifo⟩

end Aipu
