import AipuDriver.Lib.FifoServer
import AipuDriver.Lib.Simulation
import AipuDriver.Kmd.KillFinal
import AipuDriver.Kmd.UpperHalf

/-!
# The job manager is a server with a waiting line

Seen from outside, the job manager is the server of `Lib.FifoServer`: the pending jobs wait, the
SCHED ones run, a job is withdrawn when a kill or a cancel takes it off the pending queue, and an
interrupt finishes the job that has run longest.  What the interrupt handlers, the bottom half and
the sessions do besides is not seen.  `JmMoves.server` matches the moves of a step, and
`kmdSimulation` the runs of the driver as a whole, since these are runs of the job manager.
-/

namespace Aipu

open FifoServer ListSearch Transition

/-- The job manager as a server: the pending jobs and the SCHED ones. -/
def AipuJobManager.server (jm : AipuJobManager) : Server ℕ := ⟨jobIds jm.pendingQueue, jm.schedJobs⟩

/-- What is seen of an event. -/
def JmEvent.server : JmEvent → Option (ServerEvent ℕ)
  | .submitted i => some (.submitted i)
  | .triggered i => some (.started i)
  | .ended i _ _ _ => some (.finished i)
  | .removed i => some (.withdrawn i)
  | _ => none

/-- What is seen of the events of the job manager in a trace. -/
def serverEvents (tr : List JmEvent) : List (ServerEvent ℕ) := tr.filterMap JmEvent.server

@[simp] theorem serverEvents_append (tr tr' : List JmEvent) :
    serverEvents (tr ++ tr') = serverEvents tr ++ serverEvents tr' := List.filterMap_append

/-- The submissions of the server are those of the job manager. -/
theorem submissions_serverEvents (tr : List JmEvent) :
    submissions (serverEvents tr) = submittedJobs tr := by
  rw [submissions, serverEvents, List.filterMap_filterMap]
  refine List.filterMap_congr fun e _ => ?_
  cases e <;> rfl

/-- The server starts the jobs that are triggered. -/
theorem starts_serverEvents (tr : List JmEvent) : starts (serverEvents tr) = triggeredJobs tr := by
  rw [starts, serverEvents, List.filterMap_filterMap]
  refine List.filterMap_congr fun e _ => ?_
  cases e <;> rfl

/-- The server finishes the jobs that end. -/
theorem finishes_serverEvents (tr : List JmEvent) : finishes (serverEvents tr) = endedJobs tr := by
  rw [finishes, serverEvents, List.filterMap_filterMap]
  refine List.filterMap_congr fun e _ => ?_
  cases e <;> rfl

/-- The jobs withdrawn from the server are those that are removed. -/
theorem withdrawals_serverEvents (tr : List JmEvent) :
    withdrawals (serverEvents tr) = removedJobs tr := by
  rw [withdrawals, serverEvents, List.filterMap_filterMap]
  refine List.filterMap_congr fun e _ => ?_
  cases e <;> rfl

/-! ## Moves -/

/-- A server that runs at most `max` jobs. -/
def jobServer (max : ℤ) : System (Server ℕ) (ServerAction ℕ) (ServerEvent ℕ) :=
  serverSystem ℕ max.toNat

/-- Taking a job off a queue takes its address off the addresses. -/
theorem jobIds_filter_ne {l : List AipuJob} {job : AipuJob} (hnodup : (jobIds l).Nodup) :
    jobIds (l.filter fun j => j.id ≠ job.id) = (jobIds l).erase job.id := by
  rw [hnodup.erase_eq_filter, jobIds, jobIds, List.filter_map]
  congr 1
  refine List.filter_congr fun j _ => ?_
  by_cases h : j.id = job.id <;> simp [h]

section Moves

variable {max : ℤ} {tr : List JmEvent} {s s' : JmState} {es : List JmEvent}

/-- The counter is the number of the SCHED jobs. -/
theorem JobQueueInv.length_schedJobs (hinv : JobQueueInv max tr s) :
    (s.jm.schedJobs.length : ℤ) = s.jm.schedNum := by
  rw [hinv.schedNum, AipuJobManager.schedJobs, jobIds, List.length_map,
    List.countP_eq_length_filter]

/-- Where the scheduled queue is cut at a SCHED job. -/
theorem schedJobs_at {jm : AipuJobManager} {c : Cursor AipuJob}
    (hqueue : jm.scheduledQueue = c.toList) (hstate : c.entry.state = .sched) :
    jm.schedJobs = jobIds (c.before.filter fun j => j.state = .sched) ++
      c.entry.id :: jobIds (c.after.filter fun j => j.state = .sched) := by
  rw [AipuJobManager.schedJobs, hqueue, Cursor.toList, List.filter_append,
    List.filter_cons_of_pos (by simpa using hstate), jobIds_append, jobIds_cons]

/-- When the address of a SCHED job is the first one, no SCHED job stands before it. -/
theorem filter_before_eq_nil {jm : AipuJobManager} {c : Cursor AipuJob}
    (hnodup : (jobIds jm.scheduledQueue).Nodup) (hqueue : jm.scheduledQueue = c.toList)
    (hstate : c.entry.state = .sched) (hfirst : [c.entry.id] <+: jm.schedJobs) :
    c.before.filter (fun j => j.state = .sched) = [] := by
  rw [schedJobs_at hqueue hstate] at hfirst
  cases hbefore : c.before.filter fun j => j.state = .sched with
  | nil => rfl
  | cons b bs =>
    rw [hbefore, jobIds_cons, List.cons_append] at hfirst
    have hb : b ∈ c.before := List.mem_of_mem_filter (hbefore ▸ List.mem_cons_self)
    rw [hqueue, Cursor.toList, jobIds_append, jobIds_cons] at hnodup
    have hne := (List.nodup_append.mp hnodup).2.2 b.id (mem_jobIds hb) c.entry.id List.mem_cons_self
    exact absurd (List.cons_prefix_cons.mp hfirst).1.symm hne

/-- A move is matched by steps of the server, if it ends the first of the SCHED jobs. -/
theorem JmMove.server (hinv : JobQueueInv max tr s) (h : JmMove s es s')
    (hended : endedJobs es <+: s.jm.schedJobs) :
    (jobServer max).Steps anyStep s.jm.server (serverEvents es) s'.jm.server := by
  -- a move that is not seen leaves the server as it is
  have hunseen : ∀ {e : JmEvent} {jm : AipuJobManager}, e.server = none →
      jm.server = s.jm.server →
      (jobServer max).Steps anyStep s.jm.server (serverEvents [e]) jm.server := by
    intro e jm he hsame
    have hnone : serverEvents [e] = [] := by simp [serverEvents, he]
    rw [hnone, hsame]
    exact .refl
  cases h with
  | control hjm =>
    have hsame : s'.jm.server = s.jm.server := by
      rw [hjm]
      rfl
    rw [hsame]
    exact .refl
  | @note e he =>
    refine hunseen ?_ rfl
    cases e <;> simp_all [JmEvent.isNote, JmEvent.server]
  | enqueue sub =>
    refine .one (a := .submit s.nextJob) trivial ?_
    simp [jobServer, serverSystem, serverStep, serverEvents, JmEvent.server,
      AipuJobManager.server, AipuJobManager.schedJobs, initAipuJob]
  | @trigger curr rest hpending hmax =>
    have hroom : s.jm.schedJobs.length < max.toNat := by
      have := hinv.length_schedJobs
      rw [hinv.maxSchedNum] at hmax
      omega
    refine .one (a := .start) trivial ?_
    simp only [jobServer, serverSystem, serverStep, AipuJobManager.server, hpending, jobIds_cons,
      hroom, if_true]
    simp [serverEvents, JmEvent.server, AipuJobManager.schedJobs]
  | @finish c flag hqueue hstate =>
    have hnone := filter_before_eq_nil hinv.nodup.sched hqueue hstate hended
    have hjobs := schedJobs_at hqueue hstate
    rw [hnone] at hjobs
    refine .one (a := .finish) trivial ?_
    simp only [jobServer, serverSystem, serverStep, AipuJobManager.server, hjobs, jobIds_nil,
      List.nil_append]
    simp [serverEvents, JmEvent.server, AipuJobManager.schedJobs, hnone]
  | @invalidate job hjob hstate =>
    refine hunseen rfl ?_
    rw [hinv.nodup.clearValid_sched hjob, AipuJobManager.server, AipuJobManager.server]
    congr 1
    rw [AipuJobManager.schedJobs, AipuJobManager.schedJobs, List.filter_map, jobIds, List.map_map]
    have hfilter : (fun j : AipuJob => decide (j.state = .sched)) ∘
        (fun j => if j.id = job.id then { j with validFlag := false } else j) =
        fun j => decide (j.state = .sched) := by
      funext j
      simp only [Function.comp]
      split <;> rfl
    rw [hfilter]
    refine List.map_congr_left fun j _ => ?_
    simp only [Function.comp]
    split <;> rfl
  | @remove job hjob =>
    refine .one (a := .withdraw job.id) trivial ?_
    simp only [jobServer, serverSystem, serverStep, AipuJobManager.server, mem_jobIds hjob, if_true]
    rw [hinv.nodup.listDel_pending hjob, ← jobIds_filter_ne hinv.nodup.pending]
    rfl
  | @retire job hjob hstate =>
    refine hunseen rfl ?_
    rw [hinv.nodup.listDel_sched hjob, AipuJobManager.server, AipuJobManager.server]
    congr 1
    rw [AipuJobManager.schedJobs, AipuJobManager.schedJobs, List.filter_filter]
    congr 1
    refine List.filter_congr fun j hj => ?_
    -- the job taken off the queue is not a SCHED one
    have hne : j.state = .sched → j.id ≠ job.id := by
      intro hsched heq
      rw [eq_of_id_eq hinv.nodup.sched hj hjob heq, hstate] at hsched
      cases hsched
    simpa using hne

/-- Moves are matched by steps of the server, if the jobs that they end are the first ones of those
that were SCHED. -/
theorem JmMoves.server (hinv : JobQueueInv max tr s) (h : JmMoves s es s')
    (hended : endedJobs es <+: s.jm.schedJobs) :
    (jobServer max).Steps anyStep s.jm.server (serverEvents es) s'.jm.server := by
  induction h with
  | refl => exact .refl
  | @tail s₁ s₂ es es' hmoves hmove ih =>
    rw [endedJobs_append] at hended
    have hsteps := ih ((List.prefix_append _ _).trans hended)
    rw [serverEvents_append]
    refine hsteps.trans (hmove.server (hinv.moves hmoves) ?_)
    -- what has ended so far was running first
    have hrunning := steps_running hsteps
    rw [starts_serverEvents, finishes_serverEvents] at hrunning
    have hprefix : endedJobs es ++ endedJobs es' <+: s.jm.schedJobs ++ triggeredJobs es :=
      hended.trans (List.prefix_append _ _)
    exact (List.prefix_append_right_inj _).mp (hrunning ▸ hprefix)

end Moves

/-! ## Steps -/

section Ends

variable {mem : SessionMem} {jm : AipuJobManager}

/-- Invalidating a job ends none. -/
theorem aipuInvalidateJobNoLock_ends {job : AipuJob} :
    endedJobs (aipuInvalidateJobNoLock mem jm job).2.2 = [] := by
  unfold aipuInvalidateJobNoLock
  split
  · split
    · exact (aipuSchedulePendingJobNoLock_schedJobs mem _).1
    · rfl
  · rfl
  · rfl
  · rfl

/-- The cancel loop ends no job. -/
theorem aipuInvalidateCanceledJobsNoLock_ends {session n : ℕ}
    {head : AipuJobManager → List AipuJob} {queue : List AipuJob} :
    endedJobs (aipuInvalidateCanceledJobsNoLock mem session head n queue jm).2 = [] := by
  have hone : ∀ jm cursor, endedJobs (invalidateIfCanceled mem session jm cursor).2 = [] := by
    intro jm cursor
    unfold invalidateIfCanceled
    dsimp only
    split
    · rw [endedJobs_append, aipuInvalidateJobNoLock_ends]
      rfl
    · rfl
  induction n generalizing queue jm with
  | zero => rfl
  | succ n ih =>
    cases queue with
    | nil => rfl
    | cons cursor rest =>
      rw [aipuInvalidateCanceledJobsNoLock, endedJobs_append, hone, ih]
      rfl

/-- The scan of the bottom half ends no job. -/
theorem bottomHalfScan_ends {queue : List AipuJob} : endedJobs (bottomHalfScan queue).2.2 = [] := by
  induction queue with
  | nil => rfl
  | cons curr rest ih =>
    unfold bottomHalfScan
    split
    · exact ih
    · split
      · rfl
      · exact ih

end Ends

section Steps

variable {max : ℤ} {tr : List JmEvent} {s s' : JmState} {a : JmAction} {es : List JmEvent}

/-- A step ends at most the first of the SCHED jobs. -/
theorem jmStep_ended (hinv : JobQueueInv max tr s) (h : jmStep s a = some (s', es)) :
    endedJobs es <+: s.jm.schedJobs := by
  have hnone : endedJobs es = [] → endedJobs es <+: s.jm.schedJobs := by
    intro hes
    rw [hes]
    exact List.nil_prefix
  cases a with
  | submit mem sub =>
    obtain ⟨-, rfl⟩ := jmStep_submit_cases h
    exact hnone (aipuSchedulePendingJobNoLock_schedJobs mem _).1
  | upperHalf mem flag =>
    obtain ⟨-, rfl⟩ := Prod.mk.inj (Option.some.inj h)
    change endedJobs (aipuJobManagerUpdateJobStateIrq mem flag s.jm).2 <+: s.jm.schedJobs
    rw [(aipuJobManagerUpdateJobStateIrq_schedJobs mem flag s.jm).1]
    apply List.take_prefix
  | queueWork =>
    obtain ⟨-, -, rfl⟩ := jmStep_queueWork_cases h
    exact hnone rfl
  | bhStart =>
    obtain ⟨-, -, -, rfl⟩ := jmStep_bhStart_cases h
    exact hnone bottomHalfScan_ends
  | bhDone =>
    obtain ⟨curr, next, -, -, rfl⟩ := jmStep_bhDone_cases h
    exact hnone rfl
  | bhResume =>
    obtain ⟨curr, next, -, -, rfl⟩ := jmStep_bhResume_cases h
    refine hnone ?_
    cases next with
    | none => rfl
    | some pos => exact bottomHalfScan_ends
  | kill mem tid jobId =>
    obtain ⟨c, -, -, rfl⟩ | ⟨-, ⟨c, -, -, -, rfl⟩ | ⟨-, -, rfl⟩⟩ := jmStep_kill_cases hinv h <;>
      exact hnone rfl
  | cancel mem session =>
    obtain ⟨-, rfl⟩ := Prod.mk.inj (Option.some.inj h)
    refine hnone ?_
    rw [endedJobs_append, aipuInvalidateCanceledJobsNoLock_ends,
      aipuInvalidateCanceledJobsNoLock_ends]
    rfl

/-- A step of the job manager is matched by steps of the server. -/
theorem jmStep_server (hinv : JobQueueInv max tr s) (hbh : s.BhInv)
    (h : jmStep s a = some (s', es)) :
    (jobServer max).Steps anyStep s.jm.server (serverEvents es) s'.jm.server :=
  (jmStep_moves hinv hbh h).1.server hinv (jmStep_ended hinv h)

end Steps

/-! ## Runs of the driver -/

/-- What is seen of an event of the driver. -/
def KmdEvent.server (e : KmdEvent) : Option (ServerEvent ℕ) := e.jm.bind JmEvent.server

/-- What is seen of a trace of the driver. -/
theorem filterMap_kmdServer (tr : List KmdEvent) :
    tr.filterMap KmdEvent.server = serverEvents (tr.filterMap KmdEvent.jm) := by
  rw [serverEvents, List.filterMap_filterMap]
  rfl

/-- The driver is simulated by the server. -/
def kmdSimulation (version : AipuVersion) (map : MemoryMap) {max : ℤ} (hmax : 0 ≤ max) :
    Simulation (kmdSystem version map max) (jobServer max) anyStep anyStep KmdEvent.server where
  rel tr k t := JobQueueInv max (tr.filterMap KmdEvent.jm) k.js ∧ k.js.BhInv ∧ t = k.js.jm.server
  init := by
    rintro k ⟨-, ⟨idle, hjs⟩, -⟩
    rw [hjs]
    refine ⟨⟨[], []⟩, rfl, .init hmax idle, ?_, rfl⟩
    intro curr hcurr
    cases hcurr
  step := by
    rintro tr k t a k' es ⟨hinv, hbh, rfl⟩ - hst
    rw [filterMap_kmdServer, List.filterMap_append]
    rcases kmdStep_jm hst with ⟨-, hjs, hes, -⟩ | ⟨b, jes, -, hb, rfl, -⟩
    · rw [hjs, hes, List.append_nil]
      exact ⟨_, .refl, hinv, hbh, rfl⟩
    · obtain ⟨hmoves, hbh'⟩ := jmStep_moves hinv hbh hb
      exact ⟨_, jmStep_server hinv hbh hb, hinv.moves hmoves, hbh', rfl⟩

/-- **The driver is a server with a waiting line.**  Whatever the sessions, the hardware and the
bottom half do, what is seen of the jobs in a run of the driver is a run of the server: jobs are
taken in the order of their submission, at most `max` run at a time, the one that runs longest
finishes first, and only a waiting job is withdrawn. -/
theorem driver_refines_server (version : AipuVersion) (map : MemoryMap) {max : ℤ} (hmax : 1 ≤ max)
    {tr : List KmdEvent} {k : Kmd} (h : (kmdSystem version map max).Run anyStep tr k) :
    (jobServer max).Run anyStep (tr.filterMap KmdEvent.server) k.js.jm.server := by
  obtain ⟨t, hrun, -, -, rfl⟩ := (kmdSimulation version map (Int.le_of_lt hmax)).run h
  exact hrun

/-- Two jobs are submitted and the first one ends; the bottom half has not run yet. -/
theorem driver_refines_server_sample :
    ∃ tr k, (kmdSystem .zhouyiV2 sampleMap 1).Run anyStep tr k ∧
      tr.filterMap KmdEvent.server =
        [.submitted 0, .started 0, .submitted 1, .finished 0, .started 1] ∧
      (jobServer 1).Run anyStep (tr.filterMap KmdEvent.server) k.js.jm.server := by
  obtain ⟨k, tr, hexec, hseen⟩ : ∃ k tr,
      (kmdSystem .zhouyiV2 sampleMap 1).exec anyStep sampleKmd
        (oneRunningOnePending ++ [.upperHalf 0 sampleMem]) = some (k, tr) ∧
      tr.filterMap KmdEvent.server =
        [.submitted 0, .started 0, .submitted 1, .finished 0, .started 1] := ⟨_, _, rfl, rfl⟩
  have hrun := System.run_of_exec sampleKmd_init hexec
  exact ⟨tr, k, hrun, hseen, driver_refines_server .zhouyiV2 sampleMap (by decide) hrun⟩

/-- **Jobs end in order.**  In every run of the driver: the jobs triggered so far are those that
have ended and then the SCHED ones, so jobs end in the order in which they were triggered and each
of them once; they were triggered in the order of their submission, and the pending ones follow;
every submitted job has ended, is SCHED, is pending or was removed, and only one of these; and at
most `max` jobs are SCHED. -/
theorem driver_jobs_in_order (version : AipuVersion) (map : MemoryMap) {max : ℤ} (hmax : 1 ≤ max)
    {tr : List KmdEvent} {k : Kmd} (h : (kmdSystem version map max).Run anyStep tr k) :
    let jtr := tr.filterMap KmdEvent.jm
    triggeredJobs jtr = endedJobs jtr ++ k.js.jm.schedJobs ∧
      (triggeredJobs jtr ++ jobIds k.js.jm.pendingQueue).Sublist (submittedJobs jtr) ∧
      (submittedJobs jtr).Perm (endedJobs jtr ++ k.js.jm.schedJobs ++
        jobIds k.js.jm.pendingQueue ++ removedJobs jtr) ∧
      (endedJobs jtr ++ k.js.jm.schedJobs ++ jobIds k.js.jm.pendingQueue ++
        removedJobs jtr).Nodup ∧
      (k.js.jm.schedJobs.length : ℤ) ≤ max := by
  obtain ⟨t, hrun, hinv, -, rfl⟩ := (kmdSimulation version map (Int.le_of_lt hmax)).run h
  have hserver := serverSystem_inv hrun
  rw [filterMap_kmdServer] at hserver
  have hnodup := hserver.nodup (by
    rw [submissions_serverEvents, hinv.submitted]
    exact List.nodup_range)
  rw [finishes_serverEvents, withdrawals_serverEvents] at hnodup
  obtain ⟨horder, hrunning, hpart, hcap⟩ := hserver
  rw [starts_serverEvents, submissions_serverEvents] at horder
  rw [starts_serverEvents, finishes_serverEvents] at hrunning
  rw [starts_serverEvents, submissions_serverEvents, withdrawals_serverEvents, hrunning] at hpart
  refine ⟨hrunning, horder, hpart, hnodup, ?_⟩
  have : k.js.jm.schedJobs.length ≤ max.toNat := hcap
  omega

/-- Two jobs run at a time, and the first one ends. -/
theorem driver_jobs_in_order_sample :
    ∃ tr k, (kmdSystem .zhouyiV2 sampleMap 2).Run anyStep tr k ∧
      triggeredJobs (tr.filterMap KmdEvent.jm) = [0, 1] ∧
      triggeredJobs (tr.filterMap KmdEvent.jm) =
        endedJobs (tr.filterMap KmdEvent.jm) ++ k.js.jm.schedJobs := by
  obtain ⟨k, tr, hexec, htriggered⟩ : ∃ k tr,
      (kmdSystem .zhouyiV2 sampleMap 2).exec anyStep
        { sampleKmd with js := .initial 2 false [] }
        (oneRunningOnePending ++ [.upperHalf 0 sampleMem]) = some (k, tr) ∧
      triggeredJobs (tr.filterMap KmdEvent.jm) = [0, 1] := ⟨_, _, rfl, rfl⟩
  have hrun : (kmdSystem .zhouyiV2 sampleMap 2).Run anyStep tr k :=
    System.run_of_exec ⟨bringUp_sample, ⟨[], rfl⟩, rfl, rfl⟩ hexec
  exact ⟨tr, k, hrun, htriggered,
    (driver_jobs_in_order .zhouyiV2 sampleMap (by decide) hrun).1⟩

end Aipu
