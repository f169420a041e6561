import AipuDriver.Kmd.ExceptionReport
import AipuDriver.Kmd.SessionJobs

/-!
# A successful kill is final

A kill that returns zero has taken a pending job off its queue, or has cleared the valid flag of a
running one.  From then on no queued job that is valid refers to the session job, and none ever will
again: the number of a session job belongs to one RUNJOB call (`Kmd.Dead`).
-/

namespace Aipu

open ListSearch Transition

/-- No session has the session job as one that has ended. -/
def Kmd.NotEnded (k : Kmd) (sessionJob : ℕ) : Prop :=
  ∀ f ∈ k.files, ∀ sj ∈ f.session.jobList, sj.id = sessionJob → sj.state ≠ .finished

/-- The session job `sessionJob` can no longer end: every queued job that refers to it is invalid,
no RUNJOB call is going to submit one, and it has not ended. -/
structure Kmd.Dead (k : Kmd) (sessionJob : ℕ) : Prop where
  jobs : ∀ j ∈ k.js.jm.jobs, j.sessionJob = sessionJob → j.validFlag = false
  calls : ∀ p ∈ k.runJobs, p.2 ≠ sessionJob
  lt : sessionJob < k.nextSessionJob
  notEnded : k.NotEnded sessionJob

instance (k : Kmd) (sessionJob : ℕ) : Decidable (k.Dead sessionJob) :=
  decidable_of_iff ((∀ j ∈ k.js.jm.jobs, j.sessionJob = sessionJob → j.validFlag = false) ∧
      (∀ p ∈ k.runJobs, p.2 ≠ sessionJob) ∧ sessionJob < k.nextSessionJob ∧
      ∀ f ∈ k.files, ∀ sj ∈ f.session.jobList, sj.id = sessionJob → sj.state ≠ .finished)
    ⟨fun h => ⟨h.1, h.2.1, h.2.2.1, h.2.2.2⟩, fun h => ⟨h.jobs, h.calls, h.lt, h.notEnded⟩⟩

/-- The session job of a job that has not ended, or that is invalid, has not ended. -/
def Kmd.Unreported (k : Kmd) : Prop :=
  ∀ j ∈ k.js.jm.jobs, j.state ≠ .finished ∨ j.validFlag = false → k.NotEnded j.sessionJob

section Kill

variable {k k' : Kmd} {a : KmdAction} {es : List KmdEvent} {max : ℤ} {jtr : List JmEvent}

/-- A session job that has not ended ends only when the bottom half reports it. -/
theorem Kmd.NotEnded.step {sessionJob : ℕ} (hnot : k.NotEnded sessionJob)
    (h : kmdStep k a = some (k', es)) (hreports : ¬a.Reports k sessionJob) :
    k'.NotEnded sessionJob := by
  intro f' hf' sj' hsj' hid
  rcases kmdStep_jobLists h f' hf' with hnil | ⟨f, hf, -, hstep⟩
  · simp [hnil] at hsj'
  · cases hstep with
    | taken hsub => exact hnot f hf sj' (hsub.subset hsj') hid
    | added tid desc _ _ hlist =>
      rw [hlist, List.mem_cons] at hsj'
      rcases hsj' with rfl | hsj'
      · simp [initSessionJob]
      · exact hnot f hf sj' hsj' hid
    | reported c ha hlist hlist' =>
      have hold : ∀ sj ∈ c.toList, sj.id = sessionJob → sj.state ≠ .finished :=
        fun sj hsj => hnot f hf sj (hlist ▸ hsj)
      rw [hlist', List.mem_append, List.mem_cons] at hsj'
      rcases hsj' with hsj' | rfl | hsj'
      · exact hold sj' (Cursor.mem_toList.mpr (.inl hsj')) hid
      · have ha : a.Reports k sessionJob := hid ▸ ha
        exact absurd ha hreports
      · exact hold sj' (Cursor.mem_toList.mpr (.inr (.inr hsj'))) hid

/-- The session job of a RUNJOB call has not ended. -/
theorem Kmd.JobsInv.call_notEnded (hI : k.JobsInv) (hfresh : k.SessionJobsFresh) {p : ℕ × ℕ}
    (hp : p ∈ k.runJobs) : k.NotEnded p.2 := by
  intro f hf sj hsj hid
  obtain ⟨g, hg, -, -, tj, htj, htid, hstate⟩ := hI.calls p hp
  obtain ⟨-, rfl⟩ := hfresh.eq_of_id hI.files hf hg hsj htj (hid.trans htid.symm)
  exact hstate

/-- Every step leaves the session jobs of unreported jobs as they should be. -/
theorem Kmd.Unreported.step (hU : k.Unreported) (hI : k.JobsInv) (hfresh : k.SessionJobsFresh)
    (hq : JobQueueInv max jtr k.js) (hbh : k.js.BhInv) (h : kmdStep k a = some (k', es)) :
    k'.Unreported := by
  intro j' hj' hcase
  rcases kmdStep_evolves hq hbh h j' hj' with ⟨j, hj, hev⟩ | ⟨mem, sub, ha, hnew⟩
  · have hcase₀ : j.state ≠ .finished ∨ j.validFlag = false := by
      by_cases hended : j.state = .finished
      · rw [hev.finished hended] at hcase
        exact hcase
      · exact .inl hended
    rw [hev.sessionJob]
    refine (hU j hj hcase₀).step h ?_
    rintro ⟨-, curr, hcurr, hsj⟩
    obtain ⟨hmem, hended, hvalid⟩ := hbh curr (BottomHalf.curr?_of_callingJob hcurr)
    have hmem : curr ∈ k.js.jm.jobs := List.mem_append_right _ hmem
    obtain rfl := hq.eq_of_id hmem hj (hI.unique curr hmem j hj hsj)
    simp [hended, hvalid] at hcase₀
  · have hcall := ((kmdStep_runJobs h).submits hI ha).1
    rw [hnew.sessionJob]
    exact (hI.call_notEnded hfresh hcall).step h (hI.call_not_reported hbh hcall)

/-- So it is in every run. -/
theorem kmdSystem_unreported {version : AipuVersion} {map : MemoryMap} {maxSchedNum : ℤ}
    (hmax : 0 ≤ maxSchedNum) {C : Kmd → KmdAction → Prop} {tr : List KmdEvent}
    (h : (kmdSystem version map maxSchedNum).Run C tr k) : k.Unreported := by
  induction h with
  | start hs =>
    obtain ⟨-, -, hfiles, -⟩ := hs
    intro j _ _ f hf
    simp [hfiles] at hf
  | next hrun _ hst ih =>
    obtain ⟨hq, hbh⟩ := kmdSystem_jm hmax hrun
    exact ih.step (kmdSystem_jobs hmax hrun) (kmdSystem_sessionJobsFresh hmax hrun) hq hbh hst

/-- The bottom half does not report a session job that can no longer end. -/
theorem Kmd.Dead.not_reported {sessionJob : ℕ} (hdead : k.Dead sessionJob) (hbh : k.js.BhInv) :
    ¬a.Reports k sessionJob := by
  rintro ⟨-, curr, hcurr, hsj⟩
  obtain ⟨hmem, -, hvalid⟩ := hbh curr (BottomHalf.curr?_of_callingJob hcurr)
  have hinvalid := hdead.jobs curr (List.mem_append_right _ hmem) hsj
  simp [hvalid] at hinvalid

/-- A session job that can no longer end never can again. -/
theorem Kmd.Dead.step {sessionJob : ℕ} (hdead : k.Dead sessionJob) (hI : k.JobsInv)
    (hq : JobQueueInv max jtr k.js) (hbh : k.js.BhInv) (h : kmdStep k a = some (k', es)) :
    k'.Dead sessionJob := by
  have hruns := kmdStep_runJobs h
  refine ⟨?_, ?_, Nat.lt_of_lt_of_le hdead.lt hruns.next_le,
    hdead.notEnded.step h (hdead.not_reported hbh)⟩
  · intro j' hj' hsj
    rcases kmdStep_evolves hq hbh h j' hj' with ⟨j, hj, hev⟩ | ⟨mem, sub, ha, hnew⟩
    · have hinvalid := hdead.jobs j hj (hev.sessionJob ▸ hsj)
      by_contra hvalid
      have := hev.valid (by simpa using hvalid)
      simp [hinvalid] at this
    · rw [hnew.sessionJob] at hsj
      exact absurd hsj (hdead.calls _ (hruns.submits hI ha).1)
  · intro p hp
    rcases hruns.mem hp with hp | ⟨-, hp, -⟩
    · exact hdead.calls p hp
    · have := hdead.lt
      omega

/-- A job that was removed was never triggered. -/
theorem JobQueueInv.removed_not_triggered {s : JmState} (hinv : JobQueueInv max jtr s) {i : ℕ}
    (hremoved : i ∈ removedJobs jtr) : i ∉ triggeredJobs jtr := by
  have hnodup := hinv.partition.nodup_iff.mp List.nodup_range
  obtain ⟨hqueued, -, hretired⟩ := List.nodup_append.mp hnodup
  obtain ⟨-, -, hqueue⟩ := List.nodup_append.mp hqueued
  intro htriggered
  rcases List.mem_append.mp (hinv.triggered.mem_iff.mp htriggered) with hsched | hret
  · exact hqueue i (List.mem_append_right _ hsched) i hremoved rfl
  · exact hretired i (List.mem_append_right _ hremoved) i hret rfl

/-! ## The kill -/

/-- The events of a kill show that it hit the job: it took the job off the pending queue, or it
invalidated it. -/
def KillHits (es : List KmdEvent) (job : AipuJob) : Prop :=
  ∃ alive, .job (.removed job.id) alive ∈ es ∨ .job (.invalidated job.id) alive ∈ es

/-- After a kill that hits a job, the session job of the job can no longer end. -/
theorem kill_dead {file jobId : ℕ} {tid : ℤ} {stale : SessionMem} (hI : k.JobsInv)
    (hU : k.Unreported) (hq : JobQueueInv max jtr k.js)
    (h : kmdStep k (.kill file tid jobId stale) = some (k', es)) {job : AipuJob}
    (hjob : job ∈ k.js.jm.jobs) (hhit : KillHits es job) : k'.Dead job.sessionJob := by
  obtain ⟨js, jes, hst, rfl, rfl⟩ := killTimeoutJob_cases h
  have hcalls : ∀ p ∈ k.runJobs, p.2 ≠ job.sessionJob :=
    fun p hp heq => hI.apart job hjob p hp heq.symm
  have honly : ∀ j ∈ k.js.jm.jobs, j.sessionJob = job.sessionJob → j = job :=
    fun j hj hsj => hq.eq_of_id hj hjob (hI.unique j hj job hjob hsj)
  obtain ⟨alive, hhit⟩ := hhit
  rcases jmStep_kill_cases hq hst with
    ⟨c, hseek, rfl, rfl⟩ | ⟨-, ⟨c, hseek, hstate, rfl, rfl⟩ | ⟨-, -, rfl⟩⟩
  · obtain ⟨hl, -, -⟩ := seek_eq_some hseek
    obtain ⟨hid, -⟩ : job.id = c.entry.id ∧ _ := by simpa using hhit
    have hmem : c.entry ∈ k.js.jm.pendingQueue := hl ▸ c.entry_mem
    obtain rfl := hq.eq_of_id (List.mem_append_left _ hmem) hjob hid.symm
    refine ⟨fun j hj hsj => ?_, hcalls, hI.jobsLt _ hjob,
      hU _ hjob (.inl (by simp [hq.pendingState _ hmem]))⟩
    -- the job was taken off the queue, and no other one refers to its session job
    obtain ⟨hb, ha⟩ := AipuJobManager.IdsNodup.not_mem_around hq.nodup.pending hl
    rcases List.mem_append.mp hj with hj | hj
    · have hmem' : j ∈ k.js.jm.pendingQueue := by
        rw [hl, Cursor.mem_toList]
        exact (List.mem_append.mp hj).imp id .inr
      obtain rfl := honly j (List.mem_append_left _ hmem') hsj
      rcases List.mem_append.mp hj with hj | hj
      · exact absurd (mem_jobIds hj) hb
      · exact absurd (mem_jobIds hj) ha
    · obtain rfl := honly j (List.mem_append_right _ hj) hsj
      exact absurd (mem_jobIds hj) (hq.nodup.pending_not_sched hmem)
  · obtain ⟨hl, -, -⟩ := seek_eq_some hseek
    obtain ⟨hid, -⟩ : job.id = c.entry.id ∧ _ := by simpa using hhit
    have hmem : c.entry ∈ k.js.jm.scheduledQueue := hl ▸ c.entry_mem
    obtain rfl := hq.eq_of_id (List.mem_append_right _ hmem) hjob hid.symm
    refine ⟨fun j hj hsj => ?_, hcalls, hI.jobsLt _ hjob, hU _ hjob (.inl (by simp [hstate]))⟩
    obtain ⟨hb, ha⟩ := AipuJobManager.IdsNodup.not_mem_around hq.nodup.sched hl
    rcases List.mem_append.mp hj with hj | hj
    · obtain rfl := honly j (List.mem_append_left _ hj) hsj
      exact absurd (mem_jobIds hj) (hq.nodup.sched_not_pending hmem)
    · rcases List.mem_append.mp hj with hj | hj
      · have hmem' : j ∈ k.js.jm.scheduledQueue := hl ▸ Cursor.mem_toList.mpr (.inl hj)
        obtain rfl := honly j (List.mem_append_right _ hmem') hsj
        exact absurd (mem_jobIds hj) hb
      rcases List.mem_cons.mp hj with rfl | hj
      · rfl
      · have hmem' : j ∈ k.js.jm.scheduledQueue := hl ▸ Cursor.mem_toList.mpr (.inr (.inr hj))
        obtain rfl := honly j (List.mem_append_right _ hmem') hsj
        exact absurd (mem_jobIds hj) ha
  · simp at hhit

/-- A kill that hits a pending job removes it. -/
theorem kill_removes {file jobId : ℕ} {tid : ℤ} {stale : SessionMem}
    (hq : JobQueueInv max jtr k.js) (h : kmdStep k (.kill file tid jobId stale) = some (k', es))
    {job : AipuJob} (hjob : job ∈ k.js.jm.jobs) (hhit : KillHits es job)
    (hstate : job.state = .pending) : job.id ∈ removedJobs (es.filterMap KmdEvent.jm) := by
  obtain ⟨js, jes, hst, rfl, rfl⟩ := killTimeoutJob_cases h
  obtain ⟨alive, hhit⟩ := hhit
  rw [(logsJobs_map k jes).1]
  rcases jmStep_kill_cases hq hst with
    ⟨c, hseek, rfl, rfl⟩ | ⟨-, ⟨c, hseek, hsched, rfl, rfl⟩ | ⟨-, -, rfl⟩⟩
  · obtain ⟨hid, -⟩ : job.id = c.entry.id ∧ _ := by simpa using hhit
    simp [hid, removedJobs, JmEvent.removes]
  · obtain ⟨hl, -, -⟩ := seek_eq_some hseek
    obtain ⟨hid, -⟩ : job.id = c.entry.id ∧ _ := by simpa using hhit
    have hmem : c.entry ∈ k.js.jm.scheduledQueue := hl ▸ c.entry_mem
    obtain rfl := hq.eq_of_id (List.mem_append_right _ hmem) hjob hid.symm
    simp [hstate] at hsched
  · simp at hhit

end Kill

/-! ## The theorem -/

/-- **Kill.**  In every run on a platform without logic reset, when a kill that returns zero has hit
a job, then in all that follows: if the job was pending it is never triggered, its session job never
becomes END, and no status record is made of it. -/
theorem kill_is_final {version : AipuVersion} {map : MemoryMap} {maxSchedNum : ℤ}
    (hmax : 1 ≤ maxSchedNum) {tr : List KmdEvent} {k k' : Kmd} {file jobId : ℕ} {tid : ℤ}
    {stale : SessionMem} {es : List KmdEvent}
    (hrun : (kmdSystem version map maxSchedNum).Run anyStep tr k)
    (hkill : (kmdSystem version map maxSchedNum).step k (.kill file tid jobId stale) =
      some (k', es))
    {alive : Bool} (_ : .job (.killed 0) alive ∈ es) {job : AipuJob} (hjob : job ∈ k.js.jm.jobs)
    (hhit : KillHits es job) :
    ∀ tr' k'', (kmdSystem version map maxSchedNum).Steps anyStep k' tr' k'' →
      (job.state = .pending → ∀ alive, .job (.triggered job.id) alive ∉ tr') ∧
      (∀ f ∈ k''.files, ∀ sj ∈ f.session.jobList, sj.id = job.sessionJob →
        sj.state ≠ .finished) ∧
      ∀ file' status, .reported file' job.sessionJob status ∉ tr' := by
  intro tr' k'' hsteps
  have hmax₀ : 0 ≤ maxSchedNum := Int.le_of_lt hmax
  obtain ⟨hq, -⟩ := kmdSystem_jm hmax₀ hrun
  have hrun' := hrun.next (C := anyStep) trivial hkill
  have hdead : k''.Dead job.sessionJob ∧
      ∀ file' status, .reported file' job.sessionJob status ∉ tr' := by
    refine hsteps.invariant (I := fun tr' k'' => k''.Dead job.sessionJob ∧
      ∀ file' status, .reported file' job.sessionJob status ∉ tr') hrun' ?_ ?_
    · exact ⟨kill_dead (kmdSystem_jobs hmax₀ hrun) (kmdSystem_unreported hmax₀ hrun) hq hkill hjob
        hhit, by simp⟩
    · rintro tr₁ k₁ a k₂ es₂ hrun₁ ⟨hdead, htr⟩ - hst
      obtain ⟨hq₁, hbh₁⟩ := kmdSystem_jm hmax₀ hrun₁
      refine ⟨hdead.step (kmdSystem_jobs hmax₀ hrun₁) hq₁ hbh₁ hst, fun file' status he => ?_⟩
      rcases List.mem_append.mp he with he | he
      · exact htr file' status he
      · obtain ⟨query, _, _, _, -, f, hf, -, sj, hsj, hid, hmatch, -⟩ := kmdStep_reported hst he
        simp only [JobStatusQuery.matches, decide_eq_true_eq] at hmatch
        exact hdead.notEnded f hf sj hsj hid hmatch.2
  refine ⟨fun hstate alive' htrig => ?_, hdead.1.notEnded, hdead.2⟩
  -- a job that was removed was never triggered
  obtain ⟨hq'', -⟩ := kmdSystem_jm hmax₀ (hrun'.steps hsteps)
  have hremoved : job.id ∈ removedJobs ((tr ++ es ++ tr').filterMap KmdEvent.jm) := by
    have hkilled := kill_removes hq hkill hjob hhit hstate
    simp only [removedJobs, List.filterMap_append, List.mem_append] at hkilled ⊢
    exact .inl (.inr hkilled)
  have htriggered : job.id ∈ triggeredJobs ((tr ++ es ++ tr').filterMap KmdEvent.jm) := by
    refine List.mem_filterMap.mpr ⟨.triggered job.id, ?_, rfl⟩
    exact List.mem_filterMap.mpr ⟨.job (.triggered job.id) alive',
      List.mem_append_right _ htrig, rfl⟩
  exact hq''.removed_not_triggered hremoved htriggered

/-- Two RUNJOB calls: the first job runs, and the second one is pending. -/
def oneRunningOnePending : List KmdAction :=
  [.openFile 7 [], .runAdd 0 7 { desc := { jobId := 1 } } [],
    .runSchedule 0 { desc := { jobId := 1 } } (initSessionJob 0 7 { jobId := 1 }) true sampleMem,
    .runAdd 0 7 { desc := { jobId := 2 } } [],
    .runSchedule 0 { desc := { jobId := 2 } } (initSessionJob 1 7 { jobId := 2 }) true sampleMem]

/-- The pending one is killed, and the first one runs to its end. -/
theorem kill_is_final_sample :
    ∃ tr k es k' tr' k'' job, (kmdSystem .zhouyiV2 sampleMap 1).Run anyStep tr k ∧
      k.js.jm.pendingQueue = [job] ∧
      kmdStep k (.kill 0 7 2 sampleMem) = some (k', es) ∧
      (kmdSystem .zhouyiV2 sampleMap 1).Steps anyStep k' tr' k'' ∧
      (job.state = .pending → ∀ alive, .job (.triggered job.id) alive ∉ tr') ∧
      (∀ f ∈ k''.files, ∀ sj ∈ f.session.jobList, sj.id = job.sessionJob →
        sj.state ≠ .finished) ∧
      ∀ file' status, .reported file' job.sessionJob status ∉ tr' := by
  obtain ⟨k, tr, job, k', es, k'', tr', hexec, hpending, hkill, hret, hid, hexec'⟩ :
      ∃ k tr job k' es k'' tr',
        (kmdSystem .zhouyiV2 sampleMap 1).exec anyStep sampleKmd oneRunningOnePending =
          some (k, tr) ∧
        k.js.jm.pendingQueue = [job] ∧ kmdStep k (.kill 0 7 2 sampleMem) = some (k', es) ∧
        .job (.killed 0) true ∈ es ∧ .job (.removed job.id) true ∈ es ∧
        (kmdSystem .zhouyiV2 sampleMap 1).exec anyStep k' [.upperHalf 0 sampleMem, .queueWork,
          .bhStart, .bhDone, .bhResume] = some (k'', tr') :=
    ⟨_, _, _, _, _, _, _, rfl, rfl, rfl, by decide, by decide, rfl⟩
  have hrun := System.run_of_exec sampleKmd_init hexec
  have hsteps := System.steps_of_exec hexec'
  have hjob : job ∈ k.js.jm.jobs := List.mem_append_left _ (by simp [hpending])
  exact ⟨tr, k, es, k', tr', k'', job, hrun, hpending, hkill, hsteps,
    kill_is_final (by decide) hrun hkill hret hjob ⟨true, .inl hid⟩ tr' k'' hsteps⟩

end Aipu
