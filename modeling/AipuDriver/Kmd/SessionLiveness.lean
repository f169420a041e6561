import AipuDriver.Kmd.DriverJobs

/-!
# Pointers to sessions

A queued job points to its session and to its session job, and the release of a file frees both
without looking at the queues.  Pending jobs and jobs that run and are valid are invalidated before,
but a job that has ended stays as it is, and an invalidated job that runs stays queued until its
interrupt and its bottom half.  `Kmd.SessionsQuiet` is the condition on a release under which no
such job is left: then no freed session and no freed session job is ever read.
-/

namespace Aipu

open ListSearch Transition

/-! ## The condition -/

/-- The job manager will read the session job of the scheduled job again: the job has not ended, or
its end is still to be reported. -/
def JmState.Needs (s : JmState) (job : AipuJob) : Prop :=
  job.state ≠ .finished ∨ (job.validFlag = true ∧ s.bh.returnedJob ≠ some job)

instance (s : JmState) : DecidablePred s.Needs := fun _ => inferInstanceAs (Decidable (_ ∨ _))

/-- The session jobs of a file are deleted when no scheduled job needs one of them, and its session
is destroyed when no scheduled job belongs to it. -/
def Kmd.SessionsQuiet (k : Kmd) : KmdAction → Prop
  | .relDelete file => ∀ j ∈ k.js.jm.scheduledQueue, j.session = file → ¬k.js.Needs j
  | .relDestroy file => ∀ j ∈ k.js.jm.scheduledQueue, j.session ≠ file
  | _ => True

instance : DecidableRel Kmd.SessionsQuiet := fun k a => by
  rcases a <;> unfold Kmd.SessionsQuiet <;> infer_instance

/-! ## The invariant -/

/-- The session has a file whose list holds the session job, which has not ended. -/
def Kmd.Holds (k : Kmd) (session sessionJob : ℕ) : Prop :=
  ∃ f ∈ k.files, f.id = session ∧
    ∃ sj ∈ f.session.jobList, sj.id = sessionJob ∧ sj.state ≠ .finished

/-- The pointers of the scheduled jobs that are still to be read. -/
structure Kmd.LiveInv (k : Kmd) : Prop where
  session : ∀ j ∈ k.js.jm.scheduledQueue, ∃ f ∈ k.files, f.id = j.session
  sessionJob : ∀ j ∈ k.js.jm.scheduledQueue, k.js.Needs j → k.Holds j.session j.sessionJob

section Liveness

variable {k k' : Kmd} {a : KmdAction} {es : List KmdEvent} {max : ℤ} {jtr : List JmEvent}

theorem Kmd.Serves.holds {session sessionJob : ℕ} (h : k.Serves session sessionJob) :
    k.Holds session sessionJob := by
  obtain ⟨f, hf, hid, -, hsj⟩ := h
  exact ⟨f, hf, hid, hsj⟩

/-- A session job that has not ended stays in its list, unless the list is deleted or the job is
reported. -/
theorem Kmd.Holds.step {session sessionJob : ℕ} (h : k.Holds session sessionJob)
    (hst : FilesStep k a k') :
    k'.Holds session sessionJob ∨ a = .relDelete session ∨ a.Reports k sessionJob := by
  obtain ⟨f, hf, rfl, sj, hsj, rfl, hstate⟩ := h
  rcases hst.of_mem hf with ⟨f', hf', hstep⟩ | ⟨-, -, hnil, -⟩
  · rcases hstep.kept sj hsj hstate with hsj' | ⟨hdelete, -⟩ | hreport
    · exact .inl ⟨f', hf', hstep.id, sj, hsj', rfl, hstate⟩
    · exact .inr (.inl hdelete)
    · exact .inr (.inr hreport)
  · simp [hnil] at hsj

/-- The session of a pending job serves its session job. -/
theorem Kmd.JobsInv.pending (hI : k.JobsInv) (hq : JobQueueInv max jtr k.js) {j : AipuJob}
    (hj : j ∈ k.js.jm.pendingQueue) : k.Serves j.session j.sessionJob :=
  hI.active j (List.mem_append_left _ hj) (.inl (hq.pendingState j hj))

/-- An open session is not destroyed in a step. -/
theorem Kmd.Serves.file_kept {session sessionJob : ℕ} (h : k.Serves session sessionJob)
    (hst : FilesStep k a k') : ∃ f ∈ k'.files, f.id = session := by
  obtain ⟨f, hf, rfl, hphase, -⟩ := h
  rcases hst.of_mem hf with ⟨f', hf', hstep⟩ | ⟨-, hdestroyed, -⟩
  · exact ⟨f', hf', hstep.id⟩
  · simp [hphase] at hdestroyed

/-- The session of a job that is scheduled after a step is still there. -/
theorem Kmd.LiveInv.session_step (hL : k.LiveInv) (hI : k.JobsInv)
    (hq : JobQueueInv max jtr k.js) (hbh : k.js.BhInv) (hC : k.SessionsQuiet a)
    (h : kmdStep k a = some (k', es)) :
    ∀ j ∈ k'.js.jm.scheduledQueue, ∃ f ∈ k'.files, f.id = j.session := by
  have hfiles := kmdStep_files h
  intro j' hj'
  rcases kmdStep_evolves hq hbh h j' (List.mem_append_right _ hj') with
    ⟨j, hj, hev⟩ | ⟨mem, sub, ha, hnew⟩
  · rw [hev.session]
    rcases List.mem_append.mp hj with hj | hj
    · exact (hI.pending hq hj).file_kept hfiles
    · obtain ⟨f, hf, hid⟩ := hL.session j hj
      rcases hfiles.of_mem hf with ⟨f', hf', hstep⟩ | ⟨rfl, -⟩
      · exact ⟨f', hf', hstep.id.trans hid⟩
      · exact absurd hid.symm (hC j hj)
  · rw [hnew.session]
    exact (hI.calls _ ((kmdStep_runJobs h).submits hI ha).1).file_kept hfiles

/-- A job that is needed after a step had not ended or was needed before. -/
theorem AipuJob.Evolves.needs {j j' : AipuJob} (hev : j.Evolves j')
    (h : kmdStep k a = some (k', es)) (hj' : j' ∈ k'.js.jm.scheduledQueue)
    (hneeds : k'.js.Needs j') : k.js.Needs j := by
  by_cases hstate : j.state = .finished
  · obtain rfl := hev.finished hstate
    rcases hneeds with hne | ⟨hvalid, hret⟩
    · exact absurd hstate hne
    · refine .inr ⟨hvalid, fun hret₀ => ?_⟩
      rcases kmdStep_jm h with ⟨-, hjs, -⟩ | ⟨b, jes, -, hb, -⟩
      · exact hret (hjs ▸ hret₀)
      · rcases jmStep_returned hb hret₀ with hret₁ | hretired
        · exact hret hret₁
        · exact hretired j' hj' rfl
  · exact .inl hstate

/-- The session job that a scheduled job needs after a step is still there. -/
theorem Kmd.LiveInv.sessionJob_step (hL : k.LiveInv) (hI : k.JobsInv)
    (hq : JobQueueInv max jtr k.js) (hbh : k.js.BhInv) (hC : k.SessionsQuiet a)
    (h : kmdStep k a = some (k', es)) :
    ∀ j ∈ k'.js.jm.scheduledQueue, k'.js.Needs j → k'.Holds j.session j.sessionJob := by
  have hfiles := kmdStep_files h
  have hserves : ∀ {session sessionJob}, k.Serves session sessionJob →
      ¬a.Reports k sessionJob → k'.Holds session sessionJob := by
    intro session sessionJob hs hreport
    rcases hs.holds.step hfiles with hholds | hdelete | hreport'
    · exact hholds
    · rcases hs.step hfiles with hs' | ⟨stale, hcancel⟩ | hreport'
      · exact hs'.holds
      · simp [hdelete] at hcancel
      · exact absurd hreport' hreport
    · exact absurd hreport' hreport
  intro j' hj' hneeds
  rcases kmdStep_evolves hq hbh h j' (List.mem_append_right _ hj') with
    ⟨j, hj, hev⟩ | ⟨mem, sub, ha, hnew⟩
  · have hneeds₀ := hev.needs h hj' hneeds
    rw [hev.session, hev.sessionJob]
    rcases List.mem_append.mp hj with hp | hs
    · exact hserves (hI.pending hq hp)
        (hI.not_reported hq hbh hj (by simp [hq.pendingState j hp]))
    · rcases (hL.sessionJob j hs hneeds₀).step hfiles with hholds | rfl | hreport
      · exact hholds
      · exact absurd hneeds₀ (hC j hs rfl)
      · -- the step reports the job itself, which then is needed no more
        by_cases hstate : j.state = .finished
        · obtain ⟨rfl, curr, hcurr, hsj⟩ := hreport
          have hmem : curr ∈ k.js.jm.jobs :=
            List.mem_append_right _ (hbh curr (BottomHalf.curr?_of_callingJob hcurr)).1
          obtain rfl := hq.eq_of_id hmem hj (hI.unique curr hmem j hj hsj)
          obtain rfl := hev.finished hstate
          obtain ⟨curr, next, woken, hbh', -, hcase⟩ := bottomHalfDone_cases h
          rw [hbh'] at hcurr
          obtain rfl : curr = j' := Option.some.inj hcurr
          have hjs : k'.js.bh = .returned curr next := by
            obtain ⟨c, d, -, -, rfl, -⟩ | ⟨-, rfl⟩ := hcase <;> rfl
          rcases hneeds with hne | ⟨-, hne⟩
          · exact absurd hstate hne
          · exact absurd (by rw [hjs]; rfl) hne
        · exact absurd hreport (hI.not_reported hq hbh hj hstate)
  · rw [hnew.session, hnew.sessionJob]
    have hcall := ((kmdStep_runJobs h).submits hI ha).1
    exact hserves (hI.calls _ hcall) (hI.call_not_reported hbh hcall)

/-! ## Reads -/

/-- A session with a file is alive. -/
theorem Kmd.alive_readSession {session : ℕ} (h : ∃ f ∈ k.files, f.id = session) :
    k.alive (.readSession session) = true := by
  simpa [Kmd.alive] using h

/-- A session job in a list is alive. -/
theorem Kmd.Holds.alive {session sessionJob : ℕ} (h : k.Holds session sessionJob) :
    k.alive (.readSessionJob sessionJob) = true := by
  obtain ⟨f, hf, -, sj, hsj, hid, -⟩ := h
  simp only [Kmd.alive, Kmd.sessionJobs, List.any_eq_true, decide_eq_true_eq]
  exact ⟨sj, List.mem_flatMap.mpr ⟨f, hf, hsj⟩, hid⟩

/-- Only the start of a release cancels jobs. -/
theorem jmAction_canceled {b : JmAction} {session : ℕ} (hb : a.jmAction k = some b)
    (hsession : b.canceled = some session) : a.Cancels session := by
  unfold KmdAction.jmAction at hb
  split at hb <;> cases hb <;> cases hsession
  exact ⟨_, rfl⟩

/-- A step reads no pointer to an object that was freed. -/
theorem Kmd.LiveInv.alive (hL : k.LiveInv) (hI : k.JobsInv) (hq : JobQueueInv max jtr k.js)
    (hbh : k.js.BhInv) (h : kmdStep k a = some (k', es)) :
    ∀ e alive, .job e alive ∈ es → alive = true := by
  intro e alive he
  rcases kmdStep_jm h with ⟨-, -, hjes, -⟩ | ⟨b, jes, hb, hst, hjes, halive⟩
  · have hmem : e ∈ es.filterMap KmdEvent.jm := List.mem_filterMap.mpr ⟨_, he, rfl⟩
    simp [hjes] at hmem
  have hmem : e ∈ jes := hjes ▸ List.mem_filterMap.mpr ⟨_, he, rfl⟩
  have hread := jmStep_reads hq hbh hst e hmem
  rw [halive e alive he]
  cases e with
  | readSession session =>
    apply Kmd.alive_readSession
    rcases hread with hcancel | ⟨j, hj, rfl⟩
    · obtain ⟨stale, rfl⟩ := jmAction_canceled hb hcancel
      obtain ⟨c, js, jes, hc, -⟩ := releaseCancel_cases h
      obtain ⟨hl, hid, -⟩ := Kmd.inPhase_eq_some hc
      exact ⟨c.entry, hl ▸ c.entry_mem, hid⟩
    · rcases List.mem_append.mp hj with hj | hj
      · obtain ⟨f, hf, hid, -⟩ := hI.pending hq hj
        exact ⟨f, hf, hid⟩
      · exact hL.session j hj
  | readSessionJob sessionJob =>
    rcases hread with hsub | ⟨j, hj, hneed, rfl⟩
    · cases b with
      | submit mem sub =>
        obtain rfl : sub.sessionJob = sessionJob := Option.some.inj hsub
        exact (hI.calls _ ((kmdStep_runJobs h).submits hI hb).1).holds.alive
      | _ => cases hsub
    · have hneeds : k.js.Needs j := by
        rcases hneed with hstate | hcalling
        · exact .inl hstate
        · refine .inr ⟨(hbh j (BottomHalf.curr?_of_callingJob hcalling)).2.2, fun hret => ?_⟩
          cases hpos : k.js.bh <;> simp [hpos, BottomHalf.callingJob, BottomHalf.returnedJob] at *
      rcases List.mem_append.mp hj with hj | hj
      · exact (hI.pending hq hj).holds.alive
      · exact (hL.sessionJob j hj hneeds).alive
  | _ => rfl

end Liveness

/-! ## Runs -/

/-- **Pointers to sessions.**  In every run in which session jobs are deleted when no scheduled job
needs them, and sessions are destroyed when no scheduled job belongs to them, every session and
every session job that the job manager reads is alive. -/
theorem session_pointers_alive (version : AipuVersion) (map : MemoryMap) {maxSchedNum : ℤ}
    (hmax : 1 ≤ maxSchedNum) {tr : List KmdEvent} {k : Kmd}
    (h : (kmdSystem version map maxSchedNum).Run Kmd.SessionsQuiet tr k) :
    ∀ e alive, .job e alive ∈ tr → alive = true := by
  have hmax : 0 ≤ maxSchedNum := Int.le_of_lt hmax
  suffices hall : k.LiveInv ∧ ∀ e alive, .job e alive ∈ tr → alive = true from hall.2
  induction h with
  | @start k hs =>
    obtain ⟨-, ⟨idle, hjs⟩, -⟩ := hs
    have hsched : k.js.jm.scheduledQueue = [] := by rw [hjs]; rfl
    exact ⟨⟨by simp [hsched], by simp [hsched]⟩, by simp⟩
  | next hrun hC hst ih =>
    obtain ⟨hL, htr⟩ := ih
    have hI := kmdSystem_jobs hmax hrun
    obtain ⟨hq, hbh⟩ := kmdSystem_jm hmax hrun
    refine ⟨⟨hL.session_step hI hq hbh hC hst, hL.sessionJob_step hI hq hbh hC hst⟩,
      fun e alive he => ?_⟩
    rcases List.mem_append.mp he with he | he
    · exact htr e alive he
    · exact hL.alive hI hq hbh hst e alive he

/-! ## Sample runs -/

/-- A job without profiling. -/
def sampleJob : UserJob := { desc := { jobId := 1 } }

/-- A release while the job of another session runs, and after the job of its own session has been
retired. -/
theorem session_pointers_alive_sample :
    ∃ tr k, (kmdSystem .zhouyiV2 sampleMap 1).Run Kmd.SessionsQuiet tr k ∧
      .job (.readSessionJob 0) true ∈ tr ∧ k.files.map (·.id) = [1] ∧
      jobIds k.js.jm.scheduledQueue = [1] ∧ ∀ e alive, .job e alive ∈ tr → alive = true := by
  have hexec : ∃ k es, (kmdSystem .zhouyiV2 sampleMap 1).exec Kmd.SessionsQuiet sampleKmd
      [.openFile 7 [], .openFile 9 [], .runAdd 0 7 sampleJob [],
        .runSchedule 0 sampleJob (initSessionJob 0 7 sampleJob.desc) true sampleMem,
        .runAdd 1 9 sampleJob [],
        .runSchedule 1 sampleJob (initSessionJob 1 9 sampleJob.desc) true sampleMem,
        .upperHalf 0 sampleMem, .queueWork, .bhStart, .bhDone, .bhResume,
        .relCancel 0 sampleMem, .relDelete 0, .relFree 0, .relDestroy 0] = some (k, es) ∧
      .job (.readSessionJob 0) true ∈ es ∧ k.files.map (·.id) = [1] ∧
      jobIds k.js.jm.scheduledQueue = [1] := ⟨_, _, rfl, by decide, rfl, rfl⟩
  obtain ⟨k, es, hexec, hread, hfiles, hqueue⟩ := hexec
  have hrun := System.run_of_exec sampleKmd_init hexec
  exact ⟨es, k, hrun, hread, hfiles, hqueue,
    session_pointers_alive .zhouyiV2 sampleMap (by decide) hrun⟩

/-- A file is released while its job runs.  The next release of a file compares the process id of
the destroyed session, and the interrupt of the job reads its deleted session job. -/
theorem session_pointers_dangle :
    ∃ tr k, (kmdSystem .zhouyiV2 sampleMap 1).Run anyStep tr k ∧
      .job (.readSession 0) false ∈ tr ∧ .job (.readSessionJob 0) false ∈ tr := by
  have hexec : ∃ k es, (kmdSystem .zhouyiV2 sampleMap 1).exec anyStep sampleKmd
      [.openFile 7 [], .openFile 9 [], .runAdd 0 7 sampleJob [],
        .runSchedule 0 sampleJob (initSessionJob 0 7 sampleJob.desc) true sampleMem,
        .relCancel 0 sampleMem, .relDelete 0, .relFree 0, .relDestroy 0, .relCancel 1 sampleMem,
        .upperHalf 0 sampleMem] = some (k, es) ∧
      .job (.readSession 0) false ∈ es ∧ .job (.readSessionJob 0) false ∈ es :=
    ⟨_, _, rfl, by decide, by decide⟩
  obtain ⟨k, es, hexec, hsession, hjob⟩ := hexec
  exact ⟨es, k, System.run_of_exec sampleKmd_init hexec, hsession, hjob⟩

end Aipu
