import AipuDriver.Kmd.DriverJobs

/-!
# Session jobs and the jobs that refer to them

What a step of the driver makes of the job list of each session (`JobListStep`), and what becomes of
each queued job (`jmStep_kept`).  Session jobs are numbered, so the lists never hold the same
session job twice (`Kmd.SessionJobsFresh`).
-/

namespace Aipu

open ListSearch Transition

/-! ## Job lists -/

/-- What a step makes of the session jobs of a file. -/
inductive JobListStep (k : Kmd) (a : KmdAction) (k' : Kmd) (f f' : KmdFile) : Prop
  /-- Session jobs are at most taken away. -/
  | taken (hsub : f'.session.jobList.Sublist f.session.jobList)
  /-- RUNJOB adds a new one, and the call goes on. -/
  | added (tid : ℤ) (desc : UserJobDesc) (hrun : (f.id, k.nextSessionJob) ∈ k'.runJobs)
      (hnext : k'.nextSessionJob = k.nextSessionJob + 1)
      (hlist : f'.session.jobList =
        initSessionJob k.nextSessionJob tid desc :: f.session.jobList)
  /-- The bottom half reports the end of one. -/
  | reported (c : Cursor SessionJob) (ha : a.Reports k c.entry.id)
      (hlist : f.session.jobList = c.toList)
      (hlist' : f'.session.jobList = c.before ++ c.entry.done :: c.after)

section Lists

variable {k k' : Kmd} {a : KmdAction} {es : List KmdEvent}

/-- A file whose session jobs do not change. -/
theorem JobListStep.same {f f' : KmdFile} (h : f'.session.jobList = f.session.jobList) :
    JobListStep k a k' f f' := .taken (h ▸ List.Sublist.refl _)

/-- Every edit makes such a step of the job list. -/
theorem FileEdit.jobListStep {f f' : KmdFile} (h : FileEdit k k' es a f f') :
    JobListStep k a k' f f' := by
  cases h with
  | runAdd tid userJob userJob' kz waitQueue _ _ hops hnext =>
    refine .added tid userJob.desc ?_ hnext rfl
    rw [Kmd.runJobs, hops]
    exact List.mem_cons_self
  | query query kzOk notCopied notCopiedQuery kept taken _ _ hsub => exact .taken hsub
  | done curr next d hbh _ hlist hdid =>
    exact .reported d ⟨rfl, curr, by rw [hbh]; rfl, hdid.symm⟩ hlist rfl
  | relDelete => exact .taken (List.nil_sublist _)
  | reqAdd | freeDetach | mmap | munmap | pollRegister | relCancel | buffersFreed | relFree
  | relDetach | detachFailed | destroyFailed => exact .same rfl

/-- **Job lists.**  What a step makes of the session jobs of each file. -/
theorem kmdStep_jobLists (h : kmdStep k a = some (k', es)) :
    ∀ f' ∈ k'.files, f'.session.jobList = [] ∨
      ∃ f ∈ k.files, f.id = f'.id ∧ JobListStep k a k' f f' := by
  intro f' hf'
  rcases (kmdStep_edits h).mem_of hf' with hf | ⟨f, hf, hedit⟩ | ⟨pid, rfl⟩
  · exact .inr ⟨f', hf, rfl, .same rfl⟩
  · exact .inr ⟨f, hf, hedit.step.id.symm, hedit.jobListStep⟩
  · exact .inl rfl

/-- Only RUNJOB makes session jobs. -/
theorem kmdStep_nextSessionJob (h : kmdStep k a = some (k', es))
    (ha : ∀ file tid userJob kz, a ≠ .runAdd file tid userJob kz) :
    k'.nextSessionJob = k.nextSessionJob := by
  cases kmdStep_runJobs h with
  | same _ hnext => exact hnext
  | added file _ _ _ _ hcall =>
    obtain ⟨tid, userJob, kz, hcall⟩ := hcall
    exact absurd hcall (ha file tid userJob kz)
  | finished _ _ _ hnext => exact hnext

/-- A session job after a step was there before, with the same descriptor, or RUNJOB has made it. -/
theorem kmdStep_origin (h : kmdStep k a = some (k', es)) {f' : KmdFile} (hf' : f' ∈ k'.files)
    {sj' : SessionJob} (hsj' : sj' ∈ f'.session.jobList) :
    (∃ f ∈ k.files, f.id = f'.id ∧ ∃ sj ∈ f.session.jobList, sj.id = sj'.id ∧ sj.desc = sj'.desc) ∨
      ∃ tid userJob kz, a = .runAdd f'.id tid userJob kz ∧
        sj' = initSessionJob k.nextSessionJob tid userJob.desc := by
  rcases kmdStep_jobLists h f' hf' with hnil | ⟨f, hf, hid, hstep⟩
  · simp [hnil] at hsj'
  have hold : ∀ sj ∈ f.session.jobList, sj.id = sj'.id → sj.desc = sj'.desc →
      ∃ f ∈ k.files, f.id = f'.id ∧ ∃ sj ∈ f.session.jobList, sj.id = sj'.id ∧ sj.desc = sj'.desc :=
    fun sj hsj hsid hdesc => ⟨f, hf, hid, sj, hsj, hsid, hdesc⟩
  cases hstep with
  | taken hsub => exact .inl (hold sj' (hsub.subset hsj') rfl rfl)
  | reported c ha hlist hlist' =>
    rw [hlist', List.mem_append, List.mem_cons] at hsj'
    rw [hlist] at hold
    rcases hsj' with hsj' | rfl | hsj'
    · exact .inl (hold sj' (Cursor.mem_toList.mpr (.inl hsj')) rfl rfl)
    · exact .inl (hold c.entry c.entry_mem rfl rfl)
    · exact .inl (hold sj' (Cursor.mem_toList.mpr (.inr (.inr hsj'))) rfl rfl)
  | added tid desc _ hnext hlist =>
    by_cases ha : ∃ file tid userJob kz, a = .runAdd file tid userJob kz
    · obtain ⟨file, tid, userJob, kz, rfl⟩ := ha
      obtain ⟨c, hc, ⟨waitQueue, userJob', -, -, -, rfl⟩ | ⟨rfl, -⟩⟩ := runjobAdd_cases h
      · obtain ⟨hl, hcid, -⟩ := Kmd.inPhase_eq_some hc
        rcases List.mem_append.mp hf' with hmem | hmem
        · exact .inl ⟨f', hl ▸ Cursor.mem_toList.mpr (.inl hmem), rfl, sj', hsj', rfl, rfl⟩
        rcases List.mem_cons.mp hmem with rfl | hmem
        · rcases List.mem_cons.mp hsj' with rfl | hsj'
          · exact .inr ⟨tid, userJob, kz, by rw [← hcid], rfl⟩
          · exact .inl ⟨c.entry, hl ▸ c.entry_mem, rfl, sj', hsj', rfl, rfl⟩
        · exact .inl ⟨f', hl ▸ Cursor.mem_toList.mpr (.inr (.inr hmem)), rfl, sj', hsj', rfl, rfl⟩
      · omega
    · have := kmdStep_nextSessionJob h fun file tid userJob kz heq =>
        ha ⟨file, tid, userJob, kz, heq⟩
      omega

/-- No list holds a session job twice, no two lists share one, and the next number is new. -/
structure Kmd.SessionJobsFresh (k : Kmd) : Prop where
  lt : ∀ f ∈ k.files, ∀ sj ∈ f.session.jobList, sj.id < k.nextSessionJob
  nodup : ∀ f ∈ k.files, (f.session.jobList.map SessionJob.id).Nodup
  apart : ∀ f ∈ k.files, ∀ g ∈ k.files, ∀ sj ∈ f.session.jobList, ∀ sj' ∈ g.session.jobList,
    sj.id = sj'.id → f.id = g.id

/-- Two session jobs with the same number are the same. -/
theorem Kmd.SessionJobsFresh.eq_of_id (hI : k.SessionJobsFresh) (hfiles : k.FilesFresh)
    {f g : KmdFile} {sj sj' : SessionJob} (hf : f ∈ k.files) (hg : g ∈ k.files)
    (hsj : sj ∈ f.session.jobList) (hsj' : sj' ∈ g.session.jobList) (hid : sj.id = sj'.id) :
    f = g ∧ sj = sj' := by
  obtain rfl := hfiles.eq_of_id hf hg (hI.apart f hf g hg sj hsj sj' hsj' hid)
  exact ⟨rfl, List.inj_on_of_nodup_map (hI.nodup f hf) hsj hsj' hid⟩

/-- The numbers of the session jobs of a file after a step are those before it, or one is new. -/
theorem JobListStep.ids {f f' : KmdFile} (h : JobListStep k a k' f f') :
    (f'.session.jobList.map SessionJob.id).Sublist (f.session.jobList.map SessionJob.id) ∨
      (f'.session.jobList.map SessionJob.id =
          k.nextSessionJob :: f.session.jobList.map SessionJob.id ∧
        (f.id, k.nextSessionJob) ∈ k'.runJobs ∧ k'.nextSessionJob = k.nextSessionJob + 1) := by
  cases h with
  | taken hsub => exact .inl (hsub.map _)
  | added tid desc hrun hnext hlist => exact .inr ⟨by simp [hlist, initSessionJob], hrun, hnext⟩
  | reported c _ hlist hlist' =>
    left
    simp [hlist, hlist', Cursor.toList, SessionJob.done]

/-- A number in a list after a step was there before, or it is the new one of a RUNJOB call on the
file. -/
theorem JobListStep.mem_ids {f f' : KmdFile} (h : JobListStep k a k' f f') {sj' : SessionJob}
    (hsj' : sj' ∈ f'.session.jobList) :
    (∃ sj ∈ f.session.jobList, sj.id = sj'.id) ∨
      (sj'.id = k.nextSessionJob ∧ (f.id, k.nextSessionJob) ∈ k'.runJobs ∧
        k'.nextSessionJob = k.nextSessionJob + 1) := by
  have hmem := List.mem_map_of_mem (f := SessionJob.id) hsj'
  rcases h.ids with hsub | ⟨hcons, hrun, hnext⟩
  · exact .inl (List.mem_map.mp (hsub.subset hmem))
  · rw [hcons, List.mem_cons] at hmem
    rcases hmem with hnew | hold
    · exact .inr ⟨hnew, hrun, hnext⟩
    · exact .inl (List.mem_map.mp hold)

/-- Every step keeps the numbers of the session jobs apart. -/
theorem kmdStep_sessionJobsFresh (hI : k.SessionJobsFresh)
    (hcalls : (k'.runJobs.map Prod.snd).Nodup) (h : kmdStep k a = some (k', es)) :
    k'.SessionJobsFresh := by
  have hlists := kmdStep_jobLists h
  have hle := (kmdStep_runJobs h).next_le
  constructor
  · intro f' hf' sj' hsj'
    rcases hlists f' hf' with hnil | ⟨f, hf, -, hstep⟩
    · simp [hnil] at hsj'
    · rcases hstep.mem_ids hsj' with ⟨sj, hsj, hid⟩ | ⟨hid, -, hnext⟩
      · have := hI.lt f hf sj hsj
        omega
      · omega
  · intro f' hf'
    rcases hlists f' hf' with hnil | ⟨f, hf, -, hstep⟩
    · simp [hnil]
    · rcases hstep.ids with hsub | ⟨hcons, -, -⟩
      · exact (hI.nodup f hf).sublist hsub
      · rw [hcons, List.nodup_cons]
        refine ⟨fun hmem => ?_, hI.nodup f hf⟩
        obtain ⟨sj, hsj, hid⟩ := List.mem_map.mp hmem
        have := hI.lt f hf sj hsj
        omega
  · intro f' hf' g' hg' sj' hsj' tj' htj' heq
    rcases hlists f' hf' with hnil | ⟨f, hf, hfid, hfstep⟩
    · simp [hnil] at hsj'
    rcases hlists g' hg' with hnil | ⟨g, hg, hgid, hgstep⟩
    · simp [hnil] at htj'
    rw [← hfid, ← hgid]
    rcases hfstep.mem_ids hsj' with ⟨sj, hsj, hsid⟩ | ⟨hsid, hfrun, -⟩ <;>
      rcases hgstep.mem_ids htj' with ⟨tj, htj, htid⟩ | ⟨htid, hgrun, -⟩
    · exact hI.apart f hf g hg sj hsj tj htj (by omega)
    · have := hI.lt f hf sj hsj
      omega
    · have := hI.lt g hg tj htj
      omega
    · exact congrArg Prod.fst (List.inj_on_of_nodup_map hcalls hfrun hgrun rfl)

/-- The numbers of the session jobs are apart in every run. -/
theorem kmdSystem_sessionJobsFresh {version : AipuVersion} {map : MemoryMap} {maxSchedNum : ℤ}
    (hmax : 0 ≤ maxSchedNum) {C : Kmd → KmdAction → Prop} {tr : List KmdEvent}
    (h : (kmdSystem version map maxSchedNum).Run C tr k) : k.SessionJobsFresh := by
  induction h with
  | start hs =>
    obtain ⟨-, -, hfiles, -⟩ := hs
    exact ⟨by simp [hfiles], by simp [hfiles], by simp [hfiles]⟩
  | next hrun hC hst ih =>
    have hjobs := kmdSystem_jobs hmax hrun
    have hjobs' := kmdSystem_jobs hmax (hrun.next hC hst)
    exact kmdStep_sessionJobsFresh ih hjobs'.callsNodup hst

end Lists

/-! ## What becomes of a queued job -/

section Kept

variable {max : ℤ} {tr : List JmEvent} {s s' : JmState} {es : List JmEvent} {a : JmAction}
  {j : AipuJob}

/-- A queued job is still queued after a move, and as valid as it was, unless the move removes,
retires or invalidates it. -/
theorem JmMove.kept (hinv : JobQueueInv max tr s) (h : JmMove s es s') (hj : j ∈ s.jm.jobs) :
    (∃ j' ∈ s'.jm.jobs, j.Evolves j' ∧ (j'.validFlag = j.validFlag ∨ .invalidated j.id ∈ es)) ∨
      .removed j.id ∈ es ∨ .retired j.id ∈ es := by
  have hsame : ∀ {jm : AipuJobManager}, j ∈ jm.jobs → ∃ j' ∈ jm.jobs, j.Evolves j' ∧
      (j'.validFlag = j.validFlag ∨ .invalidated j.id ∈ es) :=
    fun hj => ⟨j, hj, .refl j, .inl rfl⟩
  cases h with
  | control hjm =>
    left
    rw [hjm]
    exact hsame hj
  | note => exact .inl (hsame hj)
  | enqueue =>
    refine .inl (hsame ?_)
    rcases List.mem_append.mp hj with hj | hj
    · exact List.mem_append_left _ (List.mem_append_left _ hj)
    · exact List.mem_append_right _ hj
  | @trigger curr rest hpending =>
    rw [AipuJobManager.jobs, hpending, List.mem_append, List.mem_cons] at hj
    rcases hj with (rfl | hj) | hj
    · have hstate := hinv.pendingState j (by simp [hpending])
      refine .inl ⟨{ j with state := .sched }, ?_, ?_, .inl rfl⟩
      · exact List.mem_append_right _ (List.mem_append_right _ List.mem_cons_self)
      · exact ⟨rfl, rfl, rfl, rfl, rfl, by simp [hstate, AipuJobState.rank], id, by simp [hstate]⟩
    · exact .inl (hsame (List.mem_append_left _ hj))
    · exact .inl (hsame (List.mem_append_right _ (List.mem_append_left _ hj)))
  | @finish c flag hqueue hstate =>
    rw [AipuJobManager.jobs, hqueue, List.mem_append, Cursor.mem_toList] at hj
    rcases hj with hj | hj | rfl | hj
    · exact .inl (hsame (List.mem_append_left _ hj))
    · exact .inl (hsame (List.mem_append_right _ (List.mem_append_left _ hj)))
    · refine .inl ⟨{ c.entry with state := .finished, exceptionFlag := flag }, ?_, ?_, .inl rfl⟩
      · exact List.mem_append_right _ (List.mem_append_right _ List.mem_cons_self)
      · exact ⟨rfl, rfl, rfl, rfl, rfl, by simp [hstate, AipuJobState.rank], id, by simp [hstate]⟩
    · exact .inl (hsame (List.mem_append_right _ (List.mem_append_right _
        (List.mem_cons_of_mem _ hj))))
  | @invalidate job hjob hstate =>
    rw [hinv.nodup.clearValid_sched hjob]
    rcases List.mem_append.mp hj with hj | hj
    · exact .inl (hsame (List.mem_append_left _ hj))
    · left
      by_cases hid : j.id = job.id
      · obtain rfl := eq_of_id_eq hinv.nodup.sched hj hjob hid
        refine ⟨{ j with validFlag := false }, ?_, ?_, .inr (by simp)⟩
        · exact List.mem_append_right _ (List.mem_map.mpr ⟨j, hj, if_pos rfl⟩)
        · exact ⟨rfl, rfl, rfl, rfl, rfl, Nat.le_refl _, by simp, by simp [hstate]⟩
      · refine hsame (List.mem_append_right _ (List.mem_map.mpr ⟨j, hj, if_neg hid⟩))
  | @remove job hjob =>
    by_cases hid : j.id = job.id
    · exact .inr (.inl (by simp [hid]))
    · refine .inl (hsame ?_)
      rcases List.mem_append.mp hj with hj | hj
      · exact List.mem_append_left _ (List.mem_filter.mpr ⟨hj, by simpa using hid⟩)
      · exact List.mem_append_right _ (List.mem_filter.mpr ⟨hj, by simpa using hid⟩)
  | @retire job hjob =>
    by_cases hid : j.id = job.id
    · exact .inr (.inr (by simp [hid]))
    · refine .inl (hsame ?_)
      rcases List.mem_append.mp hj with hj | hj
      · exact List.mem_append_left _ (List.mem_filter.mpr ⟨hj, by simpa using hid⟩)
      · exact List.mem_append_right _ (List.mem_filter.mpr ⟨hj, by simpa using hid⟩)

/-- So it is after a sequence of moves. -/
theorem JmMoves.kept (hinv : JobQueueInv max tr s) (h : JmMoves s es s') (hj : j ∈ s.jm.jobs) :
    (∃ j' ∈ s'.jm.jobs, j.Evolves j' ∧ (j'.validFlag = j.validFlag ∨ .invalidated j.id ∈ es)) ∨
      .removed j.id ∈ es ∨ .retired j.id ∈ es := by
  induction h with
  | refl => exact .inl ⟨j, hj, .refl j, .inl rfl⟩
  | @tail s₁ s₂ es es' hmoves hmove ih =>
    rcases ih with ⟨j₁, hj₁, hev₁, hvalid₁⟩ | hremoved | hretired
    · rcases hmove.kept (hinv.moves hmoves) hj₁ with ⟨j₂, hj₂, hev₂, hvalid₂⟩ | hremoved | hretired
      · refine .inl ⟨j₂, hj₂, hev₁.trans hev₂, ?_⟩
        rcases hvalid₁ with hvalid₁ | hinvalid
        · rcases hvalid₂ with hvalid₂ | hinvalid
          · exact .inl (hvalid₂.trans hvalid₁)
          · exact .inr (List.mem_append_right _ (hev₁.id ▸ hinvalid))
        · exact .inr (List.mem_append_left _ hinvalid)
      · exact .inr (.inl (List.mem_append_right _ (hev₁.id ▸ hremoved)))
      · exact .inr (.inr (List.mem_append_right _ (hev₁.id ▸ hretired)))
    · exact .inr (.inl (List.mem_append_left _ hremoved))
    · exact .inr (.inr (List.mem_append_left _ hretired))

/-- The scan of the bottom half retires invalid jobs that have ended. -/
theorem bottomHalfScan_retired {queue : List AipuJob} {i : ℕ}
    (h : .retired i ∈ (bottomHalfScan queue).2.2) :
    ∃ j ∈ queue, j.id = i ∧ j.state = .finished ∧ j.validFlag = false := by
  induction queue with
  | nil => simp [bottomHalfScan] at h
  | cons curr rest ih =>
    have hrest : .retired i ∈ (bottomHalfScan rest).2.2 →
        ∃ j ∈ curr :: rest, j.id = i ∧ j.state = .finished ∧ j.validFlag = false := by
      intro h
      obtain ⟨j, hj, hspec⟩ := ih h
      exact ⟨j, List.mem_cons_of_mem _ hj, hspec⟩
    rw [bottomHalfScan] at h
    split at h
    · exact hrest h
    · rename_i hstate
      split at h
      · cases h
      · rename_i hvalid
        rcases List.mem_cons.mp h with heq | h
        · obtain rfl := JmEvent.retired.inj heq
          exact ⟨curr, List.mem_cons_self, rfl, by simpa using hstate, by simpa using hvalid⟩
        · exact hrest h

/-- The event takes the valid flag of a job or takes the job off the pending queue. -/
def JmEvent.drops : JmEvent → Bool
  | .removed _ | .invalidated _ => true
  | _ => false

/-- A note drops no job. -/
theorem JmEvent.drops_of_isNote {e : JmEvent} (he : e.isNote = true) : e.drops = false := by
  cases e <;> simp_all [JmEvent.isNote, JmEvent.drops]

/-- Scheduling drops no job. -/
theorem aipuSchedulePendingJobNoLock_drops {mem : SessionMem} {jm : AipuJobManager} :
    ∀ e ∈ (aipuSchedulePendingJobNoLock mem jm).2, e.drops = false := by
  unfold aipuSchedulePendingJobNoLock aipuJobManagerTriggerJobSched
  dsimp only
  split
  · simp
  · split_ifs <;> simp [JmEvent.drops]

/-- Recording an interrupt drops no job. -/
theorem aipuJobManagerUpdateJobStateIrq_drops {mem : SessionMem} {flag : ℤ} {jm : AipuJobManager} :
    ∀ e ∈ (aipuJobManagerUpdateJobStateIrq mem flag jm).2, e.drops = false := by
  unfold aipuJobManagerUpdateJobStateIrq
  split
  · exact aipuSchedulePendingJobNoLock_drops
  · refine List.forall_mem_append.mpr ⟨List.forall_mem_cons.mpr ⟨rfl, fun e he => ?_⟩,
      aipuSchedulePendingJobNoLock_drops⟩
    exact JmEvent.drops_of_isNote (endReads_isNote e he)

/-- The scan of the bottom half drops no job. -/
theorem bottomHalfScan_drops {queue : List AipuJob} :
    ∀ e ∈ (bottomHalfScan queue).2.2, e.drops = false := by
  induction queue with
  | nil => simp [bottomHalfScan]
  | cons curr rest ih =>
    rw [bottomHalfScan]
    split
    · exact ih
    · split
      · simp
      · exact List.forall_mem_cons.mpr ⟨rfl, ih⟩

/-- Only a kill or a cancel drops jobs. -/
theorem jmStep_drops (h : jmStep s a = some (s', es)) (ha : a.removesJobs = false) :
    ∀ e ∈ es, e.drops = false := by
  cases a with
  | kill | cancel => cases ha
  | submit mem sub =>
    obtain ⟨-, rfl⟩ := Prod.mk.inj (Option.some.inj h)
    exact List.forall_mem_cons.mpr ⟨rfl, aipuSchedulePendingJobNoLock_drops⟩
  | upperHalf mem flag =>
    obtain ⟨-, rfl⟩ := Prod.mk.inj (Option.some.inj h)
    exact aipuJobManagerUpdateJobStateIrq_drops
  | queueWork =>
    obtain ⟨-, -, rfl⟩ := jmStep_queueWork_cases h
    simp
  | bhStart =>
    obtain ⟨-, -, -, rfl⟩ := jmStep_bhStart_cases h
    exact bottomHalfScan_drops
  | bhDone =>
    obtain ⟨curr, next, -, -, rfl⟩ := jmStep_bhDone_cases h
    simp [JmEvent.drops]
  | bhResume =>
    obtain ⟨curr, next, -, -, rfl⟩ := jmStep_bhResume_cases h
    refine List.forall_mem_cons.mpr ⟨rfl, ?_⟩
    cases next with
    | none => simp [bottomHalfFrom]
    | some pos => exact bottomHalfScan_drops

/-- The bottom half retires the job that it has reported, and invalid jobs. -/
theorem jmStep_retired (h : jmStep s a = some (s', es)) {i : ℕ}
    (he : .retired i ∈ es) :
    (∃ curr, s.bh.returnedJob = some curr ∧ curr.id = i) ∨
      ∃ j ∈ s.jm.jobs, j.id = i ∧ j.validFlag = false := by
  have hscan : ∀ {queue : List AipuJob}, queue.Sublist s.jm.scheduledQueue →
      .retired i ∈ (bottomHalfScan queue).2.2 →
      ∃ j ∈ s.jm.jobs, j.id = i ∧ j.validFlag = false := by
    intro queue hsub he
    obtain ⟨j, hj, hid, -, hvalid⟩ := bottomHalfScan_retired he
    exact ⟨j, List.mem_append_right _ (hsub.subset hj), hid, hvalid⟩
  have hno : (∀ e ∈ es, e.retires = none) → False := fun hnone => by
    have := hnone _ he
    simp [JmEvent.retires] at this
  cases a with
  | submit mem sub =>
    obtain ⟨-, rfl⟩ := Prod.mk.inj (Option.some.inj h)
    exact (hno fun e he => (aipuJobManagerScheduleNewJob_events rfl e he).1).elim
  | upperHalf mem flag =>
    obtain ⟨-, rfl⟩ := Prod.mk.inj (Option.some.inj h)
    exact (hno fun e he => (aipuJobManagerUpdateJobStateIrq_events rfl e he).1).elim
  | queueWork =>
    obtain ⟨-, -, rfl⟩ := jmStep_queueWork_cases h
    cases he
  | kill mem tid jobId =>
    obtain ⟨-, rfl⟩ := Prod.mk.inj (Option.some.inj h)
    exact (hno (List.forall_mem_append.mpr
      ⟨aipuInvalidateTimeoutJob_events rfl, by simp [JmEvent.retires]⟩)).elim
  | cancel mem session =>
    obtain ⟨-, rfl⟩ := Prod.mk.inj (Option.some.inj h)
    exact (hno (aipuJobManagerCancelSessionJobs_events rfl)).elim
  | bhStart =>
    obtain ⟨-, -, -, rfl⟩ := jmStep_bhStart_cases h
    exact .inr (hscan (List.Sublist.refl _) he)
  | bhDone =>
    obtain ⟨curr, next, -, -, rfl⟩ := jmStep_bhDone_cases h
    simp at he
  | bhResume =>
    obtain ⟨curr, next, hreturned, -, rfl⟩ := jmStep_bhResume_cases h
    rcases List.mem_cons.mp he with heq | he
    · exact .inl ⟨curr, by rw [hreturned]; rfl, (JmEvent.retired.inj heq).symm⟩
    · cases next with
      | none => simp [bottomHalfFrom] at he
      | some pos =>
        refine .inr (hscan ?_ he)
        exact (List.dropWhile_sublist _).trans List.filter_sublist

/-- A valid job stays queued and valid in a step that is no kill and no cancel, until the bottom
half that has reported it retires it. -/
theorem jmStep_kept (hinv : JobQueueInv max tr s) (hbh : s.BhInv)
    (h : jmStep s a = some (s', es)) (ha : a.removesJobs = false) (hj : j ∈ s.jm.jobs)
    (hvalid : j.validFlag = true) :
    (∃ j' ∈ s'.jm.jobs, j.Evolves j' ∧ j'.validFlag = true) ∨ s.bh.returnedJob = some j := by
  obtain ⟨hmoves, -⟩ := jmStep_moves hinv hbh h
  have hdrops := jmStep_drops h ha
  rcases hmoves.kept hinv hj with ⟨j', hj', hev, hflag | hinvalid⟩ | hremoved | hretired
  · exact .inl ⟨j', hj', hev, hflag.trans hvalid⟩
  · have := hdrops _ hinvalid
    simp [JmEvent.drops] at this
  · have := hdrops _ hremoved
    simp [JmEvent.drops] at this
  · rcases jmStep_retired h hretired with ⟨curr, hcurr, hid⟩ | ⟨j₀, hj₀, hid, hinvalid⟩
    · have hmem : curr ∈ s.jm.scheduledQueue := by
        refine (hbh curr ?_).1
        cases hb : s.bh <;> simp_all [BottomHalf.returnedJob, BottomHalf.curr?]
      obtain rfl := hinv.eq_of_id (List.mem_append_right _ hmem) hj hid
      exact .inr hcurr
    · obtain rfl := hinv.eq_of_id hj₀ hj hid
      simp [hvalid] at hinvalid

/-- A submission queues the job, and it is valid. -/
theorem jmStep_submit_queued {mem : SessionMem} {sub : Submission} (hinv : JobQueueInv max tr s)
    (h : jmStep s (.submit mem sub) = some (s', es)) :
    ∃ j' ∈ s'.jm.jobs, (newJob s.nextJob sub).Evolves j' ∧ j'.validFlag = true := by
  obtain ⟨rfl, -⟩ := jmStep_submit_cases h
  have hmem : newJob s.nextJob sub ∈ AipuJobManager.jobs { s.jm with
      pendingQueue := s.jm.pendingQueue ++ [newJob s.nextJob sub] } :=
    List.mem_append_left _ (List.mem_append_right _ List.mem_cons_self)
  have hmoves := aipuSchedulePendingJobNoLock_moves (s := { s with
    jm := { s.jm with pendingQueue := s.jm.pendingQueue ++ [newJob s.nextJob sub] }
    nextJob := s.nextJob + 1 }) (rfl : aipuSchedulePendingJobNoLock mem _ = (_, _))
  have hnone : ∀ e ∈ (aipuSchedulePendingJobNoLock mem { s.jm with
      pendingQueue := s.jm.pendingQueue ++ [newJob s.nextJob sub] }).2,
      e.drops = false ∧ e.retires = none :=
    fun e he => ⟨aipuSchedulePendingJobNoLock_drops e he,
      (aipuSchedulePendingJobNoLock_events e he).1⟩
  rcases hmoves.kept (hinv.enqueue sub) hmem with ⟨j', hj', hev, hflag | hin⟩ | hin | hin
  · exact ⟨j', hj', hev, hflag⟩
  all_goals
    have := hnone _ hin
    simp [JmEvent.drops, JmEvent.retires] at this

end Kept

/-! ## RUNJOB calls that go on -/

/-- Only the second step of a RUNJOB call ends it. -/
theorem kmdStep_runJobs_kept {k k' : Kmd} {a : KmdAction} {es : List KmdEvent}
    (h : kmdStep k a = some (k', es)) :
    (∀ p ∈ k.runJobs, p ∈ k'.runJobs) ∨
      ∃ file userJob kernJob kzOk stale, a = .runSchedule file userJob kernJob kzOk stale := by
  cases kmdStep_runJobs h with
  | same hperm => exact .inl fun p hp => hperm.mem_iff.mpr hp
  | added file hcons => exact .inl fun p hp => hcons ▸ List.mem_cons_of_mem _ hp
  | finished file _ _ _ _ hcall => exact .inr ⟨file, hcall⟩

end Aipu
