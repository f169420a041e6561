import AipuDriver.Kmd.BottomHalf
import AipuDriver.Kmd.KillFinal

/-!
# The session job lists and the queues

RUNJOB puts a session job into the list of the session and then a job that refers to it into the
pending queue.  The release of a file undoes both: it cancels the jobs and deletes the session jobs.
A kill, and a RUNJOB call whose second allocation fails, undo one of them only, and so does a cancel
where it hits the jobs of another session of the same process.  The entry that is left in the list
never becomes END.  Without such steps the two agree.
-/

namespace Aipu

open ListSearch Transition

/-- The entry `sj` of the list of `f` has ended, or exactly one valid job that is queued refers to
it, or a RUNJOB call is going to queue one. -/
def Kmd.Awaited (k : Kmd) (f : KmdFile) (sj : SessionJob) : Prop :=
  sj.state = .finished ∨
    (∃! j, j ∈ k.js.jm.jobs ∧ j.validFlag = true ∧ j.sessionJob = sj.id) ∨
    (f.id, sj.id) ∈ k.runJobs

/-- The list of an open session holds no other entries. -/
def Kmd.ListsAgree (k : Kmd) : Prop :=
  ∀ f ∈ k.files, f.phase = .opened → ∀ sj ∈ f.session.jobList, k.Awaited f sj

/-- The step takes no job away whose session job stays in the list of an open session: the second
allocation of a RUNJOB call succeeds, a kill finds no job that is pending, or running and valid, and
a cancel concerns such jobs of its own session only. -/
def KeepsAgreement (k : Kmd) (a : KmdAction) : Prop :=
  match a with
  | .runSchedule _ _ _ kzOk _ => kzOk = true
  | .kill _ tid jobId _ =>
    (seek (fun job => job.uthreadId = tid ∧ job.desc.jobId = jobId) k.js.jm.pendingQueue).isNone ∧
      ∀ job ∈ ((seek (fun job => job.uthreadId = tid ∧ job.desc.jobId = jobId)
        k.js.jm.scheduledQueue).map Cursor.entry).toList, ¬job.Active
  | .relCancel file stale =>
    ∀ job ∈ k.js.jm.jobs, job.Active → (k.mem stale).Cancels file job → job.session = file
  | _ => True

instance : DecidableRel KeepsAgreement := fun k a => by
  rcases a <;> unfold KeepsAgreement <;> infer_instance

section Agreement

variable {k k' : Kmd} {a : KmdAction} {es : List KmdEvent} {max : ℤ} {jtr : List JmEvent}

/-! ## Where session jobs are -/

/-- The session job of a queued job is in the list of the job's session, if anywhere. -/
def Kmd.Placed (k : Kmd) : Prop :=
  ∀ j ∈ k.js.jm.jobs, ∀ f ∈ k.files, ∀ sj ∈ f.session.jobList, sj.id = j.sessionJob →
    f.id = j.session

/-- The session job of a RUNJOB call is in the list of the call's session. -/
theorem Kmd.JobsInv.call_placed (hI : k.JobsInv) (hfresh : k.SessionJobsFresh) {p : ℕ × ℕ}
    (hp : p ∈ k.runJobs) {f : KmdFile} (hf : f ∈ k.files) {sj : SessionJob}
    (hsj : sj ∈ f.session.jobList) (hid : sj.id = p.2) : f.id = p.1 := by
  obtain ⟨g, hg, hgid, -, tj, htj, htid, -⟩ := hI.calls p hp
  rw [← hgid]
  exact hfresh.apart f hf g hg sj hsj tj htj (hid.trans htid.symm)

/-- Every step leaves session jobs in the lists where they belong. -/
theorem Kmd.Placed.step (hP : k.Placed) (hI : k.JobsInv) (hfresh : k.SessionJobsFresh)
    (hq : JobQueueInv max jtr k.js) (hbh : k.js.BhInv) (h : kmdStep k a = some (k', es)) :
    k'.Placed := by
  intro j' hj' f' hf' sj' hsj' hid
  rcases kmdStep_jobLists h f' hf' with hnil | ⟨f, hf, hfid, hstep⟩
  · simp [hnil] at hsj'
  rw [← hfid]
  rcases hstep.mem_ids hsj' with ⟨sj, hsj, hsid⟩ | ⟨hnew, -, -⟩ <;>
    rcases kmdStep_evolves hq hbh h j' hj' with ⟨j, hj, hev⟩ | ⟨mem, sub, ha, hev⟩ <;>
    rw [hev.sessionJob] at hid
  · rw [hev.session]
    exact hP j hj f hf sj hsj (hsid.trans hid)
  · rw [hev.session]
    have hcall := ((kmdStep_runJobs h).submits hI ha).1
    exact hI.call_placed hfresh hcall hf hsj (hsid.trans hid)
  · have := hI.jobsLt j hj
    omega
  · have hcall := ((kmdStep_runJobs h).submits hI ha).1
    have hlt := hI.callsLt _ hcall
    have hsub : (newJob k.js.nextJob sub).sessionJob = sub.sessionJob := rfl
    dsimp only at hlt
    omega

/-! ## The bottom half between its call and its lock -/

/-- The job that the bottom half has reported has a session job that has ended, if it still has
one. -/
def Kmd.ReturnedDone (k : Kmd) : Prop :=
  ∀ curr, k.js.bh.returnedJob = some curr → ∀ f ∈ k.files, ∀ sj ∈ f.session.jobList,
    sj.id = curr.sessionJob → sj.state = .finished

/-- The bottom half has reported its job since before the step, or it reports it in the step. -/
theorem jmStep_returnedJob {s s' : JmState} {b : JmAction} {jes : List JmEvent}
    (hinv : JobQueueInv max jtr s) (h : jmStep s b = some (s', jes)) {curr : AipuJob}
    (hcurr : s'.bh.returnedJob = some curr) :
    s.bh.returnedJob = some curr ∨ (b = .bhDone ∧ s.bh.callingJob = some curr) := by
  have hother : b.isBottomHalf = false → s.bh.returnedJob = some curr := fun hb =>
    (jmStep_scheduled hinv h hb).1 ▸ hcurr
  have hscan : ∀ queue, (bottomHalfScan queue).2.1.returnedJob ≠ some curr := by
    intro queue hreturned
    rcases bottomHalfScan_spec (rfl : bottomHalfScan queue = (_, _, _)) with
      ⟨hrest, -⟩ | ⟨c, -, hcalling, -⟩
    · rw [hrest] at hreturned
      cases hreturned
    · rw [hcalling] at hreturned
      cases hreturned
  cases b with
  | submit | upperHalf | queueWork | kill | cancel => exact .inl (hother rfl)
  | bhStart =>
    obtain ⟨-, -, rfl, -⟩ := jmStep_bhStart_cases h
    exact absurd hcurr (hscan _)
  | bhDone =>
    obtain ⟨curr', next, hcalling, rfl, -⟩ := jmStep_bhDone_cases h
    refine .inr ⟨rfl, ?_⟩
    rw [hcalling]
    exact hcurr
  | bhResume =>
    obtain ⟨curr', next, -, rfl, -⟩ := jmStep_bhResume_cases h
    cases next with
    | none => cases hcurr
    | some pos => exact absurd hcurr (hscan _)

/-- A session job that has ended stays so while it is in a list. -/
theorem JobListStep.ended {f f' : KmdFile} (h : JobListStep k a k' f f') {x : ℕ}
    (hx : x < k.nextSessionJob)
    (hended : ∀ sj ∈ f.session.jobList, sj.id = x → sj.state = .finished) :
    ∀ sj' ∈ f'.session.jobList, sj'.id = x → sj'.state = .finished := by
  intro sj' hsj' hid
  cases h with
  | taken hsub => exact hended sj' (hsub.subset hsj') hid
  | added tid desc _ _ hlist =>
    rw [hlist, List.mem_cons] at hsj'
    rcases hsj' with rfl | hsj'
    · have : k.nextSessionJob = x := hid
      omega
    · exact hended sj' hsj' hid
  | reported c _ hlist hlist' =>
    rw [hlist', List.mem_append, List.mem_cons] at hsj'
    rcases hsj' with hsj' | rfl | hsj'
    · exact hended sj' (hlist ▸ Cursor.mem_toList.mpr (.inl hsj')) hid
    · rfl
    · exact hended sj' (hlist ▸ Cursor.mem_toList.mpr (.inr (.inr hsj'))) hid

/-- The call of the bottom half finishes the session job in every list that holds it. -/
theorem bottomHalfDone_ended (hI : k.JobsInv) (hP : k.Placed) (hbh : k.js.BhInv)
    (hfiles' : k'.FilesFresh) (hfresh' : k'.SessionJobsFresh)
    (h : kmdStep k .bhDone = some (k', es)) {curr : AipuJob}
    (hcurr : k.js.bh.callingJob = some curr) :
    ∀ f ∈ k'.files, ∀ sj ∈ f.session.jobList, sj.id = curr.sessionJob → sj.state = .finished := by
  have hmem : curr ∈ k.js.jm.jobs :=
    List.mem_append_right _ (hbh curr (BottomHalf.curr?_of_callingJob hcurr)).1
  obtain ⟨curr', next, woken, hbhs, -, hcase⟩ := bottomHalfDone_cases h
  obtain rfl : curr' = curr := by
    rw [hbhs] at hcurr
    exact Option.some.inj hcurr
  intro f' hf' sj' hsj' hid
  rcases hcase with ⟨c, d, hc, hd, rfl, -⟩ | ⟨hnone, rfl⟩
  · obtain ⟨hjobs, hdid, -⟩ := seek_eq_some hd
    have hdid : d.entry.done.id = curr'.sessionJob := by simpa [SessionJob.done] using hdid
    -- the list of the session holds the finished one, so that is the one at hand
    have hdone : d.entry.done ∈ d.before ++ d.entry.done :: d.after :=
      List.mem_append_right _ List.mem_cons_self
    obtain ⟨-, rfl⟩ := hfresh'.eq_of_id hfiles' hf'
      (List.mem_append_right c.before List.mem_cons_self) hsj' hdone (hid.trans hdid.symm)
    rfl
  · exfalso
    have hplace := hP curr' hmem f' hf' sj' hsj' hid
    obtain ⟨c, hc⟩ := exists_seek (p := fun f : KmdFile => f.id = curr'.session) hf'
      (by simpa using hplace)
    obtain ⟨hl, hfile, -⟩ := seek_eq_some hc
    have hfile : c.entry.id = curr'.session := by simpa using hfile
    obtain rfl := hI.files.eq_of_id hf' (hl ▸ c.entry_mem) (hplace.trans hfile.symm)
    have := seek_eq_none.mp (hnone c hc) sj' hsj'
    simp [hid] at this

/-- Every step keeps the session job of the reported job finished. -/
theorem Kmd.ReturnedDone.step (hR : k.ReturnedDone) (hI : k.JobsInv) (hP : k.Placed)
    (hq : JobQueueInv max jtr k.js) (hbh : k.js.BhInv) (hfiles' : k'.FilesFresh)
    (hfresh' : k'.SessionJobsFresh) (h : kmdStep k a = some (k', es)) : k'.ReturnedDone := by
  intro curr hcurr f' hf' sj' hsj' hid
  have hback : k.js.bh.returnedJob = some curr ∨
      (a = .bhDone ∧ k.js.bh.callingJob = some curr) := by
    rcases kmdStep_jm h with ⟨-, hjs, -⟩ | ⟨b, jes, hb, hst, -⟩
    · exact .inl (hjs ▸ hcurr)
    · rcases jmStep_returnedJob hq hst hcurr with hold | ⟨rfl, hcalling⟩
      · exact .inl hold
      · refine .inr ⟨?_, hcalling⟩
        unfold KmdAction.jmAction at hb
        split at hb <;> cases hb
        rfl
  rcases hback with hold | ⟨rfl, hcalling⟩
  · have hmem : curr ∈ k.js.jm.jobs := by
      refine List.mem_append_right _ (hbh curr ?_).1
      cases hb : k.js.bh <;> simp_all [BottomHalf.returnedJob, BottomHalf.curr?]
    rcases kmdStep_jobLists h f' hf' with hnil | ⟨f, hf, -, hstep⟩
    · simp [hnil] at hsj'
    · exact hstep.ended (hI.jobsLt curr hmem) (hR curr hold f hf) sj' hsj' hid
  · exact bottomHalfDone_ended hI hP hbh hfiles' hfresh' h hcalling f' hf' sj' hsj' hid

/-! ## The agreement -/

/-- Jobs are killed by KILL_TIMEOUT_JOB and canceled by the release of a file. -/
theorem jmAction_removes {b : JmAction} (hb : a.jmAction k = some b)
    (hremoves : b.removesJobs = true) :
    (∃ file tid jobId stale, a = .kill file tid jobId stale ∧ b = .kill (k.mem stale) tid jobId) ∨
      ∃ file stale, a = .relCancel file stale ∧ b = .cancel (k.mem stale) file := by
  unfold KmdAction.jmAction at hb
  split at hb
  case h_2 => exact .inl ⟨_, _, _, _, rfl, (Option.some.inj hb).symm⟩
  case h_8 => exact .inr ⟨_, _, rfl, (Option.some.inj hb).symm⟩
  all_goals
    cases hb
    try cases hremoves

/-- A valid queued job is still queued and valid after a step that keeps the agreement, unless the
bottom half has reported it, or it belongs to a session whose release starts. -/
theorem kmdStep_valid_kept (hq : JobQueueInv max jtr k.js) (hbh : k.js.BhInv)
    (hC : KeepsAgreement k a) (h : kmdStep k a = some (k', es)) {j : AipuJob}
    (hj : j ∈ k.js.jm.jobs) (hvalid : j.validFlag = true) :
    (∃ j' ∈ k'.js.jm.jobs, j.Evolves j' ∧ j'.validFlag = true) ∨
      k.js.bh.returnedJob = some j ∨ a.Cancels j.session := by
  rcases kmdStep_jm h with ⟨-, hjs, -⟩ | ⟨b, jes, hb, hst, -⟩
  · rw [hjs]
    exact .inl ⟨j, hj, .refl j, hvalid⟩
  cases hremoves : b.removesJobs with
  | false =>
    rcases jmStep_kept hq hbh hst hremoves hj hvalid with hkept | hreturned
    · exact .inl hkept
    · exact .inr (.inl hreturned)
  | true =>
    have hsame : k'.js.jm.jobs = k.js.jm.jobs →
        ∃ j' ∈ k'.js.jm.jobs, j.Evolves j' ∧ j'.validFlag = true :=
      fun hjobs => ⟨j, hjobs ▸ hj, .refl j, hvalid⟩
    rcases jmAction_removes hb hremoves with
      ⟨file, tid, jobId, stale, rfl, rfl⟩ | ⟨file, stale, rfl, rfl⟩
    · obtain ⟨hpending, hsched⟩ := hC
      rcases jmStep_kill_cases hq hst with
        ⟨c, hseek, -, -⟩ | ⟨-, ⟨c, hseek, hstate, hjs, -⟩ | ⟨-, hjs, -⟩⟩
      · simp [-Bool.decide_and, hseek] at hpending
      · -- the job that is hit was invalid before
        have hinvalid : c.entry.validFlag = false := by
          by_contra hv
          exact hsched c.entry (by simp [-Bool.decide_and, hseek])
            (.inr ⟨hstate, by simpa using hv⟩)
        refine .inl (hsame ?_)
        have hentry : { c.entry with validFlag := false } = c.entry := by rw [← hinvalid]
        rw [hjs, hentry, AipuJobManager.jobs, AipuJobManager.jobs, (seek_eq_some hseek).1]
        rfl
      · exact .inl (hsame (by rw [hjs]))
    · have hcancels : j.Active → (k.mem stale).Cancels file j →
          (KmdAction.relCancel file stale).Cancels j.session :=
        fun hactive hcancel => ⟨stale, by rw [hC j hj hactive hcancel]⟩
      rw [jmStep_cancel_eq hq hst]
      rcases List.mem_append.mp hj with hpending | hsched
      · by_cases hcancel : (k.mem stale).Cancels file j
        · exact .inr (.inr (hcancels (.inl (hq.pendingState j hpending)) hcancel))
        · refine .inl ⟨j, List.mem_append_left _ ?_, .refl j, hvalid⟩
          exact List.mem_filter.mpr ⟨hpending, by simpa using hcancel⟩
      · by_cases hcancel : (k.mem stale).Cancels file j ∧ j.state = .sched
        · exact .inr (.inr (hcancels (.inr ⟨hcancel.2, hvalid⟩) hcancel.1))
        · refine .inl ⟨j, List.mem_append_right _ ?_, .refl j, hvalid⟩
          exact List.mem_map.mpr ⟨j, hsched, if_neg hcancel⟩

/-- A valid queued job is the only one that refers to its session job. -/
theorem Kmd.JobsInv.awaited (hI : k.JobsInv) (hq : JobQueueInv max jtr k.js) {j : AipuJob}
    (hj : j ∈ k.js.jm.jobs) (hvalid : j.validFlag = true) :
    ∃! j', j' ∈ k.js.jm.jobs ∧ j'.validFlag = true ∧ j'.sessionJob = j.sessionJob := by
  refine ⟨j, ⟨hj, hvalid, rfl⟩, ?_⟩
  rintro j' ⟨hj', -, hsj⟩
  exact hq.eq_of_id hj' hj (hI.unique j' hj' j hj hsj)

/-- A RUNJOB call goes on, or it has queued its job. -/
theorem kmdStep_call_kept (hI' : k'.JobsInv) {jtr' : List JmEvent}
    (hq : JobQueueInv max jtr k.js) (hq' : JobQueueInv max jtr' k'.js) (hC : KeepsAgreement k a)
    (h : kmdStep k a = some (k', es)) {p : ℕ × ℕ} (hp : p ∈ k.runJobs) :
    p ∈ k'.runJobs ∨
      ∃! j, j ∈ k'.js.jm.jobs ∧ j.validFlag = true ∧ j.sessionJob = p.2 := by
  rcases kmdStep_runJobs_kept h with hkept | ⟨file, userJob, kernJob, kzOk, stale, rfl⟩
  · exact .inl (hkept p hp)
  obtain rfl : kzOk = true := hC
  obtain ⟨hop, ⟨-, js, jes, hst, rfl, -⟩ | ⟨hfalse, -⟩⟩ := runjobSchedule_cases h
  · have hperm : k.runJobs.Perm ((file, kernJob.id) ::
        (k.ops.erase (.runjob file userJob kernJob)).filterMap KmdOp.runJob) :=
      (List.perm_cons_erase hop).filterMap KmdOp.runJob
    rcases List.mem_cons.mp (hperm.mem_iff.mp hp) with rfl | hp
    · obtain ⟨j, hj, hev, hvalid⟩ := jmStep_submit_queued hq hst
      have huniq := hI'.awaited hq' hj hvalid
      rw [hev.sessionJob] at huniq
      exact .inr huniq
    · exact .inl hp
  · cases hfalse

/-- A step that keeps the agreement keeps it. -/
theorem Kmd.ListsAgree.step (hA : k.ListsAgree) (hI : k.JobsInv) (hP : k.Placed)
    (hR : k.ReturnedDone) (hI' : k'.JobsInv) {jtr' : List JmEvent}
    (hq : JobQueueInv max jtr k.js) (hq' : JobQueueInv max jtr' k'.js) (hbh : k.js.BhInv)
    (hC : KeepsAgreement k a) (h : kmdStep k a = some (k', es)) : k'.ListsAgree := by
  intro f' hf' hphase sj' hsj'
  rcases kmdStep_jobLists h f' hf' with hnil | ⟨f, hf, hid, hlist⟩
  · simp [hnil] at hsj'
  -- the file was open, and its release does not start
  obtain ⟨hphase₀, hcancel⟩ : f.phase = .opened ∧ ¬a.Cancels f.id := by
    rcases (kmdStep_files h).mem_of hf' with ⟨f₁, hf₁, hfile⟩ | ⟨pid, rfl⟩
    · obtain rfl := hI.files.eq_of_id hf₁ hf (hfile.id.symm.trans hid.symm)
      refine ⟨hfile.notReopened hphase, ?_⟩
      rintro ⟨stale, rfl⟩
      obtain ⟨c, js, jes, hc, -, -, -, rfl, -⟩ := releaseCancel_cases h
      obtain ⟨hl, hcid, -⟩ := Kmd.inPhase_eq_some hc
      obtain rfl := hI'.files.eq_of_id hf' (List.mem_append_right c.before List.mem_cons_self)
        (hid.symm.trans hcid.symm)
      cases hphase
    · cases hsj'
  have hold : ∀ sj ∈ f.session.jobList, k'.Awaited f' sj := by
    intro sj hsj
    rcases hA f hf hphase₀ sj hsj with hended | ⟨j, ⟨hj, hvalid, href⟩, -⟩ | hcall
    · exact .inl hended
    · rcases kmdStep_valid_kept hq hbh hC h hj hvalid with
        ⟨j', hj', hev, hvalid'⟩ | hreturned | hreleased
      · have huniq := hI'.awaited hq' hj' hvalid'
        rw [hev.sessionJob, href] at huniq
        exact .inr (.inl huniq)
      · exact .inl (hR j hreturned f hf sj hsj href.symm)
      · rw [← hP j hj f hf sj hsj href.symm] at hreleased
        exact absurd hreleased hcancel
    · rcases kmdStep_call_kept hI' hq hq' hC h hcall with hcall' | huniq
      · exact .inr (.inr (hid ▸ hcall'))
      · exact .inr (.inl huniq)
  cases hlist with
  | taken hsub => exact hold sj' (hsub.subset hsj')
  | added tid desc hrun _ hlist =>
    rw [hlist, List.mem_cons] at hsj'
    rcases hsj' with rfl | hsj'
    · exact .inr (.inr (hid ▸ hrun))
    · exact hold sj' hsj'
  | reported c _ hlist hlist' =>
    rw [hlist', List.mem_append, List.mem_cons] at hsj'
    rcases hsj' with hsj' | rfl | hsj'
    · exact hold sj' (hlist ▸ Cursor.mem_toList.mpr (.inl hsj'))
    · exact .inl rfl
    · exact hold sj' (hlist ▸ Cursor.mem_toList.mpr (.inr (.inr hsj')))

/-- An open session that holds a session job which can no longer end does not agree with the
queues. -/
theorem Kmd.Serves.not_agree {session sessionJob : ℕ} (hserves : k.Serves session sessionJob)
    (hjobs : ∀ j ∈ k.js.jm.jobs, j.sessionJob = sessionJob → j.validFlag = false)
    (hcalls : ∀ p ∈ k.runJobs, p.2 ≠ sessionJob) : ¬k.ListsAgree := by
  obtain ⟨f, hf, -, hphase, sj, hsj, rfl, hstate⟩ := hserves
  intro hA
  rcases hA f hf hphase sj hsj with hended | ⟨j, ⟨hj, hvalid, href⟩, -⟩ | hcall
  · exact hstate hended
  · simp [hjobs j hj href] at hvalid
  · exact hcalls _ hcall rfl

/-- A RUNJOB call that runs out of memory leaves a session job behind. -/
theorem runjobSchedule_not_agree {file : ℕ} {userJob : UserJob} {kernJob : SessionJob}
    {stale : SessionMem} (hI : k.JobsInv)
    (h : kmdStep k (.runSchedule file userJob kernJob false stale) = some (k', es)) :
    ¬k'.ListsAgree := by
  obtain ⟨hop, ⟨htrue, -⟩ | ⟨-, rfl, -⟩⟩ := runjobSchedule_cases h
  · cases htrue
  have hperm : k.runJobs.Perm ((file, kernJob.id) ::
      (k.ops.erase (.runjob file userJob kernJob)).filterMap KmdOp.runJob) :=
    (List.perm_cons_erase hop).filterMap KmdOp.runJob
  have hcall : (file, kernJob.id) ∈ k.runJobs := hperm.mem_iff.mpr List.mem_cons_self
  have hserves : Kmd.Serves { k with ops := k.ops.erase (.runjob file userJob kernJob) } file
      kernJob.id := hI.calls _ hcall
  refine hserves.not_agree (fun j hj hsj => absurd hsj (hI.apart j hj _ hcall)) ?_
  intro p hp heq
  have hnodup := (hperm.map Prod.snd).nodup_iff.mp hI.callsNodup
  exact (List.nodup_cons.mp hnodup).1 (List.mem_map.mpr ⟨p, hp, heq⟩)

/-- A kill that hits an active job leaves its session job behind. -/
theorem kill_not_agree {file jobId : ℕ} {tid : ℤ} {stale : SessionMem} (hI : k.JobsInv)
    (hU : k.Unreported) (hq : JobQueueInv max jtr k.js)
    (h : kmdStep k (.kill file tid jobId stale) = some (k', es)) {job : AipuJob}
    (hjob : job ∈ k.js.jm.jobs) (hactive : job.Active) (hhit : KillHits es job) :
    ¬k'.ListsAgree := by
  have hdead := kill_dead hI hU hq h hjob hhit
  obtain ⟨js, jes, -, rfl, -⟩ := killTimeoutJob_cases h
  have hserves : Kmd.Serves { k with js := js } job.session job.sessionJob :=
    hI.active job hjob hactive
  exact hserves.not_agree hdead.jobs hdead.calls

/-- A release that cancels an active job of another session leaves its session job behind. -/
theorem releaseCancel_not_agree {file : ℕ} {stale : SessionMem} (hI : k.JobsInv)
    (hq : JobQueueInv max jtr k.js) (h : kmdStep k (.relCancel file stale) = some (k', es))
    {job : AipuJob} (hjob : job ∈ k.js.jm.jobs) (hactive : job.Active)
    (hcancel : (k.mem stale).Cancels file job) (hother : job.session ≠ file) :
    ¬k'.ListsAgree := by
  obtain ⟨c, js, jes, hc, -, -, hst, rfl, -⟩ := releaseCancel_cases h
  obtain ⟨hl, hcid, -⟩ := Kmd.inPhase_eq_some hc
  have hjm := jmStep_cancel_eq hq hst
  obtain ⟨f, hf, hid, hphase, sj, hsj, hsid, hstate⟩ := hI.active job hjob hactive
  have hf' : f ∈ c.before ++ { c.entry with phase := .canceled } :: c.after := by
    rw [hl, Cursor.mem_toList] at hf
    rcases hf with hf | rfl | hf
    · exact List.mem_append_left _ hf
    · exact absurd (hid.symm.trans hcid) hother
    · exact List.mem_append_right _ (List.mem_cons_of_mem _ hf)
  have hserves : Kmd.Serves { k with
      files := c.before ++ { c.entry with phase := .canceled } :: c.after, js := js } job.session
      job.sessionJob := ⟨f, hf', hid, hphase, sj, hsj, hsid, hstate⟩
  have honly : ∀ j ∈ k.js.jm.jobs, j.sessionJob = job.sessionJob → j = job :=
    fun j hj hsj => hq.eq_of_id hj hjob (hI.unique j hj job hjob hsj)
  refine hserves.not_agree (fun j' hj' hsj' => ?_)
    fun p hp heq => hI.apart job hjob p hp heq.symm
  have hj' : j' ∈ js.jm.jobs := hj'
  rw [hjm] at hj'
  rcases List.mem_append.mp hj' with hj' | hj'
  · obtain ⟨hj, hkept⟩ := List.mem_filter.mp hj'
    obtain rfl := honly j' (List.mem_append_left _ hj) hsj'
    exact absurd hcancel (by simpa using hkept)
  · obtain ⟨j, hj, rfl⟩ := List.mem_map.mp hj'
    have hsame : ((k.mem stale).cancel file j).sessionJob = j.sessionJob := by
      unfold SessionMem.cancel
      split <;> rfl
    obtain rfl := honly j (List.mem_append_right _ hj) (hsame.symm.trans hsj')
    rcases hactive with hpending | ⟨hsched, -⟩
    · rcases hq.schedState j hj with hs | hs <;> simp [hpending] at hs
    · rw [SessionMem.cancel, if_pos ⟨hcancel, hsched⟩]

/-- A step that takes an active job away leaves lists that do not agree. -/
theorem kmdStep_not_agree (hI : k.JobsInv) (hU : k.Unreported) (hq : JobQueueInv max jtr k.js)
    (hC : ¬KeepsAgreement k a) (h : kmdStep k a = some (k', es)) : ¬k'.ListsAgree := by
  unfold KeepsAgreement at hC
  split at hC
  · rename_i file userJob kernJob kzOk stale
    obtain rfl : kzOk = false := by simpa using hC
    exact runjobSchedule_not_agree hI h
  · rename_i file tid jobId stale
    obtain ⟨js, jes, hst, -, hes⟩ := killTimeoutJob_cases h
    rcases jmStep_kill_cases hq hst with
      ⟨c, hseek, -, rfl⟩ | ⟨hnone, ⟨c, hseek, hstate, -, rfl⟩ | ⟨hended, -, -⟩⟩
    · have hmem : c.entry ∈ k.js.jm.pendingQueue := (seek_eq_some hseek).1 ▸ c.entry_mem
      refine kill_not_agree hI hU hq h (List.mem_append_left _ hmem)
        (.inl (hq.pendingState _ hmem)) ⟨true, .inl ?_⟩
      simp [hes, Kmd.alive]
    · have hmem : c.entry ∈ k.js.jm.scheduledQueue := (seek_eq_some hseek).1 ▸ c.entry_mem
      have hvalid : c.entry.validFlag = true := by
        by_contra hinvalid
        refine hC ⟨by simp [-Bool.decide_and, hnone], fun job hjob => ?_⟩
        obtain rfl : job = c.entry := by simpa [-Bool.decide_and, hseek] using hjob
        rintro (hpending | ⟨-, hvalid⟩)
        · simp [hstate] at hpending
        · exact hinvalid hvalid
      refine kill_not_agree hI hU hq h (List.mem_append_right _ hmem) (.inr ⟨hstate, hvalid⟩)
        ⟨true, .inr ?_⟩
      simp [hes, Kmd.alive]
    · refine absurd ⟨by simp [-Bool.decide_and, hnone], fun job hjob => ?_⟩ hC
      cases hseek : seek (fun job : AipuJob => job.uthreadId = tid ∧ job.desc.jobId = jobId)
          k.js.jm.scheduledQueue with
      | none => simp [-Bool.decide_and, hseek] at hjob
      | some c =>
        obtain rfl : job = c.entry := by simpa [-Bool.decide_and, hseek] using hjob
        rintro (hpending | ⟨hsched, -⟩)
        · simp [hended c hseek] at hpending
        · simp [hended c hseek] at hsched
  · rename_i file stale
    push Not at hC
    obtain ⟨job, hjob, hactive, hcancel, hother⟩ := hC
    exact releaseCancel_not_agree hI hq h hjob hactive hcancel hother
  · exact absurd trivial hC

/-- What the agreement needs holds in every run. -/
theorem kmdSystem_placed {version : AipuVersion} {map : MemoryMap} {maxSchedNum : ℤ}
    (hmax : 0 ≤ maxSchedNum) {C : Kmd → KmdAction → Prop} {tr : List KmdEvent}
    (h : (kmdSystem version map maxSchedNum).Run C tr k) : k.Placed ∧ k.ReturnedDone := by
  induction h with
  | start hs =>
    obtain ⟨-, ⟨idle, hjs⟩, hfiles, -⟩ := hs
    constructor
    · intro j hj
      simp [hjs, JmState.initial, aipuInitJobManager, AipuJobManager.jobs] at hj
    · intro curr hcurr
      simp [hjs, JmState.initial, BottomHalf.returnedJob] at hcurr
  | next hrun hC hst ih =>
    obtain ⟨hq, hbh⟩ := kmdSystem_jm hmax hrun
    have hI := kmdSystem_jobs hmax hrun
    have hrun' := hrun.next hC hst
    refine ⟨ih.1.step hI (kmdSystem_sessionJobsFresh hmax hrun) hq hbh hst, ?_⟩
    exact ih.2.step hI ih.1 hq hbh (kmdSystem_jobs hmax hrun').files
      (kmdSystem_sessionJobsFresh hmax hrun') hst

end Agreement

/-! ## The theorem -/

/-- **Lists and queues.**  In every run whose RUNJOB calls do not run out of memory between their
two steps, whose kills find no job that is pending, or running and valid, and whose releases cancel
no such job of another session: every session job in the list of an open session has ended, or
exactly one valid job that is queued refers to it, or a RUNJOB call is going to queue one.  The next
step keeps it so if and only if it meets this condition, too. -/
theorem lists_agree {version : AipuVersion} {map : MemoryMap} {maxSchedNum : ℤ}
    (hmax : 1 ≤ maxSchedNum) {tr : List KmdEvent} {k : Kmd}
    (h : (kmdSystem version map maxSchedNum).Run KeepsAgreement tr k) :
    k.ListsAgree ∧ ∀ a k' es, (kmdSystem version map maxSchedNum).step k a = some (k', es) →
      (k'.ListsAgree ↔ KeepsAgreement k a) := by
  have hmax₀ : 0 ≤ maxSchedNum := Int.le_of_lt hmax
  have hstep : ∀ {tr k a k' es}, (kmdSystem version map maxSchedNum).Run KeepsAgreement tr k →
      k.ListsAgree → KeepsAgreement k a →
      (kmdSystem version map maxSchedNum).step k a = some (k', es) → k'.ListsAgree := by
    intro tr k a k' es hrun hA hC hst
    obtain ⟨hq, hbh⟩ := kmdSystem_jm hmax₀ hrun
    have hrun' := hrun.next hC hst
    obtain ⟨hq', -⟩ := kmdSystem_jm hmax₀ hrun'
    obtain ⟨hP, hR⟩ := kmdSystem_placed hmax₀ hrun
    exact hA.step (kmdSystem_jobs hmax₀ hrun) hP hR (kmdSystem_jobs hmax₀ hrun') hq hq' hbh hC hst
  have hA : k.ListsAgree := by
    induction h with
    | start hs =>
      obtain ⟨-, -, hfiles, -⟩ := hs
      intro f hf
      simp [hfiles] at hf
    | next hrun hC hst ih => exact hstep hrun ih hC hst
  refine ⟨hA, fun a k' es hst => ⟨fun hA' => ?_, fun hC => hstep h hA hC hst⟩⟩
  by_contra hC
  obtain ⟨hq, -⟩ := kmdSystem_jm hmax₀ h
  exact kmdStep_not_agree (kmdSystem_jobs hmax₀ h) (kmdSystem_unreported hmax₀ h) hq hC hst hA'

/-- One job ends while the other one is pending, and a kill that names neither of them keeps the
agreement. -/
theorem lists_agree_sample :
    ∃ tr k k' es, (kmdSystem .zhouyiV2 sampleMap 1).Run KeepsAgreement tr k ∧ k.ListsAgree ∧
      kmdStep k (.kill 0 7 3 sampleMem) = some (k', es) ∧ k'.ListsAgree := by
  obtain ⟨k, tr, k', es, hexec, hkill, hC⟩ : ∃ k tr k' es,
      (kmdSystem .zhouyiV2 sampleMap 1).exec KeepsAgreement sampleKmd
        (oneRunningOnePending ++ [.upperHalf 0 sampleMem, .queueWork, .bhStart, .bhDone]) =
          some (k, tr) ∧
      kmdStep k (.kill 0 7 3 sampleMem) = some (k', es) ∧
      KeepsAgreement k (.kill 0 7 3 sampleMem) :=
    ⟨_, _, _, _, rfl, rfl, by decide⟩
  obtain ⟨hA, hnext⟩ := lists_agree (by decide) (System.run_of_exec sampleKmd_init hexec)
  exact ⟨tr, k, k', es, System.run_of_exec sampleKmd_init hexec, hA, hkill,
    (hnext (.kill 0 7 3 sampleMem) k' es hkill).mpr hC⟩

/-- The pending job is killed: its session job stays in the list, and no job refers to it. -/
theorem lists_disagree :
    ∃ tr k, (kmdSystem .zhouyiV2 sampleMap 1).Run anyStep tr k ∧ ¬k.ListsAgree := by
  obtain ⟨k, tr, hexec, hserves, hjobs, hcalls⟩ : ∃ k tr,
      (kmdSystem .zhouyiV2 sampleMap 1).exec anyStep sampleKmd
        (oneRunningOnePending ++ [.kill 0 7 2 sampleMem]) = some (k, tr) ∧
      (∃ f ∈ k.files, f.id = 0 ∧ f.phase = .opened ∧
        ∃ sj ∈ f.session.jobList, sj.id = 1 ∧ sj.state ≠ .finished) ∧
      (∀ j ∈ k.js.jm.jobs, j.sessionJob = 1 → j.validFlag = false) ∧
      ∀ p ∈ k.runJobs, p.2 ≠ 1 :=
    ⟨_, _, rfl, by decide, by decide, by decide⟩
  have hserves : k.Serves 0 1 := hserves
  exact ⟨tr, k, System.run_of_exec sampleKmd_init hexec, hserves.not_agree hjobs hcalls⟩

end Aipu
