import AipuDriver.Kmd.DriverJobs

/-!
# Reporting exceptions

The upper half passes the exception flag of a job to `aipu_job_manager_update_job_state_irq`, which
stores it in the job; the bottom half hands it to `aipu_session_job_done`, and there it is lost: the
session job gets the type `AIPU_EXCEP_NO_EXCEPTION` for every flag.  No session job ever has another
type, so every record that a status query returns says `DONE`.
-/

namespace Aipu

open ListSearch Transition

/-! ## Records -/

section Reports

variable {k k' : Kmd} {a : KmdAction} {es : List KmdEvent}

/-- A status record is made by a status query, of an ended session job of the file that matches. -/
theorem kmdStep_reported (h : kmdStep k a = some (k', es)) {file sessionJob : ℕ}
    {status : JobStatusDesc} (he : .reported file sessionJob status ∈ es) :
    ∃ query kzOk notCopied notCopiedQuery, a = .query file query kzOk notCopied notCopiedQuery ∧
      ∃ f ∈ k.files, f.id = file ∧ ∃ sj ∈ f.session.jobList, sj.id = sessionJob ∧
        query.matches sj = true ∧ status = f.session.statusOf sj := by
  have hjm : ∀ ja, k.runJm ja = some (k', es) → False := by
    intro ja h
    obtain ⟨js, jes, -, -, rfl⟩ := Kmd.runJm_cases h
    simp at he
  cases a with
  | query file' query kzOk notCopied notCopiedQuery =>
    obtain ⟨c, ret, kept, taken, hc, hperm, -, hmatch, -, rfl⟩ := queryStatus_cases h
    obtain ⟨hl, hid, -⟩ := Kmd.inPhase_eq_some hc
    rcases List.mem_append.mp he with he | he
    · split at he
      · obtain ⟨sj, hsj, heq⟩ := List.mem_map.mp he
        obtain ⟨rfl, rfl, rfl⟩ : file' = file ∧ sj.id = sessionJob ∧
            c.entry.session.statusOf sj = status := by simpa using heq
        exact ⟨query, kzOk, notCopied, notCopiedQuery, rfl, c.entry, hl ▸ c.entry_mem, hid, sj,
          hperm.mem_iff.mp (List.mem_append_right _ hsj), rfl, hmatch sj hsj, rfl⟩
      · cases he
    · simp at he
  | openFile pid kz =>
    rcases aipuOpen_cases h with ⟨-, rfl⟩ | ⟨-, rfl⟩ <;> simp at he
  | reqAlloc file tid kz req buf =>
    obtain ⟨c, r, -, -, ⟨-, -, rfl⟩ | ⟨-, -, rfl⟩⟩ := reqbufAlloc_cases h <;> simp at he
  | reqAdd file req buf kzOk =>
    obtain ⟨-, c, ret, -, rfl, -⟩ := reqbufAdd_cases h
    simp at he
  | freeDetach file desc =>
    obtain ⟨c, -, ⟨d, -, rfl, -⟩ | ⟨-, -, rfl⟩⟩ := freebufDetach_cases h <;> simp at he
  | freeMm file desc =>
    obtain ⟨-, -, rfl⟩ := freebufFree_cases h
    simp at he
  | mmap file vma err =>
    obtain ⟨c, ret, -, rfl, -⟩ := aipuMmap_cases h
    simp at he
  | munmap file map front len =>
    obtain ⟨c, -, -, -, rfl, -⟩ := munmapPages_cases h
    cases he
  | runAdd file tid userJob kz =>
    obtain ⟨c, -, ⟨waitQueue, userJob', rfl, -⟩ | ⟨-, rfl⟩⟩ := runjobAdd_cases h <;> simp at he
  | runSchedule file userJob kernJob kzOk stale =>
    obtain ⟨-, ⟨-, js, jes, -, -, rfl⟩ | ⟨-, -, rfl⟩⟩ := runjobSchedule_cases h <;> simp at he
  | kill file tid jobId stale =>
    obtain ⟨js, jes, -, -, rfl⟩ := killTimeoutJob_cases h
    simp at he
  | pollRegister file tid =>
    obtain ⟨c, single, queues, -, rfl, -⟩ := aipuPollRegister_cases h
    simp at he
  | pollCheck file tid =>
    obtain ⟨-, ready, rfl⟩ := aipuPollCheck_cases h
    simp at he
  | upperHalf flag stale => exact (hjm (.upperHalf (k.mem stale) flag) h).elim
  | queueWork => exact (hjm .queueWork h).elim
  | bhStart => exact (hjm .bhStart h).elim
  | bhDone =>
    obtain ⟨curr, next, woken, -, rfl, -⟩ := bottomHalfDone_cases h
    simp at he
  | bhResume => exact (hjm .bhResume h).elim
  | relCancel file stale =>
    obtain ⟨c, js, jes, -, -, -, -, -, rfl⟩ := releaseCancel_cases h
    simp at he
  | relDelete file =>
    obtain ⟨c, -, rfl, -⟩ := releaseDelete_cases h
    cases he
  | relFree file =>
    obtain ⟨c, -, ⟨-, -, rfl⟩ | ⟨sbuf, rest, desc, -, -, -, -, rfl⟩⟩ := releaseFree_cases h <;>
      simp at he
  | relDetach file =>
    obtain ⟨c, desc, -, -, rfl, -⟩ := releaseDetach_cases h
    cases he
  | relDestroy file =>
    obtain ⟨c, ret, -, rfl, -⟩ := releaseDestroy_cases h
    simp at he

end Reports

/-! ## Runs -/

/-- No session job has an exception. -/
def Kmd.NoExceptions (k : Kmd) : Prop :=
  ∀ f ∈ k.files, ∀ sj ∈ f.session.jobList, sj.exceptionType = aipuExcepNoException

/-- Session jobs begin without an exception and `aipu_session_job_done` gives them none. -/
theorem FilesStep.noExceptions {k k' : Kmd} {a : KmdAction} (h : FilesStep k a k')
    (hI : k.NoExceptions) : k'.NoExceptions := by
  intro f' hf' sj' hsj'
  rcases h.mem_of hf' with ⟨f, hf, hstep⟩ | ⟨pid, rfl⟩
  · rcases hstep.origin sj' hsj' with hold | ⟨sj, -, rfl⟩ | ⟨tid, desc, rfl⟩
    · exact hI f hf sj' hold
    · rfl
    · rfl
  · cases hsj'

/-- The state that the status record of a job should have when the job ended with the flag. -/
def stateForFlag (flag : ℤ) : ReportedState :=
  if flag = aipuExcepNoException then .done else .exception

/-- **Exceptions.**  In every run, a valid job whose end was recorded with the flag `flag` is
reported in the state that belongs to the flag if and only if the flag says that there was no
exception. -/
theorem exception_report (version : AipuVersion) (map : MemoryMap) (maxSchedNum : ℤ)
    {tr : List KmdEvent} {k : Kmd}
    (h : (kmdSystem version map maxSchedNum).Run anyStep tr k) :
    ∀ job sessionJob flag alive file status,
      .job (.ended job sessionJob flag true) alive ∈ tr → .reported file sessionJob status ∈ tr →
      (status.state = stateForFlag flag ↔ flag = aipuExcepNoException) := by
  have hdone : k.NoExceptions ∧
      ∀ file sessionJob status, .reported file sessionJob status ∈ tr → status.state = .done := by
    induction h with
    | start hs =>
      obtain ⟨-, -, hfiles, -⟩ := hs
      exact ⟨by simp [Kmd.NoExceptions, hfiles], by simp⟩
    | next _ _ hst ih =>
      obtain ⟨hI, htr⟩ := ih
      refine ⟨(kmdStep_files hst).noExceptions hI, fun file sessionJob status he => ?_⟩
      rcases List.mem_append.mp he with he | he
      · exact htr file sessionJob status he
      · obtain ⟨query, kzOk, _, _, -, f, hf, -, sj, hsj, -, -, rfl⟩ := kmdStep_reported hst he
        simp [AipuSession.statusOf, hI f hf sj hsj]
  intro job sessionJob flag alive file status _ hreported
  rw [hdone.2 file sessionJob status hreported, stateForFlag]
  by_cases hflag : flag = aipuExcepNoException <;> simp [hflag]

/-! ## Sample runs -/

/-- One job from RUNJOB to the report of its end, with the exception flag `flag`. -/
def oneJobReported (flag : ℤ) : List KmdAction :=
  [.openFile 7 [], .runAdd 0 7 { desc := { jobId := 1 } } [],
    .runSchedule 0 { desc := { jobId := 1 } } (initSessionJob 0 7 { jobId := 1 }) true sampleMem,
    .upperHalf flag sampleMem, .queueWork, .bhStart, .bhDone, .bhResume,
    .query 0 { jobId := 1, getSingleJob := true, maxCnt := 1 } true 0 0]

/-- A job that ends without an exception is reported as done. -/
theorem exception_report_sample :
    ∃ tr k, (kmdSystem .zhouyiV2 sampleMap 1).Run anyStep tr k ∧
      .job (.ended 0 0 0 true) true ∈ tr ∧ .reported 0 0 ⟨1, 7, .done⟩ ∈ tr ∧
      (ReportedState.done = stateForFlag 0 ↔ (0 : ℤ) = aipuExcepNoException) := by
  have hexec : ∃ k es, (kmdSystem .zhouyiV2 sampleMap 1).exec anyStep sampleKmd
      (oneJobReported 0) = some (k, es) ∧ .job (.ended 0 0 0 true) true ∈ es ∧
      .reported 0 0 ⟨1, 7, .done⟩ ∈ es := ⟨_, _, rfl, by decide, by decide⟩
  obtain ⟨k, es, hexec, hend, hreport⟩ := hexec
  have hrun := System.run_of_exec sampleKmd_init hexec
  exact ⟨es, k, hrun, hend, hreport,
    exception_report .zhouyiV2 sampleMap 1 hrun 0 0 0 true 0 _ hend hreport⟩

/-- A job that ends with an exception is reported as done, too. -/
theorem exception_not_reported :
    ∃ tr k, (kmdSystem .zhouyiV2 sampleMap 1).Run anyStep tr k ∧
      .job (.ended 0 0 1 true) true ∈ tr ∧ .reported 0 0 ⟨1, 7, .done⟩ ∈ tr ∧
      ReportedState.done ≠ stateForFlag 1 := by
  have hexec : ∃ k es, (kmdSystem .zhouyiV2 sampleMap 1).exec anyStep sampleKmd
      (oneJobReported 1) = some (k, es) ∧ .job (.ended 0 0 1 true) true ∈ es ∧
      .reported 0 0 ⟨1, 7, .done⟩ ∈ es := ⟨_, _, rfl, by decide, by decide⟩
  obtain ⟨k, es, hexec, hend, hreport⟩ := hexec
  exact ⟨es, k, System.run_of_exec sampleKmd_init hexec, hend, hreport, by decide⟩

end Aipu
