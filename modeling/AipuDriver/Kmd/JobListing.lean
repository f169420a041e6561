import AipuDriver.Lib.Format
import AipuDriver.Kmd.JobEffects

/-!
# The listing of the jobs in sysfs (`aipu_job_manager.c`)

`aipu_job_manager_sysfs_job_show` prints a title, one line for each queued job and a rule into a
buffer of one page, with `strcat` and without looking at its size.  Each line has forty characters,
so that a page holds the lines of 97 jobs; the pending queue has no bound.

A job that is neither pending nor scheduled nor done would print a buffer on the stack that nobody
has written, so that the listing is `none` then; no job in a queue is in such a state
(`JobQueueInv.not_idle`).
-/

namespace Aipu

open Format Transition

/-! ## The program -/

/-- What was printed: the sum of what `snprintf` has returned, the text in the buffer, and the
number of jobs. -/
structure JobListing where
  ret : ℕ := 0
  buf : List Char := []
  number : ℕ := 0
deriving DecidableEq, Repr

/-- `ret += snprintf(tmp, ..); strcat(buf, tmp)` -/
def JobListing.print (l : JobListing) (printed : ℕ × List Char) : JobListing :=
  { l with ret := l.ret + printed.1, buf := l.buf ++ printed.2 }

/-- `tmp_size` -/
def tmpSize : ℕ := 512

/-- The rule above and below the title and at the end. -/
def listingRule : List Char := "-------------------------------------------\n".toList

/-- The title of the columns. -/
def listingTitle : List Char :=
  field 12 "Thread ID".toList ++ field 12 "Job ID".toList ++ field 10 "State".toList ++
    field 5 "Exception".toList ++ ['\n']

/-- `state_str` in `print_job_info`, which is not written for other states. -/
def AipuJobState.text : AipuJobState → Option (List Char)
  | .pending => some "Pending".toList
  | .sched => some "Executing".toList
  | .finished => some "Done".toList
  | .idle => none

/-- The line of a job. -/
def jobLine (job : AipuJob) (stateStr : List Char) : List Char :=
  field 12 (decimal job.uthreadId) ++ "0x".toList ++ field 10 (hex job.desc.jobId) ++
    field 10 stateStr ++
    field 5 (if job.exceptionFlag ≠ 0 then ['Y'] else ['N']) ++ ['\n']

/-- `print_job_info` -/
def printJobInfo (bufSize : ℕ) (job : AipuJob) : Option (ℕ × List Char) :=
  job.state.text.map fun stateStr => snprintf bufSize (jobLine job stateStr)

/-- The loop over a queue. -/
def JobListing.printQueue (l : JobListing) : List AipuJob → Option JobListing
  | [] => some l
  | curr :: rest =>
    (printJobInfo tmpSize curr).bind fun printed =>
      JobListing.printQueue { l.print printed with number := l.number + 1 } rest

/-- `aipu_job_manager_sysfs_job_show`: what it returns, and the text in the buffer. -/
def aipuJobManagerSysfsJobShow (jm : AipuJobManager) : Option (ℕ × List Char) :=
  let l := (({} : JobListing).print (snprintf tmpSize listingRule)).print
    (snprintf tmpSize listingTitle)
  let l := l.print (snprintf tmpSize listingRule)
  ((l.printQueue jm.pendingQueue).bind fun l => l.printQueue jm.scheduledQueue).map fun l =>
    let l := if l.number = 0 then l.print (snprintf tmpSize "No job.\n".toList) else l
    let l := l.print (snprintf tmpSize listingRule)
    (l.ret, l.buf)

/-! ## The property -/

/-- The listing with its NUL fits into a page, and the number of its characters is returned. -/
def AipuJobManager.ListingFits (jm : AipuJobManager) : Prop :=
  ∃ ret buf, aipuJobManagerSysfsJobShow jm = some (ret, buf) ∧ buf.length + 1 ≤ pageSize ∧
    ret = buf.length

/-- The thread is an `int`, and the id of the job a word of 32 bits. -/
def AipuJob.InRange (job : AipuJob) : Prop :=
  -2147483648 ≤ job.uthreadId ∧ job.uthreadId < 2147483648 ∧ job.desc.jobId < 4294967296

variable {jm : AipuJobManager} {job : AipuJob} {l : JobListing}

/-! ## Lengths -/

/-- A state that has a text has a short one. -/
theorem AipuJobState.length_text_le {state : AipuJobState} {text : List Char}
    (h : state.text = some text) :
    text.length ≤ 10 := by
  cases state <;> cases h <;> decide

/-- A state has a text unless it is `AIPU_JOB_STATE_IDLE`. -/
theorem AipuJobState.exists_text {state : AipuJobState} :
    (∃ text, state.text = some text) ↔ state ≠ .idle := by
  cases state <;> simp [AipuJobState.text]

/-- A line has forty characters. -/
theorem length_jobLine (hjob : job.InRange) {stateStr : List Char}
    (hstate : job.state.text = some stateStr) : (jobLine job stateStr).length = 40 := by
  obtain ⟨hlow, hhigh, hid⟩ := hjob
  have hdecimal := length_decimal_le hlow hhigh
  have hhex := length_hex_le hid
  have hflag : (if job.exceptionFlag ≠ 0 then ['Y'] else ['N']).length ≤ 5 := by split <;> decide
  simp only [jobLine, List.length_append,
    length_field_of_le (Nat.le_trans hdecimal (by decide : 11 ≤ 12)),
    length_field_of_le (Nat.le_trans hhex (by decide : 8 ≤ 10)),
      length_field_of_le (AipuJobState.length_text_le hstate),
    length_field_of_le hflag]
  rfl

/-- The lines of a queue, unless it has an idle job. -/
theorem JobListing.printQueue_cases {jobs : List AipuJob} (hjobs : ∀ job ∈ jobs, job.InRange)
    (l : JobListing) : (l.printQueue jobs = none ∧ ∃ job ∈ jobs, job.state = .idle) ∨
      (∃ l', l.printQueue jobs = some l' ∧ l'.ret = l.ret + 40 * jobs.length ∧
        l'.buf.length = l.buf.length + 40 * jobs.length ∧ l'.number = l.number + jobs.length) ∧
        ∀ job ∈ jobs, job.state ≠ .idle := by
  induction jobs generalizing l with
  | nil => exact .inr ⟨⟨l, rfl, rfl, rfl, rfl⟩, by simp⟩
  | cons curr rest ih =>
    by_cases hidle : curr.state = .idle
    · refine .inl ⟨?_, curr, List.mem_cons_self, hidle⟩
      simp [JobListing.printQueue, printJobInfo, hidle, AipuJobState.text]
    obtain ⟨stateStr, hstate⟩ := AipuJobState.exists_text.mpr hidle
    have hlength := length_jobLine (hjobs curr List.mem_cons_self) hstate
    have hprint : printJobInfo tmpSize curr = some (40, jobLine curr stateStr) := by
      rw [printJobInfo, hstate, Option.map_some, snprintf_of_lt (by rw [hlength]; decide), hlength]
    rw [JobListing.printQueue, hprint, Option.bind_some]
    rcases ih (fun job hjob => hjobs job (List.mem_cons_of_mem _ hjob))
      { l.print (40, jobLine curr stateStr) with number := l.number + 1 } with
      ⟨hnone, job, hjob, hstate'⟩ | ⟨⟨l', hl', hret, hbuf, hnumber⟩, hrest⟩
    · exact .inl ⟨hnone, job, List.mem_cons_of_mem _ hjob, hstate'⟩
    · refine .inr ⟨⟨l', hl', ?_, ?_, ?_⟩, fun job hjob => ?_⟩
      · rw [hret, List.length_cons]
        change l.ret + 40 + 40 * rest.length = l.ret + 40 * (rest.length + 1)
        omega
      · rw [hbuf, List.length_cons]
        simp only [JobListing.print, List.length_append, hlength]
        omega
      · rw [hnumber, List.length_cons]
        change l.number + 1 + rest.length = l.number + (rest.length + 1)
        omega
      · rcases List.mem_cons.mp hjob with rfl | hjob
        · exact hidle
        · exact hrest job hjob

/-- The length of the listing, unless a job is idle. -/
theorem aipuJobManagerSysfsJobShow_cases (hjobs : ∀ job ∈ jm.jobs, job.InRange) :
    (aipuJobManagerSysfsJobShow jm = none ∧ ∃ job ∈ jm.jobs, job.state = .idle) ∨
      (∃ ret buf, aipuJobManagerSysfsJobShow jm = some (ret, buf) ∧ ret = buf.length ∧
        buf.length = 176 + if jm.jobs = [] then 8 else 40 * jm.jobs.length) ∧
        ∀ job ∈ jm.jobs, job.state ≠ .idle := by
  have hrule : snprintf tmpSize listingRule = (44, listingRule) := by decide
  have htitle : snprintf tmpSize listingTitle = (44, listingTitle) := by decide
  have hno : snprintf tmpSize "No job.\n".toList = (8, "No job.\n".toList) := by decide
  have hlen : listingRule.length = 44 ∧ listingTitle.length = 44 ∧
      "No job.\n".toList.length = 8 := by decide
  obtain ⟨hlen₁, hlen₂, hlen₃⟩ := hlen
  unfold aipuJobManagerSysfsJobShow
  simp only [hrule, htitle, hno]
  have hpending : ∀ job ∈ jm.pendingQueue, job.InRange :=
    fun job hjob => hjobs job (List.mem_append_left _ hjob)
  have hsched : ∀ job ∈ jm.scheduledQueue, job.InRange :=
    fun job hjob => hjobs job (List.mem_append_right _ hjob)
  rcases JobListing.printQueue_cases hpending
    (((({} : JobListing).print (44, listingRule)).print (44, listingTitle)).print
      (44, listingRule)) with
    ⟨hnone, job, hjob, hidle⟩ | ⟨⟨l₁, hl₁, hret₁, hbuf₁, hnumber₁⟩, hpidle⟩
  · exact .inl ⟨by rw [hnone]; rfl, job, List.mem_append_left _ hjob, hidle⟩
  rcases JobListing.printQueue_cases hsched l₁ with
    ⟨hnone, job, hjob, hidle⟩ | ⟨⟨l₂, hl₂, hret₂, hbuf₂, hnumber₂⟩, hsidle⟩
  · exact .inl ⟨by rw [hl₁, Option.bind_some, hnone]; rfl, job, List.mem_append_right _ hjob, hidle⟩
  refine .inr ⟨?_, fun job hjob => (List.mem_append.mp hjob).elim (hpidle job) (hsidle job)⟩
  rw [hl₁, Option.bind_some, hl₂, Option.map_some]
  refine ⟨_, _, rfl, ?_⟩
  have hjobs' : jm.jobs.length = jm.pendingQueue.length + jm.scheduledQueue.length :=
    List.length_append
  simp only [JobListing.print, List.length_append, List.length_nil, hlen₁, hlen₂,
    Nat.zero_add] at hret₁ hbuf₁ hnumber₁
  have hempty : l₂.number = 0 ↔ jm.jobs = [] := by
    rw [← List.length_eq_zero_iff]
    omega
  by_cases h0 : l₂.number = 0
  · rw [if_pos h0, if_pos (hempty.mp h0)]
    simp only [JobListing.print, List.length_append, hlen₁, hlen₃]
    omega
  · rw [if_neg h0, if_neg fun h => h0 (hempty.mpr h)]
    simp only [JobListing.print, List.length_append, hlen₁]
    omega

/-- The listing of the jobs stays in its page, and its length is returned, exactly when at most 97
jobs are queued and none of them is idle. -/
theorem sysfs_listing_fits_iff (hjobs : ∀ job ∈ jm.jobs, job.InRange) : jm.ListingFits ↔
    (∀ job ∈ jm.jobs, job.state ≠ .idle) ∧ jm.jobs.length ≤ 97 := by
  unfold AipuJobManager.ListingFits
  rcases aipuJobManagerSysfsJobShow_cases hjobs with
    ⟨hnone, job, hjob, hidle⟩ | ⟨⟨ret, buf, hshow, hret, hlen⟩, hstates⟩
  · refine iff_of_false ?_ fun h => h.1 job hjob hidle
    rintro ⟨ret, buf, hshow, -⟩
    rw [hnone] at hshow
    cases hshow
  · have hpage : buf.length + 1 ≤ pageSize ↔ jm.jobs.length ≤ 97 := by
      rw [hlen, pageSize]
      split
      next hnil => simp [hnil]
      next => omega
    rw [← hpage]
    constructor
    · rintro ⟨ret', buf', hshow', hfits, -⟩
      obtain ⟨-, rfl⟩ := Prod.mk.inj (Option.some.inj (hshow.symm.trans hshow'))
      exact ⟨hstates, hfits⟩
    · rintro ⟨-, hfits⟩
      exact ⟨ret, buf, hshow, hfits, hret⟩

/-- A job of thread 1. -/
def sampleSubmission :
    Submission := { uthreadId := 1, desc := { jobId := 65536 }, session := 0, sessionJob := 0 }

/-- A core that runs one job. -/
def sampleListed : AipuJobManager :=
  { aipuInitJobManager 1 false [] with
    scheduledQueue := [{ initAipuJob 0 sampleSubmission with state := .sched }], schedNum := 1 }

/-- The line of the job that runs fits. -/
theorem sysfs_listing_fits_iff_sample : (∀ job ∈ sampleListed.jobs, job.InRange) ∧
    (sampleListed.ListingFits ↔
      (∀ job ∈ sampleListed.jobs, job.state ≠ .idle) ∧ sampleListed.jobs.length ≤ 97) := by
  have hjobs : ∀ job ∈ sampleListed.jobs, job.InRange := fun job hjob => by
    obtain rfl := List.mem_singleton.mp hjob
    exact ⟨by decide, by decide, by decide⟩
  exact ⟨hjobs, sysfs_listing_fits_iff hjobs⟩

/-! ## A listing that leaves its page -/

/-- A job manager whose core is busy leaves the queues alone. -/
theorem aipuSchedulePendingJobNoLock_full {mem : SessionMem}
    (hfull : ¬ jm.schedNum < jm.maxSchedNum) :
    aipuSchedulePendingJobNoLock mem jm = (jm, []) := by
  unfold aipuSchedulePendingJobNoLock
  split
  · rfl
  · rw [if_neg hfull]

/-- Any number of jobs is queued behind one that runs. -/
theorem exists_queued_jobs (n : ℕ) :
    ∃ tr s, (jmSystem 1 false).Run anyStep tr s ∧ s.jm.jobs.length = n + 1 ∧
    (∀ job ∈ s.jm.jobs, job.InRange ∧ job.state ≠ .idle) ∧ ¬ s.jm.schedNum < s.jm.maxSchedNum := by
  have hrange : -2147483648 ≤ sampleSubmission.uthreadId ∧ sampleSubmission.uthreadId < 2147483648 ∧
      sampleSubmission.desc.jobId < 4294967296 := by decide
  induction n with
  | zero =>
    have hinit : (jmSystem 1 false).init (.initial 1 false []) := ⟨[], rfl⟩
    obtain ⟨s, es, hstep, hqueue⟩ : ∃ s es, (jmSystem 1 false).step (.initial 1 false [])
        (.submit sampleMem sampleSubmission) = some (s, es) ∧ s.jm.jobs.length = 1 ∧
        (∀ job ∈ s.jm.jobs, job.InRange ∧ job.state ≠ .idle) ∧
          ¬ s.jm.schedNum < s.jm.maxSchedNum := by
      refine ⟨_, _, rfl, rfl, fun job hjob => ?_, by decide⟩
      obtain rfl := List.mem_singleton.mp hjob
      exact ⟨hrange, by decide⟩
    exact ⟨_, s, (System.Run.start hinit).next trivial hstep, hqueue⟩
  | succ n ih =>
    obtain ⟨tr, s, hrun, hlen, hjobs, hfull⟩ := ih
    let job : AipuJob := { initAipuJob s.nextJob sampleSubmission with state := .pending }
    let jm : AipuJobManager := { s.jm with pendingQueue := s.jm.pendingQueue ++ [job] }
    have hstep : (jmSystem 1 false).step s (.submit sampleMem sampleSubmission) =
        some ({ s with jm := jm, nextJob := s.nextJob + 1 }, [.submitted s.nextJob]) := by
      have hsched : aipuSchedulePendingJobNoLock sampleMem jm = (jm, []) :=
        aipuSchedulePendingJobNoLock_full hfull
      simp only [jmSystem, jmStep, aipuJobManagerScheduleNewJob]
      rw [hsched]
    refine ⟨_, _, hrun.next trivial hstep, ?_, fun job' hjob' => ?_, hfull⟩
    · rw [← hlen]
      simp only [AipuJobManager.jobs, jm, List.length_append, List.length_singleton]
      omega
    · simp only [AipuJobManager.jobs, jm, List.mem_append, List.mem_singleton] at hjob'
      rcases hjob' with (hjob' | rfl) | hjob'
      · exact hjobs job' (List.mem_append_left _ hjob')
      · exact ⟨hrange, by intro h; cases h⟩
      · exact hjobs job' (List.mem_append_right _ hjob')

/-- With 98 jobs the NUL falls behind the page. -/
theorem sysfs_listing_leaves_page :
    ∃ tr s ret buf, (jmSystem 1 false).Run anyStep tr s ∧ s.jm.jobs.length = 98 ∧
    (∀ job ∈ s.jm.jobs, job.InRange ∧ job.state ≠ .idle) ∧
    aipuJobManagerSysfsJobShow s.jm = some (ret, buf) ∧ buf.length + 1 = 4097 ∧
      ¬ s.jm.ListingFits := by
  obtain ⟨tr, s, hrun, hlen, hjobs, -⟩ := exists_queued_jobs 97
  rcases aipuJobManagerSysfsJobShow_cases fun job hjob => (hjobs job hjob).1 with
    ⟨-, job, hjob, hidle⟩ | ⟨⟨ret, buf, hshow, -, hbuf⟩, -⟩
  · exact absurd hidle (hjobs job hjob).2
  have hne : s.jm.jobs ≠ [] := List.ne_nil_of_length_pos (by omega)
  rw [if_neg hne, hlen] at hbuf
  refine ⟨tr, s, ret, buf, hrun, hlen, hjobs, hshow, by omega, ?_⟩
  rintro ⟨ret', buf', hshow', hfits, -⟩
  obtain ⟨-, rfl⟩ := Prod.mk.inj (Option.some.inj (hshow.symm.trans hshow'))
  rw [pageSize] at hfits
  omega

end Aipu
