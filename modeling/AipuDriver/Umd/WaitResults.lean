import AipuDriver.Kmd.ExceptionReport
import AipuDriver.Kmd.StatusQueries
import AipuDriver.Umd.JobStates

/-!
# What a wait returns

`wait_for_job_end` without `poll_opt` issues `poll`, which wakes up for any job of the thread that
has ended, and then QUERYSTATUS for the one job that it waits for.  When another job of the thread
has ended first, the query finds nothing, and the wait fails although its job is still running.  So
a wait returns the result of its job as long as `poll` does not report another job first
(`AwaitedFirst`): the jobs are waited for in the order in which they end.

The invariant has two parts.  `StatesInv` and `CompletionInv` need that no wait gives up and that no
id is used twice, which follows here from the states of the jobs (`PlainInv.states`).  And from the
check of `poll` on that reports the awaited job, its session job stays in the list until the query
takes it (`kmdStep_hasEnded`).
-/

namespace Aipu

open ListSearch Transition

/-! ## The property -/

/-- The waits are without `poll_opt` and without a time limit, RUNJOB is accepted, and `poll` and
QUERYSTATUS transfer their data. -/
def PlainWaits (s : Runtime) : RuntimeAction → Prop
  | .flushJob tid jobId kz => RunjobAccepted s (.flushJob tid jobId kz)
  | .runSchedule kzOk stale => RunjobAccepted s (.runSchedule kzOk stale)
  | .waitForJobEnd _ _ timeOut => s.ctx.pollOpt = false ∧ timeOut ≤ 0
  | .pollFail => False
  | .query kzOk notCopied notCopiedQuery => kzOk = true ∧ notCopied = 0 ∧ notCopiedQuery = 0
  | _ => True

instance plainWaitsDecidable : DecidableRel PlainWaits :=
  fun s a => by rcases a <;> unfold PlainWaits <;> infer_instance

/-- The file is open and its list holds a session job for the id that has ended. -/
def KmdFile.HasEnded (f : KmdFile) (jobId : ℕ) : Prop :=
  f.phase = .opened ∧ ∃ sj ∈ f.session.jobList, sj.desc.jobId = jobId ∧ sj.state = .finished

instance hasEndedDecidable (f : KmdFile) : DecidablePred f.HasEnded :=
  fun _ => inferInstanceAs (Decidable (_ ∧ _))

/-- The system call `poll` that is running. -/
def UmdCall.polling : UmdCall → Option DevPoll
  | .poll p _ => some p
  | _ => none

/-- If the thread of a wait finds that a job has ended, the awaited job has ended. -/
def Runtime.FindsAwaited (s : Runtime) (p : DevPoll) : Prop :=
  p.pollSingleJob = true → ∀ f ∈ s.kmd.files, s.fd = some f.id → f.phase = .opened →
    aipuSessionThreadHasEndJob f.session p.tid = true → f.HasEnded p.jobId

instance findsAwaitedDecidable (s : Runtime) : DecidablePred s.FindsAwaited := fun p => by
  unfold Runtime.FindsAwaited
  infer_instance

/-- A check of `poll` in a wait reports the awaited job, if it reports any. -/
def AwaitedFirst (s : Runtime) : RuntimeAction → Prop
  | .pollCheck => ∀ p ∈ (s.call.bind UmdCall.polling).toList, s.FindsAwaited p
  | _ => True

instance awaitedFirstDecidable : DecidableRel AwaitedFirst :=
  fun s a => by rcases a <;> unfold AwaitedFirst <;> infer_instance

/-- The job for which the step waits. -/
def Runtime.awaits (s : Runtime) : RuntimeAction → Option ℕ
  | .waitForJobEnd _ jobId _ => some jobId
  | _ => s.waitsFor

/-- When a wait for a job that was flushed returns, it returns success and the final status of the
job, which the job has, too; and the job was triggered and has ended. -/
def Runtime.ReturnsOwnResult (tr : List RuntimeEvent) (s : Runtime) (a : RuntimeAction)
    (s' : Runtime) (es : List RuntimeEvent) : Prop :=
  ∀ ret status jobId job, .returned ret status ∈ es → s.awaits a = some jobId →
    s.ctx.getJob jobId = some job → job.state ≠ .built →
      ret = .success ∧ status = some .done ∧
        s'.ctx.getJob jobId = some { job with state := .done } ∧
        Genuine (tr ++ es) job.addr

/-! ## Ended session jobs stay -/

section Kernel

variable {k k' : Kmd} {a : KmdAction} {es : List KmdEvent} {f : KmdFile} {jobId : ℕ}

/-- An edit keeps the session jobs that have ended, unless it is made by a call about jobs on the
file. -/
theorem FileEdit.hasEnded {f' : KmdFile} (hedit : FileEdit k k' es a f f')
    (hcall : a.jobCall ≠ some f.id) (hended : f.HasEnded jobId) : f'.HasEnded jobId := by
  cases hedit with
  | reqAdd | freeDetach | mmap | munmap => exact hended
  | runAdd | query | pollRegister | relCancel | relDelete | buffersFreed | relFree | relDetach
  | detachFailed | destroyFailed => exact absurd rfl hcall
  | done curr next d _ _ hlist =>
    obtain ⟨hphase, sj, hsj, hid, hstate⟩ := hended
    refine ⟨hphase, ?_⟩
    rw [hlist, Cursor.mem_toList] at hsj
    rcases hsj with hsj | rfl | hsj
    · exact ⟨sj, List.mem_append_left _ hsj, hid, hstate⟩
    · exact ⟨_, List.mem_append_right _ List.mem_cons_self, hid, rfl⟩
    · exact ⟨sj, List.mem_append_right _ (List.mem_cons_of_mem _ hsj), hid, hstate⟩

/-- A session job that has ended stays in the list of its file, as long as no call about jobs is
made on the file. -/
theorem kmdStep_hasEnded (h : kmdStep k a = some (k', es)) (hf : f ∈ k.files)
    (hcall : a.jobCall ≠ some f.id) (hended : f.HasEnded jobId) :
    ∃ f' ∈ k'.files, f'.id = f.id ∧ f'.HasEnded jobId := by
  rcases (kmdStep_edits h).of_mem hf with hf' | ⟨f', hf', hedit⟩ | ⟨-, hclosed, -⟩
  · exact ⟨f, hf', rfl, hended⟩
  · exact ⟨f', hf', hedit.step.id, hedit.hasEnded hcall hended⟩
  · simp [hended.1] at hclosed

/-- QUERYSTATUS for one job that has ended reports a session job of it. -/
theorem queryStatus_single {file : ℕ} {c : Cursor KmdFile} (hc : k.inPhase file .opened = some c)
    (hended : c.entry.HasEnded jobId) :
    ∃ sj ∈ c.entry.session.jobList, sj.desc.jobId = jobId ∧ ∃ kept,
      queryStatus k file { maxCnt := 1, getSingleJob := true, jobId := jobId } true 0 0 =
        some (k.setFile c { c.entry with session := { c.entry.session with jobList := kept } },
          [.reported file sj.id (c.entry.session.statusOf sj), .returned file 0]) := by
  set query : JobStatusQuery := { maxCnt := 1, getSingleJob := true, jobId := jobId }
  have hmatches : ∀ sj : SessionJob, query.matches sj = true ↔
      sj.desc.jobId = jobId ∧ sj.state = .finished := by
    intro sj
    simp [query, JobStatusQuery.matches]
  obtain ⟨-, sj₀, hsj₀, hid₀, hstate₀⟩ := hended
  have hmem : sj₀ ∈ c.entry.session.jobList.filter query.matches :=
    List.mem_filter.mpr ⟨hsj₀, (hmatches sj₀).mpr ⟨hid₀, hstate₀⟩⟩
  -- the first one that matches is taken
  obtain ⟨sj, rest, hfilter⟩ := List.exists_cons_of_ne_nil (List.ne_nil_of_mem hmem)
  have hsj : sj ∈ c.entry.session.jobList.filter query.matches := hfilter ▸ List.mem_cons_self
  obtain ⟨hsj, hmatch⟩ := List.mem_filter.mp hsj
  have htake : (c.entry.session.jobList.filter query.matches).take 1 = [sj] := by
    rw [hfilter]
    rfl
  have hloop : collectStatus query 0 c.entry.session.jobList = _ :=
    collectStatus_eq (n := 1) c.entry.session.jobList (by simp [query])
  rw [htake] at hloop
  have hcnt : 1 ≤ query.maxCnt := Nat.le_refl 1
  have hquery := aipuSessionGetJobStatus_eq hcnt hloop
  rw [if_neg (List.cons_ne_nil _ _)] at hquery
  refine ⟨sj, hsj, ((hmatches sj).mp hmatch).1, c.entry.session.jobList.diff [sj], ?_⟩
  rw [queryStatus, hc]
  dsimp only
  rw [hquery]
  rfl

end Kernel

/-! ## The invariant -/

/-- What a call waits for: a wait for one job has no time limit, and when `poll` has reported, the
awaited job has ended. -/
def Runtime.CallOk (s : Runtime) : Option UmdCall → Prop
  | none => True
  | some (.runjob _ _ _) => True
  | some (.poll p _) => p.pollSingleJob = true → p.timeOut ≤ 0 ∧ p.maxCnt = 1
  | some (.query p) => p.pollSingleJob = true →
      p.maxCnt = 1 ∧ ∃ f ∈ s.kmd.files, s.fd = some f.id ∧ f.HasEnded p.jobId
  | some (.sleep _ _ _) => False
  | some (.kill _ _) => False
  | some (.giveUp _) => False

/-- The state of a job that was neither refused nor given up and has no exception. -/
def JobState.Plain (state : JobState) : Prop := state = .built ∨ state = .sched ∨ state = .done

/-- The invariant. -/
structure PlainInv (tr : List RuntimeEvent) (s : Runtime) : Prop where
  completion : CompletionInv tr s
  states : StatesInv s
  plain : ∀ id i job, s.ctx.job id i = some job → job.state.Plain
  call : s.CallOk s.call
  noExceptions : s.kmd.NoExceptions

section Steps

variable {s s' : Runtime} {a : RuntimeAction} {tr es : List RuntimeEvent} {max : ℤ} {fd : ℕ}

/-- A step of the kernel driver keeps what a call waits for. -/
theorem Runtime.CallOk.kernel {b : KmdAction} {kmd : Kmd} {kes : List KmdEvent}
    {call : Option UmdCall} (h : s.CallOk call) (hst : kmdStep s.kmd b = some (kmd, kes))
    (hb : b.jobCall = none ∨ b.jobCall ≠ s.fd) : ({ s with kmd := kmd } : Runtime).CallOk call := by
  rcases call with _ | call
  · trivial
  cases call with
  | query p =>
    intro hsingle
    obtain ⟨hmax, f, hf, hfd, hended⟩ := h hsingle
    have hne : b.jobCall ≠ some f.id := by
      rcases hb with hb | hb
      · simp [hb]
      · rwa [← hfd]
    obtain ⟨f', hf', hid, hended'⟩ := kmdStep_hasEnded hst hf hne hended
    exact ⟨hmax, f', hf', by rw [hid]; exact hfd, hended'⟩
  | _ => exact h

/-- A wait that starts to poll. -/
theorem Runtime.poll_callOk {p : DevPoll}
    (hp : p.pollSingleJob = true → p.timeOut ≤ 0 ∧ p.maxCnt = 1)
    (h : s.poll fd p = some (s', es)) : s'.CallOk s'.call := by
  obtain ⟨kmd, kes, more, -, hcont, -⟩ := Runtime.ioctl_cases h
  obtain ⟨rfl, -⟩ := Prod.mk.inj (Option.some.inj hcont)
  exact hp

/-- A call that returns. -/
theorem Runtime.return_callOk {ret : AipuStatus} {status : Option AipuJobStatus}
    (h : s.return ret status = some (s', es)) : s'.CallOk s'.call := by
  obtain ⟨rfl, -⟩ := Runtime.return_cases h
  trivial

/-- A check of `poll` that reports has found a job of the thread in the list of the open file. -/
theorem aipuPollCheck_reports {k k' : Kmd} {file : ℕ} {tid : ℤ} {kes : List KmdEvent}
    (h : aipuPollCheck k file tid = some (k', kes)) (hready : .polled file tid true ∈ kes) :
    k' = k ∧ ∃ f ∈ k.files, f.id = file ∧ f.phase = .opened ∧
      aipuSessionThreadHasEndJob f.session tid = true := by
  unfold aipuPollCheck at h
  split at h
  · cases h
  · rename_i c hc
    obtain ⟨hl, hid, hphase⟩ := Kmd.inPhase_eq_some hc
    obtain ⟨rfl, rfl⟩ := Prod.mk.inj (Option.some.inj h)
    refine ⟨rfl, c.entry, hl ▸ c.entry_mem, hid, hphase, ?_⟩
    simpa using hready

/-! ### The conditions of the other results -/

/-- The condition contains that RUNJOB is accepted. -/
theorem PlainWaits.accepted (hC : PlainWaits s a) : RunjobAccepted s a := by
  cases a with
  | flushJob tid jobId kz => exact hC
  | runSchedule kzOk stale => exact hC
  | _ => exact not_false

/-- Jobs are seen by the search for an id, and no job is given up. -/
theorem PlainInv.keepsStates (h : PlainInv tr s) : KeepsStates s a := by
  cases a with
  | giveUp =>
    intro jobId hcall
    have hfalse := h.call
    rw [hcall] at hfalse
    exact hfalse.elim
  | createNewJob id handle inRange config =>
    rintro g hg - jobId ⟨k, -, -, hunseen, -⟩
    by_contra hsome
    obtain ⟨job, hjob⟩ := Option.ne_none_iff_exists'.mp hsome
    have hstored : s.ctx.job id jobId = some job := by rw [MainContext.job, hg]; exact hjob
    have hplain := h.plain id jobId job hstored
    have hexists : g.isJobExistInner jobId = true :=
      Graph.isJobExistInner_eq_true.mpr
        ⟨job, hjob, by rcases hplain with hst | hst | hst <;> simp [hst]⟩
    rw [hunseen] at hexists
    cases hexists
  | _ => trivial

/-- The session job of an id is that of a scheduled job, which the search for an id sees. -/
theorem PlainInv.noStaleRecord (h : PlainInv tr s) : NoStaleRecord s a := by
  cases a with
  | createNewJob id handle inRange config =>
    rintro g hg hbuilds jobId hunseen hroute sj hown rfl
    by_contra hdead
    obtain ⟨job, hjob, -⟩ := h.states.live sj ⟨hown, hdead⟩
    have hnone : g.getJobPtr sj.desc.jobId = none :=
      h.keepsStates (a := .createNewJob id handle inRange config) g hg hbuilds _ hunseen
    rw [MainContext.getJob, hroute, (MainContext.getGraphObject_eq_some hg).2,
      MainContext.job, hg] at hjob
    exact absurd (hjob.symm.trans hnone) (by simp)
  | _ => trivial

/-! ### The states -/

/-- New states that are allowed keep the states allowed. -/
theorem MainContext.Sets.states {P : ℕ → JobState → Prop} {Q : JobState → Prop}
    (h : s.ctx.Sets P s'.ctx)
    (hP : ∀ i state, P i state → Q state)
    (hQ : ∀ id i job, s.ctx.job id i = some job → Q job.state) :
    ∀ id i job, s'.ctx.job id i = some job → Q job.state := by
  intro id i job' hjob'
  rcases h id i with hsame | ⟨-, job, state, -, hstate, hset⟩
  · exact hQ id i job' (hsame ▸ hjob')
  · obtain rfl : _ = job' := Option.some.inj (hset.symm.trans hjob')
    exact hP i state hstate

/-- All records say that the job is done. -/
theorem Kmd.NoExceptions.records {k k' : Kmd} {b : KmdAction} {kes : List KmdEvent}
    (h : k.NoExceptions)
    (hst : kmdStep k b = some (k', kes)) : ∀ status ∈ records kes, status.state = .done := by
  intro status hstatus
  obtain ⟨e, he, hrecord⟩ := List.mem_filterMap.mp hstatus
  cases e with
  | reported file sessionJob status' =>
    obtain rfl := Option.some.inj hrecord
    obtain ⟨query, kzOk, _, _, -, f, hf, -, sj, hsj, -, -, rfl⟩ := kmdStep_reported hst he
    simp [AipuSession.statusOf, h f hf sj hsj]
  | _ => cases hrecord

/-- Every job stays built, scheduled or done. -/
theorem PlainInv.plain_step (h : PlainInv tr s) (hI : KernelInv max tr s) (hC : PlainWaits s a)
    (hst : runtimeStep s a = some (s', es)) :
    ∀ id i job, s'.ctx.job id i = some job → job.state.Plain := by
  obtain ⟨-, hmove⟩ := runtimeStep_moves hI.jobs.files hst
  cases hmove with
  | same _ hjobs => simpa only [hjobs] using h.plain
  | created _ hcreate =>
    rcases MainContext.createNewJob_spec hcreate with ⟨-, hsame⟩ | ⟨-, g, jobId, -, -, -, hnew⟩
    · simpa only [hsame] using h.plain
    · intro id' i job hjob
      rw [hnew] at hjob
      split_ifs at hjob
      · obtain rfl := Option.some.inj hjob
        exact .inl rfl
      · exact h.plain id' i job hjob
  | flushed _ _ hctx =>
    exact (hctx.sets (P := fun _ state => state = .sched) rfl).states
      (by rintro _ _ rfl; exact .inr (.inl rfl)) h.plain
  | refused ha => exact absurd ha hC.accepted
  | @replied p _ _ _ _ kes _ hfd hkst hctx hfd' =>
    have hdone := h.noExceptions.records hkst
    have hsets : s.ctx.Sets (fun _ state => state = .done) s'.ctx := by
      split at hctx
      next hsingle =>
        obtain ⟨status, rest, hstatus, hctx⟩ := hctx
        obtain ⟨taken, hrecords, htaken, -⟩ := hI.query hfd hfd' hkst
        have hjobId := records_single hsingle hrecords (fun sj hsj => (htaken sj hsj).2.2) hstatus
        rw [hctx, ← hjobId]
        exact (s.ctx.waitReply_spec status).sets (by rw [hdone status (by simp [hstatus])]; rfl)
      next =>
        rw [hctx]
        exact s.ctx.pollReply_sets fun status hstatus => by rw [hdone status hstatus]; rfl
    exact hsets.states (by rintro _ _ rfl; exact .inr (.inr rfl)) h.plain
  | timedOut _ hcall =>
    have hfalse := h.call
    rw [hcall] at hfalse
    exact hfalse.elim
  | @cleaned jobId _ hctx =>
    rcases s.ctx.cleanJob_spec jobId with hsame | ⟨-, herase⟩
    · rw [hctx]
      simpa only [hsame] using h.plain
    · intro id i job hjob
      rw [hctx, herase] at hjob
      split_ifs at hjob
      exact h.plain id i job hjob

/-! ### The query -/

/-- A record of the job says that it is done, and it has a job to be written to. -/
theorem MainContext.waitReply_done {ctx : MainContext} {jobId : ℕ} {status : JobStatusDesc}
    (hjob : (ctx.getJob jobId).isSome) (hid : status.jobId = jobId)
    (hstate : status.state = .done) :
    ∃ ctx', ctx.waitReply jobId status = ((.success, .done), ctx') ∧
      ctx.Writes jobId .done ctx' := by
  obtain ⟨hwrites, hsuccess⟩ := ctx.updateJobState_spec jobId .done
  refine ⟨_, ?_, hwrites⟩
  rw [MainContext.waitReply]
  simp only [Graph.updateJobStatus, hid, hstate, ReportedState.jobState, hsuccess hjob, if_true,
    ReportedState.jobStatus]

/-- When `poll` has reported the awaited job, the query takes a record of it, which says that it is
done, and the wait returns success. -/
theorem PlainInv.query_returns {p : DevPoll} (h : PlainInv tr s) (hI : KernelInv max tr s)
    (hcall : s.call = some (.query p)) (hsingle : p.pollSingleJob = true) (hfd : s.fd = some fd)
    (hst : s.query fd p true 0 0 = some (s', es)) :
    (∃ sj, s.Live sj ∧ Ran (jmTrace tr) sj.id ∧ sj.desc.jobId = p.jobId) ∧
      s.ctx.Writes p.jobId .done s'.ctx ∧ s'.call = none ∧
      ∀ ret status, .returned ret status ∈ es → ret = .success ∧ status = some .done := by
  have hcallOk := h.call
  rw [hcall] at hcallOk
  obtain ⟨hmax, f, hf, hffd, hended⟩ := hcallOk hsingle
  obtain ⟨kmd, kes, more, hkst, hcont, rfl⟩ := Runtime.ioctl_cases hst
  obtain ⟨c, -, -, -, hc, -⟩ := queryStatus_cases hkst
  obtain ⟨hl, hid, -⟩ := Kmd.inPhase_eq_some hc
  have hentry : c.entry ∈ s.kmd.files := hl ▸ c.entry_mem
  have hidf : f.id = c.entry.id := by rw [hid, ← Option.some.inj (hffd.symm.trans hfd)]
  obtain rfl : f = c.entry := List.inj_on_of_nodup_map hI.jobs.files.nodup hf hentry hidf
  obtain ⟨sj, hsj, hjobId, kept, hquery⟩ := queryStatus_single hc hended
  have hsame : ({ maxCnt := p.maxCnt, getSingleJob := p.pollSingleJob, jobId := p.jobId } :
      JobStatusQuery) = { maxCnt := 1, getSingleJob := true, jobId := p.jobId } := by rw
        [hmax, hsingle]
  have hdone := h.noExceptions.records hkst
  have hfd' : ({ s with kmd := kmd } : Runtime).fd = s.fd := rfl
  obtain ⟨taken, hrecords, htaken, -⟩ := hI.query hfd hfd' hkst
  rw [hsame] at hkst
  obtain ⟨-, rfl⟩ := Prod.mk.inj (Option.some.inj (hkst.symm.trans hquery))
  -- the only record
  generalize c.entry.session.statusOf sj = status at *
  have hsched : (s.ctx.getJob p.jobId).isSome := by
    obtain ⟨job, hjob, -⟩ :=
      h.states.wait p.jobId (by rw [Runtime.waitsFor, hcall]; exact if_pos hsingle)
    simp [hjob]
  have hstatus : status.jobId = p.jobId :=
    records_single hsingle hrecords (fun sj hsj => (htaken sj hsj).2.2) rfl
  have hown : ∃ sj, s.Live sj ∧ Ran (jmTrace tr) sj.id ∧ sj.desc.jobId = p.jobId := by
    cases taken with
    | nil => cases hrecords
    | cons sj' rest =>
      obtain ⟨hlive, hran, hsj'⟩ := htaken sj' List.mem_cons_self
      exact ⟨sj', hlive, hran, hsj' hsingle⟩
  obtain ⟨ctx', hreply, hwrites⟩ :=
    MainContext.waitReply_done hsched hstatus (hdone status List.mem_cons_self)
  have hreturn : ({ s with kmd := kmd, ctx := ctx' } : Runtime).return .success (some .done) =
      some (s', more) := by
    have hcode : returnCode [.reported fd sj.id status, .returned fd 0] = some 0 := rfl
    have hrecord : records [.reported fd sj.id status, .returned fd 0] = [status] := rfl
    rw [← hcont, if_pos hcode, hrecord, Runtime.pollStatus, if_pos hsingle]
    simp only [hreply]
  obtain ⟨rfl, rfl⟩ := Runtime.return_cases hreturn
  refine ⟨hown, hwrites, rfl, fun ret status hmem => ?_⟩
  simpa using hmem

/-! ### The call -/

/-- A call that starts waits for one job only without a time limit. -/
theorem runtimeStart_callOk (hC : PlainWaits s a) (hst : runtimeStart s fd a = some (s', es)) :
    s'.CallOk s'.call := by
  cases a with
  | setRuntimeConfig pollOpt => exact Runtime.return_callOk hst
  | createNewJob id handle inRange config =>
    simp only [runtimeStart] at hst
    split at hst
    · cases hst
    · exact Runtime.return_callOk hst
  | flushJob tid jobId kz =>
    simp only [runtimeStart, Runtime.flushJob] at hst
    split at hst
    · exact Runtime.return_callOk hst
    split at hst
    · exact Runtime.return_callOk hst
    obtain ⟨kmd, kes, more, -, hcont, -⟩ := Runtime.ioctl_cases hst
    split_ifs at hcont
    · obtain ⟨rfl, -⟩ := Prod.mk.inj (Option.some.inj hcont)
      trivial
    · exact Runtime.return_callOk hcont
  | waitForJobEnd tid jobId timeOut =>
    obtain ⟨hopt, htime⟩ := hC
    simp only [runtimeStart, Runtime.waitForJobEnd, hopt] at hst
    split at hst
    · exact Runtime.return_callOk hst
    · exact Runtime.poll_callOk (fun _ => ⟨by simp [htime], rfl⟩) hst
  | pollJobStatus tid timeOut => exact Runtime.poll_callOk (by rintro ⟨⟩) hst
  | cleanJob jobId => exact Runtime.return_callOk hst
  | _ => cases hst

/-- A check of `poll` in a wait that finds an ended job has found the awaited one. -/
theorem Runtime.pollCheck_callOk {p : DevPoll} {checked : Bool} (h : s.CallOk s.call)
    (hcall : s.call = some (.poll p checked)) (hfd : s.fd = some fd)
    (hfirst : AwaitedFirst s .pollCheck)
    (hst : s.pollCheck fd p = some (s', es)) : s'.CallOk s'.call := by
  rw [hcall] at h
  obtain ⟨kmd, kes, more, hkst, hcont, -⟩ := Runtime.ioctl_cases hst
  obtain ⟨rfl, -⟩ := Prod.mk.inj (Option.some.inj hcont)
  dsimp only
  split_ifs with hready
  · intro hsingle
    obtain ⟨rfl, f, hf, hid, hphase, hended⟩ := aipuPollCheck_reports hkst hready
    have hfinds : s.FindsAwaited p := hfirst p (by simp [hcall, UmdCall.polling])
    have hffd : s.fd = some f.id := by rw [hfd, hid]
    exact ⟨(h hsingle).2, f, hf, hffd, hfinds hsingle f hf hffd hphase hended⟩
  · exact h

/-- A call that goes on waits as before, or it returns. -/
theorem PlainInv.continue_callOk {call : UmdCall} (h : PlainInv tr s) (hI : KernelInv max tr s)
    (hC : PlainWaits s a) (hfirst : AwaitedFirst s a) (hfd : s.fd = some fd)
    (hcall : s.call = some call)
    (hst : runtimeContinue s fd call a = some (s', es)) : s'.CallOk s'.call := by
  have hcallOk := h.call
  cases a with
  | runSchedule kzOk stale =>
    simp only [runtimeContinue] at hst
    split at hst
    · obtain ⟨kmd, kes, more, -, hcont, -⟩ := Runtime.ioctl_cases hst
      exact Runtime.return_callOk hcont
    · cases hst
  | pollCheck =>
    simp only [runtimeContinue] at hst
    split at hst
    · exact Runtime.pollCheck_callOk h.call hcall hfd hfirst hst
    · cases hst
  | pollTimeout =>
    simp only [runtimeContinue] at hst
    split at hst
    next p =>
      split_ifs at hst with htime
      rw [hcall] at hcallOk
      have hsingle : p.pollSingleJob ≠ true := fun hsingle => htime (hcallOk hsingle).1
      rw [Runtime.pollStatus, if_neg hsingle] at hst
      exact Runtime.return_callOk hst
    · cases hst
  | pollFail => exact hC.elim
  | query kzOk notCopied notCopiedQuery =>
    obtain ⟨rfl, rfl, rfl⟩ := hC
    simp only [runtimeContinue] at hst
    split at hst
    next p =>
      by_cases hsingle : p.pollSingleJob = true
      · obtain ⟨-, -, hnone, -⟩ := h.query_returns hI hcall hsingle hfd hst
        rw [hnone]
        trivial
      · obtain ⟨kmd, kes, more, -, hcont, -⟩ := Runtime.ioctl_cases hst
        split_ifs at hcont
        · unfold Runtime.pollStatus at hcont
          rw [if_neg hsingle] at hcont
          exact Runtime.return_callOk hcont
        · exact Runtime.return_callOk hcont
    · cases hst
  | wakeUp | kill | giveUp =>
    -- the call does not wait for a poll
    simp only [runtimeContinue] at hst
    split at hst
    · rw [hcall] at hcallOk
      exact hcallOk.elim
    · cases hst
  | _ => cases hst

/-- A step keeps what the call waits for. -/
theorem PlainInv.call_step (h : PlainInv tr s) (hI : KernelInv max tr s) (hC : PlainWaits s a)
    (hfirst : AwaitedFirst s a) (hst : runtimeStep s a = some (s', es)) : s'.CallOk s'.call := by
  have hrun : runtimeCall s a = some (s', es) → s'.CallOk s'.call := by
    intro hst
    obtain ⟨fd, hfd, ⟨-, hstart⟩ | ⟨call, hcall, hcont⟩⟩ := runtimeCall_cases hst
    · exact runtimeStart_callOk hC hstart
    · exact h.continue_callOk hI hC hfirst hfd hcall hcont
  cases a with
  | kmd b =>
    simp only [runtimeStep] at hst
    split_ifs at hst with hb
    obtain ⟨kmd, kes, more, hkst, hcont, -⟩ := Runtime.ioctl_cases hst
    obtain ⟨rfl, -⟩ := Prod.mk.inj (Option.some.inj hcont)
    exact h.call.kernel hkst hb
  | openDevice pid kz =>
    have hcallOk := h.call
    simp only [runtimeStep, Runtime.openDevice] at hst
    split_ifs at hst with hnone
    obtain ⟨kmd, kes, more, -, hcont, -⟩ := Runtime.ioctl_cases hst
    have hcall : s'.call = s.call := by
      rw [← (Prod.mk.inj (Option.some.inj hcont)).1]
      split <;> rfl
    rw [hcall]
    rcases hsc : s.call with _ | call
    · trivial
    rw [hsc] at hcallOk
    cases call with
    | query p =>
      -- no file is open
      intro hsingle
      obtain ⟨-, f, -, hfd, -⟩ := hcallOk hsingle
      rw [hnone] at hfd
      cases hfd
    | _ => exact hcallOk
  | _ => exact hrun hst

/-! ### The step -/

/-- **One step.**  A step that meets the conditions keeps the invariant. -/
theorem PlainInv.step (h : PlainInv tr s) (hI : KernelInv max tr s) (hC : PlainWaits s a)
    (hfirst : AwaitedFirst s a) (hst : runtimeStep s a = some (s', es)) :
    PlainInv (tr ++ es) s' := by
  refine ⟨h.completion.step hI h.noStaleRecord hst,
    (h.states.step hI hC.accepted h.keepsStates hst).1,
    h.plain_step hI hC hst, h.call_step hI hC hfirst hst, ?_⟩
  rcases (runtimeStep_moves hI.jobs.files hst).1 with ⟨hkmd, -⟩ | ⟨b, hb⟩
  · rw [hkmd]
    exact h.noExceptions
  · exact (kmdStep_files hb).noExceptions h.noExceptions

/-! ### The return -/

/-- `wait_for_job_end` reads the status of a job that is done, and waits for a scheduled one. -/
theorem MainContext.waitStart_eq {ctx : MainContext} {jobId : ℕ} {job : JobDesc}
    (hjob : ctx.getJob jobId = some job) (hplain : job.state.Plain) (hbuilt : job.state ≠ .built) :
    ctx.waitStart jobId = if job.state = .done then some (.success, .done) else none := by
  obtain ⟨g, hg, hjob⟩ := Option.bind_eq_some_iff.mp hjob
  rw [MainContext.waitStart, hg]
  rcases hplain with hstate | hstate | hstate
  · exact absurd hstate hbuilt
  · simp [Graph.isJobSched, Graph.isJobEnd, Graph.jobStateIs, hjob, hstate]
  · simp [Graph.isJobSched, Graph.isJobEnd, Graph.jobStateIs, Graph.getJobStatus, hjob, hstate]

/-- A system call that returns nothing to the caller. -/
theorem Runtime.ioctl_quiet {b : KmdAction}
    {f : Runtime → List KmdEvent → Option (Runtime × List RuntimeEvent)}
    (h : s.ioctl b f = some (s', es))
    (hf : ∀ s₁ kes s₂ more, f s₁ kes = some (s₂, more) → more = [])
    (ret : AipuStatus) (status : Option AipuJobStatus) : .returned ret status ∉ es := by
  obtain ⟨kmd, kes, more, -, hcont, rfl⟩ := Runtime.ioctl_cases h
  simp [hf _ _ _ _ hcont]

/-- A wait that finds that the job is done returns so at once. -/
theorem PlainInv.start_returns {tid : ℤ} {jobId : ℕ} {timeOut : ℤ} (h : PlainInv tr s)
    (hopt : s.ctx.pollOpt = false) (hst : s.waitForJobEnd fd tid jobId timeOut = some (s', es)) :
    s.ReturnsOwnResult tr (.waitForJobEnd tid jobId timeOut) s' es := by
  rintro ret status jobId' job hret hwait hjob hbuilt
  obtain rfl : jobId = jobId' := Option.some.inj hwait
  have hstart := MainContext.waitStart_eq hjob (h.plain _ _ job hjob) hbuilt
  rw [Runtime.waitForJobEnd, hstart] at hst
  split at hst
  next ret₀ status₀ hsome =>
    split_ifs at hsome with hdone
    obtain ⟨rfl, rfl⟩ := Prod.mk.inj (Option.some.inj hsome)
    obtain ⟨rfl, rfl⟩ := Runtime.return_cases hst
    obtain ⟨rfl, rfl⟩ : ret = .success ∧ status = some .done := by simpa using hret
    refine ⟨rfl, rfl, ?_, (h.completion.genuine _ _ job hjob (.inl hdone)).append _⟩
    rw [← hdone]
    exact hjob
  next =>
    rw [if_neg (by simp [hopt])] at hst
    refine absurd hret (Runtime.ioctl_quiet hst ?_ ret status)
    rintro s₁ kes s₂ more hcont
    exact (Prod.mk.inj (Option.some.inj hcont)).2.symm

/-- A wait that goes on returns after the query. -/
theorem PlainInv.continue_returns {call : UmdCall} (h : PlainInv tr s) (hI : KernelInv max tr s)
    (hC : PlainWaits s a) (hfd : s.fd = some fd) (hcall : s.call = some call)
    (hst : runtimeContinue s fd call a = some (s', es)) {jobId : ℕ}
    (hwait : s.waitsFor = some jobId)
    {ret : AipuStatus} {status : Option AipuJobStatus} (hret : .returned ret status ∈ es)
    {job : JobDesc} (hjob : s.ctx.getJob jobId = some job) :
    ret = .success ∧ status = some .done ∧ s'.ctx.getJob jobId = some { job with state := .done } ∧
      Genuine (tr ++ es) job.addr := by
  have hcallOk := h.call
  rw [hcall] at hcallOk
  rw [Runtime.waitsFor, hcall] at hwait
  cases call with
  | runjob => cases hwait
  | sleep | kill | giveUp => exact hcallOk.elim
  | poll p checked =>
    cases a with
    | pollCheck =>
      have hst : s.pollCheck fd p = some (s', es) := hst
      refine absurd hret (Runtime.ioctl_quiet hst ?_ ret status)
      rintro s₁ kes s₂ more hcont
      exact (Prod.mk.inj (Option.some.inj hcont)).2.symm
    | pollTimeout =>
      have hsingle : p.pollSingleJob = true := by
        by_contra hsingle
        simp [UmdCall.waitsFor, hsingle] at hwait
      cases checked with
      | true => simp [runtimeContinue, (hcallOk hsingle).1] at hst
      | false => cases hst
    | pollFail => exact hC.elim
    | _ => cases hst
  | query p =>
    cases a with
    | query kzOk notCopied notCopiedQuery =>
      obtain ⟨rfl, rfl, rfl⟩ := hC
      have hsingle : p.pollSingleJob = true := by
        by_contra hsingle
        simp [UmdCall.waitsFor, hsingle] at hwait
      obtain rfl : p.jobId = jobId := by simpa [UmdCall.waitsFor, hsingle] using hwait
      obtain ⟨⟨sj, hlive, hran, hid⟩, hwrites, -, hreturned⟩ :=
        h.query_returns hI hcall hsingle hfd hst
      obtain ⟨hsuccess, hdone⟩ := hreturned ret status hret
      refine ⟨hsuccess, hdone, ?_, Genuine.append ⟨sj.id, ?_, hran⟩ es⟩
      · rw [MainContext.getJob] at hjob
        rw [MainContext.getJob, hwrites, if_pos ⟨rfl, rfl⟩, hjob]
        rfl
      · exact h.completion.tracked sj hlive job (by rw [hid, hjob])
    | _ => cases hst

/-- **One step.**  A wait that returns in a step that meets the condition returns the result of its
job. -/
theorem PlainInv.returns (h : PlainInv tr s) (hI : KernelInv max tr s) (hC : PlainWaits s a)
    (hst : runtimeStep s a = some (s', es)) : s.ReturnsOwnResult tr a s' es := by
  have hrun : runtimeCall s a = some (s', es) → s.ReturnsOwnResult tr a s' es := by
    intro hst
    obtain ⟨fd, hfd, ⟨hnone, hstart⟩ | ⟨call, hcall, hcont⟩⟩ := runtimeCall_cases hst
    · cases a with
      | waitForJobEnd tid jobId timeOut => exact h.start_returns hC.1 hstart
      | _ => intro _ _ _ _ _ hwait; simp [Runtime.awaits, Runtime.waitsFor, hnone] at hwait
    · cases a with
      | waitForJobEnd tid jobId timeOut => cases hcont
      | _ =>
        intro ret status jobId job hret hwait hjob _
        exact h.continue_returns hI hC hfd hcall hcont hwait hret hjob
  cases a with
  | kmd b =>
    simp only [runtimeStep] at hst
    split_ifs at hst with hb
    intro ret status jobId job hret
    refine absurd hret (Runtime.ioctl_quiet hst ?_ ret status)
    rintro s₁ kes s₂ more hcont
    exact (Prod.mk.inj (Option.some.inj hcont)).2.symm
  | openDevice pid kz =>
    simp only [runtimeStep, Runtime.openDevice] at hst
    split_ifs at hst with hnone
    intro ret status jobId job hret
    refine absurd hret (Runtime.ioctl_quiet hst ?_ ret status)
    rintro s₁ kes s₂ more hcont
    exact (Prod.mk.inj (Option.some.inj hcont)).2.symm
  | _ => exact hrun hst

end Steps

/-! ## Runs -/

/-- A context without jobs on a device that is not open meets the invariant. -/
theorem PlainInv.init {s : Runtime} (hfiles : s.kmd.files = []) (hfd : s.fd = none)
    (hcall : s.call = none)
    (hgraphs : ∀ g ∈ s.ctx.graphs, g.jobs = [] ∧ g.sched = []) : PlainInv [] s := by
  have hlive : ∀ sj, ¬s.Live sj := by
    rintro sj ⟨⟨f, -, hfid, -⟩, -⟩
    rw [hfd] at hfid
    cases hfid
  have hnone : ∀ id i, s.ctx.job id i = none := by
    intro id i
    rw [MainContext.job, Option.bind_eq_none_iff]
    intro g hg
    simp [Graph.getJobPtr, (hgraphs g (MainContext.getGraphObject_eq_some hg).1).1]
  refine ⟨⟨fun sj h => absurd h (hlive sj), ?_, ?_, ?_, ?_⟩,
    ⟨fun sj h => absurd h (hlive sj), fun sj _ h => absurd h (hlive sj), ?_, ?_⟩, ?_, ?_, ?_⟩
  · simp [Runtime.CompletionsGenuine, hnone]
  · simp [hnone]
  · simp
  · simp [hnone]
  · simp [Runtime.waitsFor, hcall]
  · simp [hnone]
  · simp [hnone]
  · rw [hcall]
    trivial
  · simp [Kmd.NoExceptions, hfiles]

/-- **Waiting for a job.**  In every run in which every check of `poll` in a wait reports the
awaited job if it reports any, every wait that returns for a flushed job returns its result. -/
theorem waits_return_own_result {version : AipuVersion} {map : MemoryMap} {maxSchedNum : ℤ}
    (hmax : 0 ≤ maxSchedNum) {tr : List RuntimeEvent} {s : Runtime}
    (h : (runtimeSystem version map maxSchedNum).Run
      (fun s a => PlainWaits s a ∧ AwaitedFirst s a) tr s) :
    ∀ a s' es, PlainWaits s a → AwaitedFirst s a → runtimeStep s a = some (s', es) →
      s.ReturnsOwnResult tr a s' es := by
  suffices hinv : PlainInv tr s from fun a s' es hC _ hst =>
    hinv.returns (runtimeSystem_kernel hmax h) hC hst
  induction h with
  | start hs =>
    obtain ⟨⟨-, -, hfiles, -⟩, hfd, hcall, hgraphs⟩ := hs
    exact .init hfiles hfd hcall hgraphs
  | next hrun hC hst ih => exact ih.step (runtimeSystem_kernel hmax hrun) hC.1 hC.2 hst

/-- A job that runs to its end before it is waited for. -/
def waitsForEnded : List RuntimeAction :=
  [.openDevice 7 [], .createNewJob 1 65536 true {}, .flushJob 7 65536 [],
    .runSchedule true sampleMem,
    .kmd (.upperHalf 0 sampleMem), .kmd .queueWork, .kmd .bhStart, .kmd .bhDone, .kmd .bhResume,
    .waitForJobEnd 7 65536 0, .pollCheck]

/-- The wait returns that the job is done. -/
theorem waits_return_own_result_sample :
    ∃ (tr : List RuntimeEvent) (s s' : Runtime) (es : List RuntimeEvent),
      (runtimeSystem .zhouyiV2 sampleMap 1).Run
        (fun s a => PlainWaits s a ∧ AwaitedFirst s a) tr s ∧
      runtimeStep s (.query true 0 0) = some (s', es) ∧ .returned .success (some .done) ∈ es ∧
      s.waitsFor = some 65536 ∧ s.ReturnsOwnResult tr (.query true 0 0) s' es := by
  have hsome :
      ((runtimeSystem .zhouyiV2 sampleMap 1).exec (fun s a => PlainWaits s a ∧ AwaitedFirst s a)
      sampleRuntime waitsForEnded).map
        (fun r => (r.1.waitsFor, (runtimeStep r.1 (.query true 0 0)).map
        fun r' => decide (.returned .success (some .done) ∈ r'.2))) =
          some (some 65536, some true) := by
    decide +kernel
  obtain ⟨⟨s, tr⟩, hexec, hsample⟩ := Option.map_eq_some_iff.mp hsome
  obtain ⟨hwait, hstep⟩ := Prod.mk.inj hsample
  obtain ⟨⟨s', es⟩, hst, hmem⟩ := Option.map_eq_some_iff.mp hstep
  have hrun := System.run_of_exec sampleRuntime_init hexec
  exact ⟨tr, s, s', es, hrun, hst, of_decide_eq_true hmem, hwait,
    waits_return_own_result (by decide) hrun _ _ _ ⟨rfl, rfl, rfl⟩ trivial hst⟩

/-- Two jobs are flushed, and the first one ends while the second one is waited for. -/
def waitsForSecond : List RuntimeAction :=
  [.openDevice 7 [], .createNewJob 1 65536 true {}, .createNewJob 1 65537 true {},
    .flushJob 7 65536 [],
    .runSchedule true sampleMem, .flushJob 7 65537 [], .runSchedule true sampleMem,
    .waitForJobEnd 7 65537 0, .kmd (.upperHalf 0 sampleMem), .kmd .queueWork, .kmd .bhStart,
      .kmd .bhDone,
    .kmd .bhResume, .pollCheck]

/-- The wait for the second job fails, because the first job has ended. -/
theorem wait_fails_for_other_job :
    ∃ (tr : List RuntimeEvent) (s s' : Runtime) (es : List RuntimeEvent),
      (runtimeSystem .zhouyiV2 sampleMap 1).Run PlainWaits tr s ∧ PlainWaits s (.query true 0 0) ∧
      runtimeStep s (.query true 0 0) = some (s', es) ∧ .returned .errorNullPtr none ∈ es ∧
      ¬s.ReturnsOwnResult tr (.query true 0 0) s' es := by
  have hsome :
      ((runtimeSystem .zhouyiV2 sampleMap 1).exec PlainWaits sampleRuntime waitsForSecond).map
      (fun r => (r.1.waitsFor, (r.1.ctx.getJob 65537).map JobDesc.state,
        (runtimeStep r.1 (.query true 0 0)).map
          fun r' => decide (.returned .errorNullPtr none ∈ r'.2))) =
      some (some 65537, some .sched, some true) := by
    decide +kernel
  obtain ⟨⟨s, tr⟩, hexec, hsample⟩ := Option.map_eq_some_iff.mp hsome
  obtain ⟨hwait, hsample⟩ := Prod.mk.inj hsample
  obtain ⟨hjob, hstep⟩ := Prod.mk.inj hsample
  obtain ⟨⟨s', es⟩, hst, hmem⟩ := Option.map_eq_some_iff.mp hstep
  obtain ⟨job, hjob, hstate⟩ := Option.map_eq_some_iff.mp hjob
  have hmem := of_decide_eq_true hmem
  refine ⟨tr, s, s', es, System.run_of_exec sampleRuntime_init hexec, ⟨rfl, rfl, rfl⟩, hst, hmem,
    fun hresult => ?_⟩
  obtain ⟨hret, -⟩ := hresult _ _ _ job hmem hwait hjob (by simp [hstate])
  cases hret

end Aipu
