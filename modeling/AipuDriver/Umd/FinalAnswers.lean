import AipuDriver.Umd.WaitersSteps

/-!
# Answers about jobs that have ended

`wait_for_job_end` learns that a job has ended from its own poll of the kernel, after a sleep, or
from the state of the job.  The three paths make the return code and `*status` on their own, and
they give the same answer (`finalAnswer`), and every further wait for the job repeats it, as long as

* no exception reaches a wait by its own poll, which returns success and leaves the exception in
  `*status`,
* no wait has seen that its job has not ended and sleeps after the job was given up, since it finds
  it not scheduled,
* nothing is written to a job that has ended: no record comes late, no thread gives up a job that
  has a record, and no new job takes the id of one that has timed out, and
* no poll for a job that has ended fails.

Under these conditions (`Waiters.KeepsAnswers`), a final state is absorbing.
-/

namespace Aipu

open ListSearch Transition

/-! ## The property -/

/-- A call that returns when its job is in a final state gives the answer of this state. -/
def AnswersFinal (s' : Waiters) (es : List WaitersEvent) : Prop :=
  ∀ tid jobId ret state, .answered tid jobId ret state ∈ es →
    ∀ job, s'.ctx.getJob jobId = some job →
    job.state.Ended → (ret, state) = finalAnswer job.state

/-- The record comes before the job has ended, and no thread gives the job up. -/
def Waiters.InTime (s : Waiters) (status : JobStatusDesc) : Prop :=
  (∀ job ∈ s.ctx.getJob status.jobId, ¬job.state.Ended) ∧
    ∀ th ∈ s.threads, ¬th.pc.GivesUp status.jobId status.state

instance inTimeDecidable (s : Waiters) : DecidablePred s.InTime :=
  fun _ => inferInstanceAs (Decidable (_ ∧ _))

/-- The next statement of a thread keeps the answers alike: its record is written in time, and it is
no exception that the thread has polled; and the job of a thread that is about to sleep was not
given up. -/
def Waiters.StatementKeeps (s : Waiters) : ThreadPc → Prop
  | .sleepCheck w => ∀ job ∈ s.ctx.getJob w.jobId, job.state ≠ .timeout
  | .updatePolled _ status => s.InTime status ∧ status.state = .done
  | .updateAll (status :: _) => s.InTime status
  | _ => True

instance statementKeepsDecidable (s : Waiters) : DecidablePred s.StatementKeeps := fun pc => by
  unfold Waiters.StatementKeeps
  split <;> infer_instance

instance buildsJobDecidable (g : Graph) (handle : ℕ) :
    DecidablePred (g.BuildsJob handle) := fun inRange =>
  decidable_of_iff (inRange = true ∧ (g.getTbufPtr handle).any (·.isFree) = true) (by
    cases h : g.getTbufPtr handle <;> simp [Graph.BuildsJob, h])

/-- Nothing is written to a job that has ended, and no wait takes one of the paths with another
answer. -/
def Waiters.KeepsAnswers (s : Waiters) : WaitersAction → Prop
  | .createNewJob id handle inRange _ => ∀ g ∈ s.ctx.getGraphObject id, g.BuildsJob handle inRange →
      ∀ jobId ∈ g.createJobIdInner, g.getJobPtr jobId = none
  | .next tid _ => ∀ c ∈ s.thread tid, s.StatementKeeps c.entry.pc
  | .polled tid 0 => ∀ c ∈ s.thread tid, ∀ w ∈ c.entry.pc.polls, ∀ job ∈ s.ctx.getJob w.jobId,
      ¬job.state.Settled
  | .pollFail tid => ∀ c ∈ s.thread tid, ∀ w ∈ c.entry.pc.polls, ∀ job ∈ s.ctx.getJob w.jobId,
      ¬job.state.Ended
  | _ => True

instance keepsAnswersDecidable : DecidableRel Waiters.KeepsAnswers := fun s a => by
  unfold Waiters.KeepsAnswers
  split <;> infer_instance

section Steps

variable {s s' : Waiters} {a : WaitersAction} {es : List WaitersEvent} {c : Cursor Thread}

/-! ## Final states are absorbing -/

/-- A record is written in time. -/
theorem Waiters.StatementKeeps.inTime {pc : ThreadPc} (h : s.StatementKeeps pc)
    {status : JobStatusDesc} (hstatus : status ∈ pc.applies) : s.InTime status := by
  cases pc with
  | updatePolled w record =>
    obtain rfl := Option.some.inj hstatus
    exact h.1
  | updateAll records =>
    cases records with
    | nil => cases hstatus
    | cons record rest =>
      obtain rfl := Option.some.inj hstatus
      exact h
  | _ => cases hstatus

/-- Such a step is orderly. -/
theorem Waiters.KeepsAnswers.orderly (h : s.KeepsAnswers a) : s.Orderly a := by
  cases a with
  | createNewJob id handle inRange config => exact h
  | next tid woken =>
    intro c hc status hstatus
    obtain ⟨hended, hgives⟩ := (h c hc).inTime hstatus
    refine ⟨fun job hjob hsettled => hended job hjob ?_, hgives⟩
    exact hsettled.imp_right .inl
  | polled tid cnt =>
    cases cnt with
    | zero => exact h
    | succ => trivial
  | _ => trivial

/-- What is stored after a state was written. -/
theorem MainContext.Writes.getJob {ctx ctx' : MainContext} {jobId : ℕ} {state : JobState}
    (h : ctx.Writes jobId state ctx') (i : ℕ) :
    ctx'.getJob i = if i = jobId then (ctx.getJob i).map fun job => { job with state := state }
      else ctx.getJob i := by
  rw [MainContext.getJob, h, ← MainContext.getJob]
  by_cases hi : i = jobId
  · rw [if_pos ⟨by rw [hi], hi⟩, if_pos hi]
  · rw [if_neg fun hand => hi hand.2, if_neg hi]

/-- A job that is given up has timed out. -/
theorem MainContext.waitTimeout_spec (ctx : MainContext) (jobId : ℕ) :
    ctx.Writes jobId .timeout (ctx.waitTimeout jobId).2 :=
      (ctx.updateJobState_spec jobId .timeout).1

/-- A write to another job, or to one that has not ended, leaves the jobs that have ended. -/
theorem MainContext.Writes.keeps_ended {ctx ctx' : MainContext} {written jobId : ℕ}
    {state : JobState}
    {job : JobDesc} (h : ctx.Writes written state ctx')
    (hwritten : ∀ job, ctx.getJob written = some job → job.state.Ended → job.state = state)
    (hjob : ctx.getJob jobId = some job) (hended : job.state.Ended) :
    ctx'.getJob jobId = some job := by
  rw [h.getJob]
  split_ifs with hid
  · subst hid
    rw [hjob, ← hwritten job hjob hended]
    rfl
  · exact hjob

/-- A job that has ended stays as it is until `clean_job`. -/
theorem CheckInv.keeps_ended (h : CheckInv s) (hC : s.KeepsAnswers a)
    (hst : waitersStep s a = some (s', es))
    {jobId : ℕ} {job : JobDesc} (hjob : s.ctx.getJob jobId = some job) (hended : job.state.Ended) :
    s'.ctx.getJob jobId = some job ∨ a = .cleanJob jobId := by
  cases waitersStep_moves hst with
  | same hjobs => exact .inl (by rwa [MainContext.getJob, hjobs])
  | refused hsame => exact .inl (hsame ▸ hjob)
  | started hctx => exact .inl (hctx ▸ hjob)
  | created ha hcreate =>
    subst ha
    obtain ⟨ret, ctx, new, hnew, rfl, -⟩ := Waiters.createNewJob_cases hcreate
    refine .inl ?_
    rcases MainContext.createNewJob_spec hnew with ⟨-, hsame⟩ | ⟨-, g, i, hg, hbuilds, hid, hjobs⟩
    · rwa [MainContext.getJob, hsame]
    · rw [MainContext.getJob, hjobs, if_neg, ← MainContext.getJob, hjob]
      -- the new id was the id of no job
      rintro ⟨hroute, rfl⟩
      have hnone := hC g hg hbuilds jobId hid
      rw [MainContext.getJob, hroute, MainContext.job, hg] at hjob
      exact absurd (hnone.symm.trans hjob) (by simp)
  | flushed _ hbuilt hstate _ hctx =>
    refine .inl (hctx.keeps_ended (fun job' hjob' hended' => ?_) hjob hended)
    obtain rfl := Option.some.inj (hjob'.symm.trans hbuilt)
    simp [hstate, JobState.Ended] at hended'
  | @cleaned cleaned ha hsame =>
    subst ha hsame
    by_cases hid : jobId = cleaned
    · exact .inr (by rw [hid])
    · refine .inl ?_
      rcases s.ctx.cleanJob_spec cleaned with hsame | ⟨-, herase⟩
      · rwa [MainContext.getJob, hsame]
      · rwa [MainContext.getJob, herase, if_neg fun hand => hid hand.2]
  | moved _ _ hctx => exact .inl (hctx ▸ hjob)
  | @polled c w status woken _ ha hl hpc _ hsame =>
    subst ha hsame
    obtain ⟨hnotEnded, -⟩ := (hC c hl).inTime (show status ∈ c.entry.pc.applies by rw [hpc]; rfl)
    exact .inl ((s.ctx.waitReply_spec status).keeps_ended
      (fun job' hjob' hended' => absurd hended' (hnotEnded job' hjob')) hjob hended)
  | @applied c status rest woken _ _ ha hl hpc _ _ hsame =>
    subst ha hsame
    obtain ⟨hnotEnded, -⟩ := (hC c hl).inTime (show status ∈ c.entry.pc.applies by rw [hpc]; rfl)
    exact .inl ((s.ctx.waitReply_spec status).keeps_ended
      (fun job' hjob' hended' => absurd hended' (hnotEnded job' hjob')) hjob hended)
  | @gaveUp c w addr _ hl hpc hderef hsame =>
    obtain ⟨hstored, haddr⟩ := h.getJob_of_deref hderef
    rw [h.store_eq hderef] at hsame
    subst hsame
    have hallows := h.allows _ (Waiters.mem_thread hl) w.jobId _ hstored
    rw [hpc] at hallows
    refine .inl ((s.ctx.updateJobState_spec w.jobId .timeout).1.keeps_ended
      (fun job' hjob' hended' => ?_) hjob hended)
    obtain rfl := Option.some.inj (hjob'.symm.trans hstored)
    exact hended'.timeout_of_not_settled (hallows rfl haddr.symm)
  | @gaveUpPolled c w hl hpc hsame =>
    subst hsame
    have hallows := h.allows _ (Waiters.mem_thread hl) w.jobId
    rw [hpc] at hallows
    refine .inl ((s.ctx.waitTimeout_spec w.jobId).keeps_ended
      (fun job' hjob' hended' => ?_) hjob hended)
    exact hended'.timeout_of_not_settled (hallows job' hjob' rfl)

/-! ## Answers -/

/-- A record that a thread has polled for its job is one of this job. -/
def Waiters.OwnRecords (s : Waiters) : Prop :=
  ∀ th ∈ s.threads, ∀ w status, th.pc = .updatePolled w status → status.jobId = w.jobId

/-- A thread gets a record only by its poll. -/
theorem Waiters.OwnRecords.step (h : s.OwnRecords) (hst : waitersStep s a = some (s', es)) :
    s'.OwnRecords := by
  intro th hth w status hpc
  cases waitersStep_moves hst with
  | same _ _ _ hthreads => exact h th (hthreads ▸ hth) w status hpc
  | refused hsame => exact h th (hsame ▸ hth) w status hpc
  | started _ _ hthreads _ _ hnew =>
    rcases List.mem_cons.mp (hthreads ▸ hth) with rfl | hth
    · rcases hnew with hnew | ⟨w', -, hnew, -⟩ <;> simp [hnew] at hpc
    · exact h th hth w status hpc
  | created _ hcreate =>
    obtain ⟨ret, ctx, new, -, rfl, -⟩ := Waiters.createNewJob_cases hcreate
    exact h th hth w status hpc
  | flushed _ _ _ _ _ _ _ hthreads => exact h th (hthreads ▸ hth) w status hpc
  | cleaned _ hsame =>
    subst hsame
    exact h th hth w status hpc
  | moved hl hmove _ _ hthreads =>
    rcases Waiters.mem_moved hl (hthreads ▸ hth) with hth | ⟨pc', rfl, rfl⟩
    · exact h th hth w status hpc
    · obtain rfl : pc' = _ := hpc
      generalize Thread.pc _ = pc₀ at hmove
      cases hmove with
      | fetched hid => exact hid
  | polled _ hl _ _ hsame =>
    subst hsame
    rcases Waiters.mem_moved hl hth with hth | ⟨pc', hnone, -⟩
    · exact h th hth w status hpc
    · cases hnone
  | applied _ hl _ _ hsignal hsame =>
    subst hsame
    obtain ⟨th₀, hth₀, -, hcases⟩ := signalCond_mem hsignal hth
    have hpc₀ : th₀.pc = .updatePolled w status := by
      rcases hcases with ⟨hsame, -⟩ | ⟨-, hsame⟩
      · rwa [← hsame]
      · rw [hsame] at hpc
        cases hpc' : th₀.pc <;> simp [hpc', ThreadPc.signal] at hpc ⊢
        exact hpc
    rcases Waiters.mem_moved hl hth₀ with hth | ⟨pc', hsome, rfl⟩
    · exact h _ hth w status hpc₀
    · obtain rfl := Option.some.inj hsome
      cases hpc₀
  | gaveUp hl _ _ hsame =>
    subst hsame
    rcases Waiters.mem_moved hl hth with hth | ⟨pc', hsome, rfl⟩
    · exact h th hth w status hpc
    · obtain rfl := Option.some.inj hsome
      cases hpc
  | gaveUpPolled hl _ hsame =>
    subst hsame
    rcases Waiters.mem_moved hl hth with hth | ⟨pc', hnone, -⟩
    · exact h th hth w status hpc
    · cases hnone

/-- What a call of `wait_for_job_end` answers. -/
def WaitersEvent.answer : WaitersEvent → Option (ℕ × AipuStatus × JobState)
  | .answered _ jobId ret state => some (jobId, ret, state)
  | _ => none

/-- The one answer of a step. -/
theorem eq_of_answered {tid jobId jobId' : ℕ} {ret ret' : AipuStatus} {state state' : JobState}
    (hes : es.filterMap WaitersEvent.answer = [(jobId, ret, state)])
    (hmem : .answered tid jobId' ret' state' ∈ es) :
    jobId' = jobId ∧ ret' = ret ∧ state' = state := by
  have hone : (jobId', ret', state') ∈ es.filterMap WaitersEvent.answer :=
    List.mem_filterMap.mpr ⟨_, hmem, rfl⟩
  rw [hes, List.mem_singleton] at hone
  exact (Prod.mk.inj hone).imp_right Prod.mk.inj

/-- A step that writes no state answers for the final state, unless the thread finds that the job
was given up before it sleeps, or its poll fails. -/
theorem CheckInv.local_answer (h : CheckInv s) (hown : s.OwnRecords)
    (hl : s.thread c.entry.tid = some c)
    {pc : Option ThreadPc} (hmove : LocalMove s a c.entry.tid c.entry.pc pc es) {tid jobId : ℕ}
    {ret : AipuStatus} {state : JobState} (hmem : .answered tid jobId ret state ∈ es)
    {job : JobDesc} (hjob : s.ctx.getJob jobId = some job) (hended : job.state.Ended) :
    (ret, state) = finalAnswer job.state ∨
      ∃ w : WaitCall, w.jobId = jobId ∧
        ((c.entry.pc = .sleepCheck w ∧ (∃ woken, a = .next c.entry.tid woken) ∧
          job.state = .timeout) ∨ c.entry.pc = .poll w ∧ a = .pollFail c.entry.tid) := by
  have hallows := h.allows _ (Waiters.mem_thread hl)
  have howns := hown _ (Waiters.mem_thread hl)
  generalize c.entry.pc = pc₀ at hmove hallows howns
  cases hmove with
  | found hfound =>
    obtain ⟨rfl, rfl, rfl⟩ := eq_of_answered rfl hmem
    exact .inl (hfound job hjob hended)
  | noJob hnone =>
    obtain ⟨rfl, -, -⟩ := eq_of_answered rfl hmem
    exact absurd (hnone.symm.trans hjob) (by simp)
  | @notSched w _ ha hstored hstate =>
    obtain ⟨rfl, -, -⟩ := eq_of_answered rfl hmem
    obtain rfl := Option.some.inj (hjob.symm.trans hstored)
    refine .inr ⟨w, rfl, .inl ⟨rfl, ha, hstate.resolve_left fun hbuilt => ?_⟩⟩
    simp [hbuilt, JobState.Ended] at hended
  | read hderef =>
    obtain ⟨rfl, rfl, rfl⟩ := eq_of_answered rfl hmem
    obtain ⟨hstored, haddr⟩ := h.getJob_of_deref hderef
    obtain ⟨-, hret⟩ := hallows _ _ hstored rfl haddr.symm
    obtain rfl := Option.some.inj (hjob.symm.trans hstored)
    rw [hret]
    rcases hended with hstate | hstate | hstate <;> rw [hstate] <;> exact .inl rfl
  | @failed w ha =>
    obtain ⟨rfl, -, -⟩ := eq_of_answered rfl hmem
    exact .inr ⟨w, rfl, .inr ⟨rfl, ha⟩⟩
  | gone hnone =>
    obtain ⟨rfl, -, -⟩ := eq_of_answered rfl hmem
    rw [howns _ _ rfl] at hnone
    exact absurd (hnone.symm.trans hjob) (by simp)
  | _ => simp at hmem

/-- What is answered in a step that writes no state. -/
theorem CheckInv.local_answers (h : CheckInv s) (hown : s.OwnRecords)
    (hl : s.thread c.entry.tid = some c)
    (hC : s.KeepsAnswers a) {pc : Option ThreadPc}
    (hmove : LocalMove s a c.entry.tid c.entry.pc pc es)
    (hctx : s'.ctx = s.ctx) : AnswersFinal s' es := by
  intro tid jobId ret state hmem job hjob hended
  rw [hctx] at hjob
  rcases h.local_answer hown hl hmove hmem hjob hended with hanswer | ⟨w, rfl, hcase⟩
  · exact hanswer
  rcases hcase with ⟨hpc, ⟨woken, rfl⟩, htimeout⟩ | ⟨hpc, rfl⟩
  · have hkeeps := hC c hl
    rw [hpc] at hkeeps
    exact absurd htimeout (hkeeps job hjob)
  · exact absurd hended (hC c hl _ (by rw [hpc]; rfl) job hjob)

/-- **One step.**  A call that returns in a step under the conditions gives the answer of the final
state. -/
theorem CheckInv.answers (h : CheckInv s) (hown : s.OwnRecords) (hC : s.KeepsAnswers a)
    (hst : waitersStep s a = some (s', es)) : AnswersFinal s' es := by
  intro tid jobId ret state hmem job hjob hended
  cases waitersStep_moves hst with
  | same _ _ _ _ _ hes | started _ _ _ _ _ _ hes | flushed _ _ _ _ _ _ _ _ _ hes | cleaned _ _ hes
  | applied _ _ _ _ _ _ hes | gaveUp _ _ _ _ hes => simp [hes] at hmem
  | created _ hcreate =>
    obtain ⟨ret, ctx, new, -, -, rfl⟩ := Waiters.createNewJob_cases hcreate
    cases hmem
  | refused hsame hbuilt hes =>
    subst hsame
    obtain ⟨rfl, -, -⟩ := eq_of_answered (by rw [hes]; rfl) hmem
    simp [hbuilt job hjob, JobState.Ended] at hended
  | moved hl hmove hctx => exact h.local_answers hown hl hC hmove hctx _ _ _ _ hmem job hjob hended
  | @polled c w status woken _ ha hl hpc _ hsame hes =>
    subst ha hsame
    have hkeeps := hC c hl
    rw [hpc] at hkeeps
    obtain ⟨rfl, rfl, rfl⟩ := eq_of_answered (by rw [hes]; rfl) hmem
    rw [← hown _ (Waiters.mem_thread hl) w status hpc, (s.ctx.waitReply_spec status).getJob,
      if_pos rfl] at hjob
    obtain ⟨job₀, -, rfl⟩ := Option.map_eq_some_iff.mp hjob
    rw [hkeeps.2]
    rfl
  | @gaveUpPolled c w hl hpc hsame hes =>
    subst hsame
    obtain ⟨rfl, rfl, rfl⟩ := eq_of_answered (by rw [hes]; rfl) hmem
    rw [(s.ctx.waitTimeout_spec w.jobId).getJob, if_pos rfl] at hjob
    obtain ⟨job₀, -, rfl⟩ := Option.map_eq_some_iff.mp hjob
    rfl

end Steps

/-! ## Runs -/

/-- The invariants hold in every run. -/
theorem waitersSystem_checkInv {C : Waiters → WaitersAction → Prop}
    (hC : ∀ s a, C s a → s.KeepsAnswers a)
    {tr : List WaitersEvent} {s : Waiters} (h : waitersSystem.Run C tr s) :
    CheckInv s ∧ s.OwnRecords := by
  induction h with
  | start hs =>
    obtain ⟨hlost, -, -, hthreads, hjobs⟩ := hs
    exact ⟨⟨hlost, fun id i job hjob => (hjobs id i job hjob).2, by simp [hthreads],
      by simp [hthreads]⟩, by simp [Waiters.OwnRecords, hthreads]⟩
  | next _ hCa hst ih => exact ⟨ih.1.step (hC _ _ hCa).orderly hst, ih.2.step hst⟩

/-- **All ways of waiting answer alike.**  In every run under the conditions, a call that returns
when its job is in a final state gives the answer of this state; and a job that has ended stays so
until `clean_job`, so that every further wait repeats the answer. -/
theorem waits_answer_alike {tr : List WaitersEvent} {s : Waiters}
    (h : waitersSystem.Run Waiters.KeepsAnswers tr s) :
    (∀ a s' es, s.KeepsAnswers a → waitersStep s a = some (s', es) → AnswersFinal s' es) ∧
      ∀ jobId job, s.ctx.getJob jobId = some job → job.state.Ended → ∀ tr' s',
        waitersSystem.Steps (fun s a => s.KeepsAnswers a ∧ a ≠ .cleanJob jobId) s tr' s' →
          s'.ctx.getJob jobId = some job ∧ ∀ tid ret state, .answered tid jobId ret state ∈ tr' →
            (ret, state) = finalAnswer job.state := by
  obtain ⟨hcheck, hown⟩ := waitersSystem_checkInv (fun _ _ => id) h
  refine ⟨fun a s' es hC hst => hcheck.answers hown hC hst,
    fun jobId job hjob hended tr' s' hsteps => ?_⟩
  suffices hinv : (CheckInv s' ∧ s'.OwnRecords) ∧ s'.ctx.getJob jobId = some job ∧
      ∀ tid ret state, .answered tid jobId ret state ∈ tr' →
        (ret, state) = finalAnswer job.state from hinv.2
  induction hsteps with
  | refl => exact ⟨⟨hcheck, hown⟩, hjob, by simp⟩
  | tail _ hC hst ih =>
    obtain ⟨⟨hcheck, hown⟩, hjob, hanswers⟩ := ih
    have hjob' := (hcheck.keeps_ended hC.1 hst hjob hended).resolve_right hC.2
    refine ⟨⟨hcheck.step hC.1.orderly hst, hown.step hst⟩, hjob', fun tid ret state hmem => ?_⟩
    rcases List.mem_append.mp hmem with hmem | hmem
    · exact hanswers tid ret state hmem
    · exact hcheck.answers hown hC.1 hst tid jobId ret state hmem job hjob' hended

/-- A thread sleeps until the thread that polls has written that its job is done. -/
def sleepsUntilDone : List WaitersAction :=
  [.setRuntimeConfig true, .flushJob 65536 true, .waitForJobEnd 1 65536 0, .next 1 none,
    .next 1 none,
    .next 1 none, .next 1 none, .jobEnds ⟨65536, 7, .done⟩, .pollJobStatus 2, .polled 2 1,
      .next 2 (some 1),
    .wakeUp 1, .next 1 none, .next 1 none]

/-- A wait for a job that has ended. -/
def waitsAgain : List WaitersAction := [.waitForJobEnd 1 65536 100, .next 1 none, .next 1 none]

/-- The second wait for a job repeats the answer of the first one. -/
theorem waits_answer_alike_sample :
    ∃ (tr : List WaitersEvent) (s : Waiters) (tr' : List WaitersEvent) (s' : Waiters),
      waitersSystem.Run Waiters.KeepsAnswers tr s ∧ .answered 1 65536 .success .done ∈ tr ∧
      waitersSystem.Steps (fun s a => s.KeepsAnswers a ∧ a ≠ .cleanJob 65536) s tr' s' ∧
      .answered 1 65536 .success .done ∈ tr' ∧
      ∀ tid ret state, .answered tid 65536 ret state ∈ tr' → (ret, state) = (.success, .done) := by
  have hsome : (waitersSystem.exec Waiters.KeepsAnswers sampleWaiters sleepsUntilDone).bind
      (fun r => (waitersSystem.exec
        (fun s a => s.KeepsAnswers a ∧ a ≠ .cleanJob 65536) r.1 waitsAgain).map
        fun r' => (r.1.ctx.getJob 65536, decide (.answered 1 65536 .success .done ∈ r.2),
          decide (.answered 1 65536 .success .done ∈ r'.2))) =
      some (some ⟨0, 65536, .done, 65536, {}⟩, true, true) := by
    decide +kernel
  obtain ⟨⟨s, tr⟩, hexec, hrest⟩ := Option.bind_eq_some_iff.mp hsome
  obtain ⟨⟨s', tr'⟩, hexec', hsample⟩ := Option.map_eq_some_iff.mp hrest
  obtain ⟨hjob, hsample⟩ := Prod.mk.inj hsample
  obtain ⟨hfirst, hsecond⟩ := Prod.mk.inj hsample
  have hrun := System.run_of_exec sampleWaiters_init hexec
  have hsteps := System.steps_of_exec hexec'
  exact ⟨tr, s, tr', s', hrun, of_decide_eq_true hfirst, hsteps, of_decide_eq_true hsecond,
    ((waits_answer_alike hrun).2 65536 _ hjob (.inl rfl) tr' s' hsteps).2⟩

/-- A thread polls for its job until its time is over, and the job ends before it is killed. -/
def endsBeforeKillPolled : List WaitersAction :=
  [.flushJob 65536 true, .waitForJobEnd 1 65536 100, .next 1 none, .next 1 none, .polled 1 0,
    .jobEnds ⟨65536, 7, .done⟩, .next 1 none, .next 1 none]

/-- The record of the job is written, and the job is waited for again. -/
def waitsAfterLateRecord : List WaitersAction :=
  [.pollJobStatus 2, .polled 2 1, .next 2 none, .next 2 none] ++ waitsAgain

/-- The first wait answers that the job has timed out, and the second one that it is done. -/
theorem second_answer_differs :
    ∃ (tr : List WaitersEvent) (s : Waiters) (job : JobDesc) (tr' : List WaitersEvent)
    (s' : Waiters),
      waitersSystem.Run anyStep tr s ∧ s.ctx.getJob 65536 = some job ∧ job.state.Ended ∧
      .answered 1 65536 .errorJobTimeout .noState ∈ tr ∧
      waitersSystem.Steps (fun _ a => a ≠ .cleanJob 65536) s tr' s' ∧
      ¬∀ tid ret state, .answered tid 65536 ret state ∈ tr' →
        (ret, state) = finalAnswer job.state := by
  have hsome : (waitersSystem.exec anyStep sampleWaiters endsBeforeKillPolled).bind
      (fun r => (waitersSystem.exec (fun _ a => a ≠ .cleanJob 65536) r.1 waitsAfterLateRecord).map
        fun r' => (r.1.ctx.getJob 65536, decide (.answered 1 65536 .errorJobTimeout .noState ∈ r.2),
          decide (.answered 1 65536 .success .done ∈ r'.2))) =
      some (some ⟨0, 65536, .timeout, 65536, {}⟩, true, true) := by
    decide +kernel
  obtain ⟨⟨s, tr⟩, hexec, hrest⟩ := Option.bind_eq_some_iff.mp hsome
  obtain ⟨⟨s', tr'⟩, hexec', hsample⟩ := Option.map_eq_some_iff.mp hrest
  obtain ⟨hjob, hsample⟩ := Prod.mk.inj hsample
  obtain ⟨hfirst, hsecond⟩ := Prod.mk.inj hsample
  refine ⟨tr, s, _, tr', s', System.run_of_exec sampleWaiters_init hexec, hjob, .inr (.inr rfl),
    of_decide_eq_true hfirst, System.steps_of_exec hexec', fun hsame => ?_⟩
  have hanswer := hsame _ _ _ (of_decide_eq_true hsecond)
  cases hanswer

/-- A thread polls the exception of its job. -/
def pollsException : List WaitersAction :=
  [.flushJob 65536 true, .waitForJobEnd 1 65536 0, .next 1 none, .next 1 none,
    .jobEnds ⟨65536, 7, .exception⟩, .polled 1 1, .next 1 none]

/-- The wait that has polled the exception answers success, and the next one the error. -/
theorem polled_exception_answer :
    ∃ (tr : List WaitersEvent) (s : Waiters) (tr' : List WaitersEvent) (s' : Waiters),
      waitersSystem.Run anyStep tr s ∧ .answered 1 65536 .success .exception ∈ tr ∧
      waitersSystem.Steps (fun _ a => a ≠ .cleanJob 65536) s tr' s' ∧
      .answered 1 65536 .errorJobException .noState ∈ tr' := by
  have hsome : (waitersSystem.exec anyStep sampleWaiters pollsException).bind
      (fun r => (waitersSystem.exec (fun _ a => a ≠ .cleanJob 65536) r.1 waitsAgain).map
        fun r' => (decide (.answered 1 65536 .success .exception ∈ r.2),
          decide (.answered 1 65536 .errorJobException .noState ∈ r'.2))) = some (true, true) := by
    decide +kernel
  obtain ⟨⟨s, tr⟩, hexec, hrest⟩ := Option.bind_eq_some_iff.mp hsome
  obtain ⟨⟨s', tr'⟩, hexec', hsample⟩ := Option.map_eq_some_iff.mp hrest
  obtain ⟨hfirst, hsecond⟩ := Prod.mk.inj hsample
  exact ⟨tr, s, tr', s', System.run_of_exec sampleWaiters_init hexec, of_decide_eq_true hfirst,
    System.steps_of_exec hexec', of_decide_eq_true hsecond⟩

end Aipu
