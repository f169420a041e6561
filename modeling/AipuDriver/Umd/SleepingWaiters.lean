import AipuDriver.Umd.FinalAnswers

/-!
# Sleeping waiters and the thread that polls

With `poll_opt`, one thread fetches the records of all jobs and wakes up the threads that sleep.  A
record that it has written is never overwritten, every waiter of the job returns it, and a job is
given up only when the time limit has passed, as long as

* a sleep with a time limit ends early only when the record is there, since `pthread_cond_timedwait`
  is not in a loop,
* no record is written while a waiter of the job is between its checks, which are made without the
  lock, and its return, and
* the signal reaches every waiter that sleeps without a time limit, since `pthread_cond_signal`
  wakes up one thread.

The kernel hands out each record once, so a job has at most one record on its way
(`Waiters.pending`), and a job whose record is on its way has no record yet.
-/

namespace Aipu

open ListSearch Transition

/-! ## The threads -/

/-- The threads are in `poll_job_status`, or in `wait_for_job_end` with `poll_opt`; no job is
created or deleted. -/
def SleepersOnly (s : Waiters) : WaitersAction → Prop
  | .setRuntimeConfig pollOpt => pollOpt = true
  | .createNewJob _ _ _ _ => False
  | .cleanJob _ => False
  | _ => s.ctx.pollOpt = true

instance sleepersOnlyDecidable : DecidableRel SleepersOnly := fun s a => by
  rcases a <;> unfold SleepersOnly <;> infer_instance

/-- The thread polls the kernel for its own job. -/
def ThreadPc.PollsOwn : ThreadPc → Prop
  | .poll _ | .updatePolled _ _ | .killPolled _ | .setTimeoutPolled _ => True
  | _ => False

/-- The thread sleeps on the job without a time limit, and it was not signaled. -/
def ThreadPc.SleepsUntimed (pc : ThreadPc) (jobId : ℕ) : Prop :=
  match pc with
  | .asleep w _ false => w.jobId = jobId ∧ w.timeOut ≤ 0
  | _ => False

instance sleepsUntimedDecidable (pc : ThreadPc) : DecidablePred pc.SleepsUntimed :=
  fun _ => by rcases pc with
    _ | _ | _ | _ | _ | ⟨_, _, _ | _⟩ <;> unfold ThreadPc.SleepsUntimed <;> infer_instance

/-! ## The property -/

/-- An event after the record of the job was written: the job is not given up, and a waiter returns
what the record says. -/
def WaitersEvent.Agrees (e : WaitersEvent) (jobId : ℕ) (record : ReportedState) : Prop :=
  match e with
  | .gaveUp _ w => w.jobId ≠ jobId
  | .slept _ w ret state =>
    w.jobId = jobId → ret = (finalAnswer record.jobState).1 ∧ state = record.jobState
  | .answered _ i ret state => i = jobId → (ret, state) = finalAnswer record.jobState
  | _ => True

instance agreesDecidable (e : WaitersEvent) (jobId : ℕ) : DecidablePred (e.Agrees jobId) :=
  fun _ => by rcases e <;> unfold WaitersEvent.Agrees <;> infer_instance

/-- The second event agrees with the record, when the first one writes it. -/
def WaitersEvent.Respected : WaitersEvent → WaitersEvent → Prop
  | .applied jobId record, e => e.Agrees jobId record
  | _, _ => True

instance respectedDecidable : DecidableRel WaitersEvent.Respected :=
  fun e _ => by rcases e <;> unfold WaitersEvent.Respected <;> infer_instance

/-- A waiter that kills or gives up its job, or returns that it has timed out, has waited for its
time limit. -/
def WaitersEvent.InTime : WaitersEvent → Prop
  | .killed _ w | .gaveUp _ w => w.elapsed = true
  | .slept _ w ret _ => ret = .errorJobTimeout → w.elapsed = true
  | _ => True

instance inTimeEventDecidable : DecidablePred WaitersEvent.InTime :=
  fun e => by rcases e <;> unfold WaitersEvent.InTime <;> infer_instance

/-- Nothing is lost: a job keeps the record that was written to it, what comes later agrees with the
record, no job is given up before the time limit, and no waiter sleeps for ever. -/
structure LosesNothing (tr : List WaitersEvent) (s : Waiters) : Prop where
  kept : ∀ jobId record, .applied jobId record ∈ tr →
    ∃ job, s.ctx.getJob jobId = some job ∧ job.state = record.jobState
  respected : tr.Pairwise WaitersEvent.Respected
  inTime : ∀ e ∈ tr, e.InTime
  awake : ∀ jobId record, .applied jobId record ∈ tr → ∀ th ∈ s.threads, ¬th.pc.SleepsUntimed jobId

/-! ## The condition -/

/-- A sleep with a time limit ends when the limit has passed, or when the job has its record. -/
def Waiters.EndsSleep (s : Waiters) : ThreadPc → Prop
  | .asleep w addr _ =>
    0 < w.timeOut → w.elapsed = true ∨ ∀ job ∈ s.deref w.jobId addr, job.state.Settled
  | _ => True

instance endsSleepDecidable (s : Waiters) : DecidablePred s.EndsSleep :=
  fun pc => by rcases pc <;> unfold Waiters.EndsSleep <;> infer_instance

/-- The record that a thread writes reaches every waiter of the job: none gives the job up, and the
signal wakes up all that sleep without a time limit. -/
def Waiters.ReachesAll (s : Waiters) (woken : Option ℕ) (status : JobStatusDesc) : Prop :=
  ∀ th ∈ s.threads, ¬th.pc.GivesUp status.jobId status.state ∧
    (th.pc.SleepsUntimed status.jobId → woken = some th.tid)

instance reachesAllDecidable (s : Waiters) (woken : Option ℕ) :
    DecidablePred (s.ReachesAll woken) :=
  fun status =>
    inferInstanceAs (Decidable (∀ th ∈ s.threads, ¬th.pc.GivesUp status.jobId status.state ∧
    (th.pc.SleepsUntimed status.jobId → woken = some th.tid)))

/-- No sleep ends early, and a record that is written reaches every waiter of the job. -/
def Waiters.LosesNone (s : Waiters) : WaitersAction → Prop
  | .wakeUp tid => ∀ c ∈ s.thread tid, s.EndsSleep c.entry.pc
  | .next tid woken => ∀ c ∈ s.thread tid, ∀ status ∈ c.entry.pc.applies, s.ReachesAll woken status
  | _ => True

instance losesNoneDecidable : DecidableRel Waiters.LosesNone := fun s a => by
  rcases a <;> unfold Waiters.LosesNone <;> infer_instance

/-! ## The invariant -/

/-- What a thread has waited for when it goes on to give up its job. -/
def ThreadPc.Waited (pc : ThreadPc) (state : ℕ → Option JobState) : Prop :=
  match pc with
  | .checkDone w _ => w.elapsed = true ∨ ∃ settled, settled.Settled ∧ state w.jobId = some settled
  | .checkException w _ => w.elapsed = true ∨ state w.jobId = some .exception
  | .kill w _ | .setTimeout w _ => w.elapsed = true
  | .readStatus w _ ret => ret = .errorJobTimeout → w.elapsed = true
  | _ => True

/-- The pointer of a thread that will sleep or sleeps, with the id of the job. -/
def ThreadPc.sleeper : ThreadPc → Option (ℕ × ℕ)
  | .lock w addr | .asleep w addr _ => some (w.jobId, addr)
  | _ => none

/-- The states of the jobs. -/
def Waiters.jobStates (s : Waiters) (jobId : ℕ) :
    Option JobState := (s.ctx.getJob jobId).map JobDesc.state

/-- The invariant. -/
structure SleepInv (tr : List WaitersEvent) (s : Waiters) : Prop where
  check : CheckInv s
  sleeping : ∀ th ∈ s.threads, ¬th.pc.PollsOwn
  pending_le : ∀ i, s.pending i ≤ 1
  /-- A job whose record is on its way has no record yet. -/
  unsettled : ∀ i job, s.ctx.getJob i = some job → job.state.Settled ∨ job.state = .built →
    s.pending i = 0
  waited : ∀ th ∈ s.threads, th.pc.Waited s.jobStates
  /-- A thread sleeps on the job of its id. -/
  stored : ∀ th ∈ s.threads, ∀ p ∈ th.pc.sleeper, ∀ job, s.ctx.getJob p.1 = some job →
    job.addr = p.2
  nothing : LosesNothing tr s

section Steps

variable {tr es : List WaitersEvent} {s s' : Waiters} {a : WaitersAction} {c : Cursor Thread}

/-- A record is final. -/
theorem ReportedState.jobState_settled (record : ReportedState) : record.jobState.Settled := by
  cases record
  · exact .inl rfl
  · exact .inr rfl

/-- A job whose record was written has it. -/
theorem LosesNothing.state (h : LosesNothing tr s) {jobId : ℕ} {record : ReportedState}
    (happlied : .applied jobId record ∈ tr) {job : JobDesc} (hjob : s.ctx.getJob jobId = some job) :
    job.state = record.jobState := by
  obtain ⟨job', hjob', hstate⟩ := h.kept jobId record happlied
  rwa [Option.some.inj (hjob.symm.trans hjob')]

/-- A job whose record was written has ended with it. -/
theorem LosesNothing.settled (h : LosesNothing tr s) {jobId : ℕ} {record : ReportedState}
    (happlied : .applied jobId record ∈ tr) {job : JobDesc} (hjob : s.ctx.getJob jobId = some job) :
    job.state.Settled := h.state happlied hjob ▸ record.jobState_settled

/-- A record that a thread holds is on its way. -/
theorem Waiters.pending_pos {th : Thread} (hth : th ∈ s.threads) {jobId : ℕ}
    (hheld : jobId ∈ th.pc.held) :
    0 < s.pending jobId := by
  have hmem : jobId ∈ s.threads.flatMap fun th => th.pc.held :=
    List.mem_flatMap.mpr ⟨th, hth, hheld⟩
  have hcount := List.count_pos_iff.mpr hmem
  unfold Waiters.pending
  omega

/-! ### Threads -/

/-- Where a thread comes from. -/
inductive ThreadMove (s : Waiters) (a : WaitersAction) (th : Thread) : Prop
  | stayed (hth : th ∈ s.threads)
  | signaled {th₀ : Thread} (hth : th₀ ∈ s.threads) (hpc : th.pc = th₀.pc.signal)
  | idle (hpc : th.pc = .pollAll ∨ (∃ records, th.pc = .updateAll records) ∨
      ∃ w, th.pc = .isJobEnd w)
  | moved {c : Cursor Thread} {es : List WaitersEvent} (hl : s.thread c.entry.tid = some c)
      (hmove : LocalMove s a c.entry.tid c.entry.pc (some th.pc) es)
  | gaveUp {th₀ : Thread} {w : WaitCall} {addr : ℕ} (hth : th₀ ∈ s.threads)
      (hpc₀ : th₀.pc = .setTimeout w addr)
      (hpc : th.pc = .readStatus w addr .errorJobTimeout)

/-- Where the threads after a step come from. -/
theorem waitersStep_threads (hst : waitersStep s a = some (s', es)) {th : Thread}
    (hth : th ∈ s'.threads) :
    ThreadMove s a th := by
  cases waitersStep_moves hst with
  | same _ _ _ hthreads => exact .stayed (hthreads ▸ hth)
  | refused hsame => exact .stayed (hsame ▸ hth)
  | started _ _ hthreads _ _ hnew =>
    rcases List.mem_cons.mp (hthreads ▸ hth) with rfl | hth
    · exact .idle (hnew.imp_right fun ⟨w, _, hpc, _⟩ => .inr ⟨w, hpc⟩)
    · exact .stayed hth
  | created _ hcreate =>
    obtain ⟨ret, ctx, new, -, rfl, -⟩ := Waiters.createNewJob_cases hcreate
    exact .stayed hth
  | flushed _ _ _ _ _ _ _ hthreads => exact .stayed (hthreads ▸ hth)
  | cleaned _ hsame =>
    subst hsame
    exact .stayed hth
  | moved hl hmove _ _ hthreads =>
    rcases Waiters.mem_moved hl (hthreads ▸ hth) with hth | ⟨pc', rfl, rfl⟩
    · exact .stayed hth
    · exact .moved hl hmove
  | polled _ hl _ _ hsame =>
    subst hsame
    rcases Waiters.mem_moved hl hth with hth | ⟨pc', hnone, -⟩
    · exact .stayed hth
    · cases hnone
  | applied _ hl _ _ hsignal hsame =>
    subst hsame
    obtain ⟨th₀, hth₀, htid, hcases⟩ := signalCond_mem hsignal hth
    rcases Waiters.mem_moved hl hth₀ with hth₀ | ⟨pc', hsome, rfl⟩
    · rcases hcases with ⟨hpc, -⟩ | ⟨-, hpc⟩
      · obtain ⟨tid, pc⟩ := th
        obtain ⟨tid₀, pc₀⟩ := th₀
        obtain rfl : tid = tid₀ := htid
        obtain rfl : pc = pc₀ := hpc
        exact .stayed hth₀
      · exact .signaled hth₀ hpc
    · obtain rfl := Option.some.inj hsome
      exact .idle (.inr (.inl ⟨_, hcases.elim And.left And.right⟩))
  | gaveUp hl hpc _ hsame =>
    subst hsame
    rcases Waiters.mem_moved hl hth with hth | ⟨pc', hsome, rfl⟩
    · exact .stayed hth
    · obtain rfl := Option.some.inj hsome
      exact .gaveUp (Waiters.mem_thread hl) hpc rfl
  | gaveUpPolled hl _ hsame =>
    subst hsame
    rcases Waiters.mem_moved hl hth with hth | ⟨pc', hnone, -⟩
    · exact .stayed hth
    · cases hnone

/-- No thread polls for its own job. -/
theorem SleepInv.step_sleeping (h : SleepInv tr s) (hdom : SleepersOnly s a)
    (hst : waitersStep s a = some (s', es)) : ∀ th ∈ s'.threads, ¬th.pc.PollsOwn := by
  intro th hth
  cases waitersStep_threads hst hth with
  | stayed hth => exact h.sleeping th hth
  | @signaled th₀ hth hpc =>
    rw [hpc]
    have hold := h.sleeping th₀ hth
    generalize th₀.pc = pc₀ at hold ⊢
    cases pc₀ <;> exact hold
  | idle hpc => rcases hpc with hpc | ⟨_, hpc⟩ | ⟨_, hpc⟩ <;> simp [hpc, ThreadPc.PollsOwn]
  | @moved c es hl hmove =>
    have hold := h.sleeping _ (Waiters.mem_thread hl)
    generalize hentry : c.entry.pc = pc₀ at hmove hold
    generalize hpc : th.pc = pc at hmove
    cases hmove with
    | polls hopt =>
      cases a with
      | setRuntimeConfig pollOpt =>
        obtain ⟨rfl, -⟩ := Prod.mk.inj (Option.some.inj hst)
        exact hpc ▸ h.sleeping th hth
      | createNewJob | cleanJob => exact hdom.elim
      | _ => exact absurd (hopt.symm.trans hdom) Bool.false_ne_true
    | timeOver | fetched | killedPolled => exact absurd trivial hold
    | _ => exact fun hpolls => hpolls
  | gaveUp _ _ hpc =>
    rw [hpc]
    exact fun hpolls => hpolls

/-- Such a step is orderly: the job of a record has no record yet. -/
theorem SleepInv.orderly (h : SleepInv tr s) (hdom : SleepersOnly s a) (hC : s.LosesNone a) :
    s.Orderly a := by
  cases a with
  | createNewJob => exact hdom.elim
  | next tid woken =>
    intro c hc status hstatus
    have hreaches := hC c hc status hstatus
    have hl := (Waiters.thread_eq_some hc).2 ▸ hc
    refine ⟨fun job hjob hsettled => ?_, fun th hth => (hreaches th hth).1⟩
    have hpos := Waiters.pending_pos (Waiters.mem_thread hl) (ThreadPc.held_of_applies hstatus)
    exact absurd (h.unsettled _ job hjob (.inl hsettled)) (Nat.pos_iff_ne_zero.mp hpos)
  | polled tid cnt =>
    cases cnt with
    | zero =>
      intro c hc w hw
      have hmem := (Waiters.thread_eq_some hc).2 ▸ hc
      have hold := h.sleeping _ (Waiters.mem_thread hmem)
      cases hpc : c.entry.pc with
      | poll w => exact absurd (by rw [hpc]; trivial) hold
      | _ =>
        rw [hpc] at hw
        cases hw
    | succ => trivial
  | _ => trivial

/-- A job keeps its record. -/
theorem SleepInv.keeps_settled (h : SleepInv tr s) (hdom : SleepersOnly s a) (hC : s.LosesNone a)
    (hst : waitersStep s a = some (s', es)) {jobId : ℕ} {job : JobDesc}
    (hjob : s.ctx.getJob jobId = some job)
    (hsettled : job.state.Settled) : s'.ctx.getJob jobId = some job := by
  have horderly := h.orderly hdom hC
  have hother : ∀ {written : ℕ} {state : JobState}, s.ctx.Writes written state s'.ctx →
      (∀ job, s.ctx.getJob written = some job → ¬job.state.Settled) →
        s'.ctx.getJob jobId = some job := by
    intro written state hwrites hwritten
    have hne : jobId ≠ written := by
      rintro rfl
      exact hwritten job hjob hsettled
    rw [hwrites.getJob, if_neg hne]
    exact hjob
  cases waitersStep_moves hst with
  | same hjobs => rwa [MainContext.getJob, hjobs]
  | refused hsame => exact hsame ▸ hjob
  | started hctx => exact hctx ▸ hjob
  | created ha => exact (ha ▸ hdom :).elim
  | cleaned ha => exact (ha ▸ hdom :).elim
  | flushed _ hbuilt hstate _ hctx =>
    refine hother hctx fun job' hjob' hsettled' => ?_
    rw [Option.some.inj (hjob'.symm.trans hbuilt), hstate] at hsettled'
    simp [JobState.Settled] at hsettled'
  | moved _ _ hctx => exact hctx ▸ hjob
  | polled ha hl hpc _ hsame =>
    subst ha hsame
    exact hother (s.ctx.waitReply_spec _) (horderly _ hl _ (by rw [hpc]; rfl)).1
  | applied ha hl hpc _ _ hsame =>
    subst ha hsame
    exact hother (s.ctx.waitReply_spec _) (horderly _ hl _ (by rw [hpc]; rfl)).1
  | @gaveUp c w addr _ hl hpc hderef hsame =>
    obtain ⟨hstored, haddr⟩ := h.check.getJob_of_deref hderef
    rw [h.check.store_eq hderef] at hsame
    subst hsame
    have hallows := h.check.allows _ (Waiters.mem_thread hl) w.jobId _ hstored
    rw [hpc] at hallows
    refine hother (s.ctx.updateJobState_spec w.jobId .timeout).1 fun job' hjob' => ?_
    rw [Option.some.inj (hjob'.symm.trans hstored)]
    exact hallows rfl haddr.symm
  | gaveUpPolled hl hpc =>
    exact absurd (by rw [hpc]; trivial) (h.sleeping _ (Waiters.mem_thread hl))

/-- What a thread has waited for stays as long as the jobs keep their records. -/
theorem ThreadPc.Waited.mono {pc : ThreadPc} {state state' : ℕ → Option JobState}
    (h : pc.Waited state)
    (hstate : ∀ jobId settled, settled.Settled → state jobId = some settled →
      state' jobId = some settled) :
    pc.Waited state' := by
  cases pc with
  | checkDone w addr =>
    exact h.imp_right fun ⟨settled, hsettled, heq⟩ =>
      ⟨settled, hsettled, hstate w.jobId settled hsettled heq⟩
  | checkException w addr => exact h.imp_right (hstate w.jobId .exception (.inr rfl))
  | _ => exact h

/-- A signal changes nothing that a thread has waited for. -/
theorem ThreadPc.signal_waited (pc : ThreadPc) (state : ℕ → Option JobState) :
    pc.signal.Waited state ↔ pc.Waited state := by
  cases pc <;> rfl

/-- The state of a job that a thread reads. -/
theorem SleepInv.jobStates_eq (h : SleepInv tr s) {jobId addr : ℕ} {job : JobDesc}
    (hderef : s.deref jobId addr = some job) : s.jobStates jobId = some job.state := by
  rw [Waiters.jobStates, (h.check.getJob_of_deref hderef).1]
  rfl

/-- What a thread has waited for after a step that writes no state. -/
theorem SleepInv.local_waited (h : SleepInv tr s) (hC : s.LosesNone a)
    (hl : s.thread c.entry.tid = some c)
    {pc : ThreadPc} (hmove : LocalMove s a c.entry.tid c.entry.pc (some pc) es) :
    pc.Waited s.jobStates := by
  have hold := h.waited _ (Waiters.mem_thread hl)
  generalize hentry : c.entry.pc = pc₀ at hmove hold
  cases hmove with
  | locked hderef hsettled => exact .inr ⟨_, hsettled, h.jobStates_eq hderef⟩
  | @awake w addr signaled job ha hderef hstate =>
    subst ha
    have hends := hC c hl
    rw [hentry] at hends
    by_cases hsettled : job.state.Settled
    · exact .inr ⟨_, hsettled, h.jobStates_eq hderef⟩
    · refine (hends (hstate.resolve_left hsettled)).imp_right fun hall => ?_
      exact absurd (hall job hderef) hsettled
  | done | exception => exact fun hret => by cases hret
  | notDone hderef hstate =>
    refine hold.imp_right fun ⟨settled, hsettled, heq⟩ => ?_
    rw [h.jobStates_eq hderef] at heq ⊢
    obtain rfl := Option.some.inj heq
    rw [hsettled.resolve_left hstate]
  | notException hderef hstate =>
    refine hold.resolve_right fun hexception => hstate ?_
    rw [h.jobStates_eq hderef] at hexception
    exact Option.some.inj hexception
  | killed => exact hold
  | _ => trivial

/-- Whoever gives up its job has waited. -/
theorem SleepInv.step_waited (h : SleepInv tr s) (hdom : SleepersOnly s a) (hC : s.LosesNone a)
    (hst : waitersStep s a = some (s', es)) : ∀ th ∈ s'.threads, th.pc.Waited s'.jobStates := by
  intro th hth
  have hstates : ∀ jobId settled, settled.Settled → s.jobStates jobId = some settled →
      s'.jobStates jobId = some settled := by
    intro jobId settled hsettled hstate
    obtain ⟨job, hjob, rfl⟩ := Option.map_eq_some_iff.mp hstate
    rw [Waiters.jobStates, h.keeps_settled hdom hC hst hjob hsettled]
    rfl
  cases waitersStep_threads hst hth with
  | stayed hth => exact (h.waited th hth).mono hstates
  | @signaled th₀ hth hpc =>
    rw [hpc, ThreadPc.signal_waited]
    exact (h.waited th₀ hth).mono hstates
  | idle hpc =>
    rcases hpc with hpc | ⟨_, hpc⟩ | ⟨_, hpc⟩ <;> rw [hpc] <;> trivial
  | moved hl hmove => exact (h.local_waited hC hl hmove).mono hstates
  | @gaveUp th₀ w addr hth hpc₀ hpc =>
    have hold := h.waited th₀ hth
    rw [hpc₀] at hold
    rw [hpc]
    exact fun _ => hold

/-- A signal does not change on which job a thread sleeps. -/
theorem ThreadPc.signal_sleeper (pc : ThreadPc) : pc.signal.sleeper = pc.sleeper := by
  cases pc <;> rfl

/-- A step writes no address. -/
theorem SleepInv.getJob_addr (h : SleepInv tr s) (hdom : SleepersOnly s a)
    (hst : waitersStep s a = some (s', es)) {jobId : ℕ} {job' : JobDesc}
    (hjob' : s'.ctx.getJob jobId = some job') :
    ∃ job, s.ctx.getJob jobId = some job ∧ job.addr = job'.addr := by
  have hwritten : ∀ {written : ℕ} {state : JobState}, s.ctx.Writes written state s'.ctx →
      ∃ job, s.ctx.getJob jobId = some job ∧ job.addr = job'.addr := by
    intro written state hwrites
    rw [hwrites.getJob] at hjob'
    split_ifs at hjob'
    · obtain ⟨job, hjob, rfl⟩ := Option.map_eq_some_iff.mp hjob'
      exact ⟨job, hjob, rfl⟩
    · exact ⟨job', hjob', rfl⟩
  cases waitersStep_moves hst with
  | same hjobs => exact ⟨job', by rwa [MainContext.getJob, hjobs] at hjob', rfl⟩
  | refused hsame => exact ⟨job', hsame ▸ hjob', rfl⟩
  | started hctx => exact ⟨job', hctx ▸ hjob', rfl⟩
  | created ha => exact (ha ▸ hdom :).elim
  | cleaned ha => exact (ha ▸ hdom :).elim
  | flushed _ _ _ _ hctx => exact hwritten hctx
  | moved _ _ hctx => exact ⟨job', hctx ▸ hjob', rfl⟩
  | polled _ _ _ _ hsame =>
    subst hsame
    exact hwritten (s.ctx.waitReply_spec _)
  | applied _ _ _ _ _ hsame =>
    subst hsame
    exact hwritten (s.ctx.waitReply_spec _)
  | gaveUp _ _ hderef hsame =>
    rw [h.check.store_eq hderef] at hsame
    subst hsame
    exact hwritten (s.ctx.updateJobState_spec _ .timeout).1
  | gaveUpPolled _ _ hsame =>
    subst hsame
    exact hwritten (s.ctx.waitTimeout_spec _)

/-- A thread sleeps on the job of its id. -/
theorem SleepInv.step_stored (h : SleepInv tr s) (hdom : SleepersOnly s a)
    (hst : waitersStep s a = some (s', es)) :
    ∀ th ∈ s'.threads, ∀ p ∈ th.pc.sleeper, ∀ job, s'.ctx.getJob p.1 = some job →
      job.addr = p.2 := by
  intro th hth p hp job' hjob'
  obtain ⟨job, hjob, haddr⟩ := h.getJob_addr hdom hst hjob'
  rw [← haddr]
  cases waitersStep_threads hst hth with
  | stayed hth => exact h.stored th hth p hp job hjob
  | @signaled th₀ hth hpc =>
    rw [hpc, ThreadPc.signal_sleeper] at hp
    exact h.stored th₀ hth p hp job hjob
  | idle hpc =>
    rcases hpc with hpc | ⟨_, hpc⟩ | ⟨_, hpc⟩ <;> rw [hpc] at hp <;> cases hp
  | @moved c es hl hmove =>
    have hold := h.stored _ (Waiters.mem_thread hl)
    generalize c.entry.pc = pc₀ at hmove hold
    generalize th.pc = pc at hmove hp
    cases hmove with
    | checked hchecked =>
      obtain rfl := Option.some.inj hp
      rw [Option.some.inj (hjob.symm.trans hchecked)]
    | falls | again | elapses => exact hold p hp job hjob
    | _ => cases hp
  | gaveUp _ _ hpc =>
    rw [hpc] at hp
    cases hp

/-- Who falls asleep finds no record. -/
theorem SleepInv.local_awake (h : SleepInv tr s) {jobId : ℕ} {record : ReportedState}
    (happlied : .applied jobId record ∈ tr) {tid : ℕ} {pc pc' : ThreadPc}
    (hmove : LocalMove s a tid pc (some pc') es) :
    ¬pc'.SleepsUntimed jobId := by
  cases hmove with
  | falls hderef hsleep =>
    rintro ⟨rfl, hle⟩
    have hlt := hsleep (h.nothing.settled happlied (h.check.getJob_of_deref hderef).1)
    omega
  | again hderef hstate =>
    rintro ⟨rfl, -⟩
    exact hstate (h.nothing.settled happlied (h.check.getJob_of_deref hderef).1)
  | @elapses w addr signaled htime =>
    cases signaled with
    | false =>
      rintro ⟨-, hle⟩
      exact absurd htime (Int.not_lt.mpr hle)
    | true => exact fun hsleeps => hsleeps
  | _ => exact fun hsleeps => hsleeps

/-- A thread that was signaled does not sleep for ever. -/
theorem ThreadPc.signal_awake (pc : ThreadPc) (jobId : ℕ) : ¬pc.signal.SleepsUntimed jobId := by
  cases pc <;> exact fun hsleeps => hsleeps

/-- No thread sleeps for ever on a job that has had its record before. -/
theorem SleepInv.step_awake (h : SleepInv tr s) (hst : waitersStep s a = some (s', es)) {jobId : ℕ}
    {record : ReportedState} (happlied : .applied jobId record ∈ tr) :
    ∀ th ∈ s'.threads, ¬th.pc.SleepsUntimed jobId := by
  intro th hth
  cases waitersStep_threads hst hth with
  | stayed hth => exact h.nothing.awake jobId record happlied th hth
  | @signaled th₀ _ hpc => exact hpc ▸ th₀.pc.signal_awake jobId
  | idle hpc => rcases hpc with hpc | ⟨_, hpc⟩ | ⟨_, hpc⟩ <;> exact hpc ▸ fun hsleeps => hsleeps
  | moved _ hmove => exact h.local_awake happlied hmove
  | gaveUp _ _ hpc => exact hpc ▸ fun hsleeps => hsleeps

/-- A record that reaches every waiter leaves none of them asleep for ever. -/
theorem SleepInv.signal_awake (h : SleepInv tr s) {status : JobStatusDesc}
    {rest : List JobStatusDesc}
    {woken : Option ℕ} {job : JobDesc} {threads : List Thread}
    (hreaches : s.ReachesAll woken status)
    (hl : s.thread c.entry.tid = some c) (hjob : s.ctx.getJob status.jobId = some job)
    (hsignal : signalCond (movedThreads c (some (.updateAll rest))) job.addr woken = some threads) :
    ∀ th ∈ threads, ¬th.pc.SleepsUntimed status.jobId := by
  intro th' hth' hsleeps
  obtain ⟨th, hth, -, hcases⟩ := signalCond_mem hsignal hth'
  rcases hcases with ⟨hpc, hnot⟩ | ⟨-, hpc⟩
  · rw [hpc] at hsleeps
    rcases Waiters.mem_moved hl hth with hth | ⟨pc', hsome, rfl⟩
    · -- the thread is the one that was signaled
      have hwoken := (hreaches th hth).2 hsleeps
      have hon := hnot.resolve_left (not_not.mpr hwoken)
      have hstored := h.stored th hth
      generalize th.pc = pc at hsleeps hon hstored
      rcases pc with _ | _ | _ | _ | _ | ⟨w, addr, _ | _⟩
      case asleep.false =>
        obtain ⟨hid, -⟩ := hsleeps
        have haddr := hstored _ rfl job (by rw [hid]; exact hjob)
        simp [ThreadPc.sleepsOn, haddr] at hon
      all_goals exact hsleeps
    · obtain rfl := Option.some.inj hsome
      exact hsleeps
  · exact th.pc.signal_awake _ (hpc ▸ hsleeps)

/-! ### Records on their way -/

/-- A signal takes no record. -/
theorem signalCond_held {threads threads' : List Thread} {addr : ℕ} {woken : Option ℕ}
    (h : signalCond threads addr woken = some threads') :
    (threads'.flatMap fun th => th.pc.held) = threads.flatMap fun th => th.pc.held := by
  unfold signalCond at h
  split at h
  · split_ifs at h
    rw [Option.some.inj h]
  · split_ifs at h
    rw [← Option.some.inj h, List.flatMap_map]
    congr 1
    funext th
    split_ifs
    · cases hpc : th.pc <;> rfl
    · rfl

/-- A record that is written is no longer on its way. -/
theorem Waiters.pending_applied {status : JobStatusDesc} {rest : List JobStatusDesc}
    {woken : Option ℕ} {addr : ℕ}
    {threads : List Thread} {ctx : MainContext} (hl : s.thread c.entry.tid = some c)
    (hpc : c.entry.pc = .updateAll (status :: rest))
    (hsignal : signalCond (movedThreads c (some (.updateAll rest))) addr woken = some threads)
    (i : ℕ) :
    ({ s with ctx := ctx, threads := threads } : Waiters).pending i +
      (if status.jobId = i then 1 else 0) =
      s.pending i := by
  unfold Waiters.pending
  rw [signalCond_held hsignal, (Waiters.thread_eq_some hl).1]
  simp [movedThreads, Cursor.toList, hpc, ThreadPc.held, List.count_cons]
  omega

/-- The records on their way, when the state of a job is written. -/
theorem SleepInv.pending_writes (h : SleepInv tr s) {written : ℕ} {state : JobState}
    (hctx : s.ctx.Writes written state s'.ctx)
    (hother : ∀ i, i ≠ written → s'.pending i ≤ s.pending i)
    (hle : s'.pending written ≤ 1)
    (hwritten : state.Settled ∨ state = .built → s'.pending written = 0) : (∀ i, s'.pending i ≤ 1) ∧
      ∀ i job, s'.ctx.getJob i = some job → job.state.Settled ∨ job.state = .built →
        s'.pending i = 0 := by
  refine ⟨fun i => ?_, fun i job hjob hstate => ?_⟩
  · by_cases hi : i = written
    · exact hi ▸ hle
    · exact (hother i hi).trans (h.pending_le i)
  · rw [hctx.getJob] at hjob
    split_ifs at hjob with hi
    · obtain ⟨job₀, -, rfl⟩ := Option.map_eq_some_iff.mp hjob
      exact hi ▸ hwritten hstate
    · exact Nat.le_zero.mp (h.unsettled i job hjob hstate ▸ hother i hi)

/-- The records on their way, when no job changes. -/
theorem SleepInv.pending_unchanged (h : SleepInv tr s)
    (hctx : ∀ i, s'.ctx.getJob i = s.ctx.getJob i) (hpending : ∀ i, s'.pending i ≤ s.pending i) :
    (∀ i, s'.pending i ≤ 1) ∧
      ∀ i job, s'.ctx.getJob i = some job → job.state.Settled ∨ job.state = .built →
        s'.pending i = 0 :=
  ⟨fun i => (hpending i).trans (h.pending_le i),
    fun i job hjob hstate => Nat.le_zero.mp (h.unsettled i job (hctx i ▸ hjob) hstate ▸ hpending i)⟩

/-- A job has at most one record on its way, and none once it has been written. -/
theorem SleepInv.step_pending (h : SleepInv tr s) (hdom : SleepersOnly s a)
    (hst : waitersStep s a = some (s', es)) : (∀ i, s'.pending i ≤ 1) ∧
      ∀ i job, s'.ctx.getJob i = some job → job.state.Settled ∨ job.state = .built →
        s'.pending i = 0 := by
  cases waitersStep_moves hst with
  | same hjobs _ _ _ hpending => exact h.pending_unchanged (fun i => hjobs _ i) hpending
  | refused hsame => exact hsame ▸ ⟨h.pending_le, h.unsettled⟩
  | started hctx _ _ hpending => exact h.pending_unchanged (fun i => by rw [hctx]) hpending
  | created ha => exact (ha ▸ hdom :).elim
  | cleaned ha => exact (ha ▸ hdom :).elim
  | @flushed jobId job state _ hjob hbuilt hstate hctx _ _ _ hpending =>
    -- a job that is flushed was built
    have hnone := h.unsettled jobId job hjob (.inr hbuilt)
    refine h.pending_writes hctx (fun i hi => ?_) ?_ fun hwritten => ?_
    · exact (hpending i).trans_eq (by rw [if_neg hi]; rfl)
    · exact (hpending jobId).trans_eq (by rw [hnone, if_pos rfl])
    · rcases hstate with rfl | rfl <;> simp [JobState.Settled] at hwritten
  | moved _ _ hctx _ _ hpending => exact h.pending_unchanged (fun i => by rw [hctx]) hpending
  | polled _ hl hpc => exact absurd (by rw [hpc]; trivial) (h.sleeping _ (Waiters.mem_thread hl))
  | @applied c status rest woken job threads ha hl hpc _ hsignal hsame =>
    subst hsame
    have hpending := @Waiters.pending_applied s c status rest woken job.addr threads
      (s.ctx.waitReply status.jobId status).2 hl hpc hsignal
    have hone := hpending status.jobId
    rw [if_pos rfl] at hone
    have hle := h.pending_le status.jobId
    refine h.pending_writes (s.ctx.waitReply_spec status) (fun i _ => ?_) ?_ fun _ => ?_
    · exact (Nat.le_add_right _ _).trans_eq (hpending i)
    · omega
    · omega
  | @gaveUp c w addr job hl hpc hderef hsame =>
    rw [h.check.store_eq hderef] at hsame
    have hctx : s.ctx.Writes w.jobId .timeout s'.ctx :=
      hsame ▸ (s.ctx.updateJobState_spec w.jobId .timeout).1
    have hpending : ∀ i, s'.pending i ≤ s.pending i := by
      subst hsame
      exact Waiters.pending_moved (Waiters.thread_eq_some hl).1 rfl (fun _ => Nat.le_refl _)
        fun _ => Nat.le_add_right _ _
    refine h.pending_writes hctx (fun i _ => hpending i) ((hpending _).trans (h.pending_le _))
      fun hwritten => ?_
    simp [JobState.Settled] at hwritten
  | gaveUpPolled hl hpc =>
    exact absurd (by rw [hpc]; trivial) (h.sleeping _ (Waiters.mem_thread hl))

/-! ### Events -/

/-- What a step that writes no state says about a job agrees with the record of the job. -/
theorem SleepInv.local_agrees (h : SleepInv tr s) (hl : s.thread c.entry.tid = some c) {jobId : ℕ}
    {record : ReportedState} (happlied : .applied jobId record ∈ tr) {pc : Option ThreadPc}
    (hmove : LocalMove s a c.entry.tid c.entry.pc pc es) : ∀ e ∈ es, e.Agrees jobId record := by
  have hold := h.sleeping _ (Waiters.mem_thread hl)
  have hallows := h.check.allows _ (Waiters.mem_thread hl)
  obtain ⟨job, hjob, hstate⟩ := h.nothing.kept jobId record happlied
  have hsettled := h.nothing.settled happlied hjob
  generalize c.entry.pc = pc₀ at hmove hold hallows
  cases hmove with
  | found hfound =>
    refine List.forall_mem_singleton.mpr ?_
    rintro rfl
    exact hstate ▸ hfound job hjob (hsettled.imp_right .inl)
  | noJob hnone =>
    refine List.forall_mem_singleton.mpr ?_
    rintro rfl
    cases hnone.symm.trans hjob
  | notSched _ hstored hnot =>
    refine List.forall_mem_singleton.mpr ?_
    rintro rfl
    rw [Option.some.inj (hstored.symm.trans hjob)] at hnot
    rcases hnot with hnot | hnot <;> simp [hnot, JobState.Settled] at hsettled
  | @read w addr ret job' hderef =>
    obtain ⟨hstored, haddr⟩ := h.check.getJob_of_deref hderef
    obtain ⟨-, hret⟩ := hallows _ _ hstored rfl haddr.symm
    have hread : w.jobId = jobId → job'.state = record.jobState := by
      rintro rfl
      rw [Option.some.inj (hstored.symm.trans hjob), hstate]
    refine List.forall_mem_cons.mpr
      ⟨fun hid => ⟨?_, hread hid⟩, List.forall_mem_singleton.mpr fun hid => ?_⟩
    · rw [hret, hread hid]
    · rw [hret, hread hid]
      cases record <;> rfl
  | killed | returned => exact List.forall_mem_singleton.mpr trivial
  | failed | gone | killedPolled => exact absurd trivial hold
  | _ => exact List.forall_mem_nil _

/-- What a step says agrees with the records that were written before. -/
theorem SleepInv.step_agrees (h : SleepInv tr s) (hst : waitersStep s a = some (s', es)) {jobId : ℕ}
    {record : ReportedState} (happlied : .applied jobId record ∈ tr) :
    ∀ e ∈ es, e.Agrees jobId record := by
  obtain ⟨job, hjob, -⟩ := h.nothing.kept jobId record happlied
  have hsettled := h.nothing.settled happlied hjob
  cases waitersStep_moves hst with
  | same _ _ _ _ _ hes | started _ _ _ _ _ _ hes | flushed _ _ _ _ _ _ _ _ _ hes
  | cleaned _ _ hes => simp [hes]
  | created _ hcreate =>
    obtain ⟨ret, ctx, new, -, -, rfl⟩ := Waiters.createNewJob_cases hcreate
    exact List.forall_mem_nil _
  | refused _ hbuilt hes =>
    rw [hes]
    refine List.forall_mem_singleton.mpr ?_
    rintro rfl
    simp [hbuilt job hjob, JobState.Settled] at hsettled
  | moved hl hmove => exact h.local_agrees hl happlied hmove
  | applied _ _ _ _ _ _ hes => exact hes ▸ List.forall_mem_singleton.mpr trivial
  | @gaveUp c w addr job' hl hpc hderef _ hes =>
    rw [hes]
    refine List.forall_mem_singleton.mpr ?_
    -- the thread relies on the job having no record
    rintro rfl
    have hallows := h.check.allows _ (Waiters.mem_thread hl)
    rw [hpc] at hallows
    obtain ⟨hstored, haddr⟩ := h.check.getJob_of_deref hderef
    exact hallows _ _ hstored rfl haddr.symm (h.nothing.settled happlied hstored)
  | polled _ hl hpc | gaveUpPolled hl hpc =>
    exact absurd (by rw [hpc]; trivial) (h.sleeping _ (Waiters.mem_thread hl))

/-- Who gives up its job in a step has waited for its time limit. -/
theorem SleepInv.step_inTime (h : SleepInv tr s) (hst : waitersStep s a = some (s', es)) :
    ∀ e ∈ es, e.InTime := by
  cases waitersStep_moves hst with
  | same _ _ _ _ _ hes | started _ _ _ _ _ _ hes | flushed _ _ _ _ _ _ _ _ _ hes
  | cleaned _ _ hes => simp [hes]
  | created _ hcreate =>
    obtain ⟨ret, ctx, new, -, -, rfl⟩ := Waiters.createNewJob_cases hcreate
    exact List.forall_mem_nil _
  | refused _ _ hes | applied _ _ _ _ _ _ hes => exact hes ▸ List.forall_mem_singleton.mpr trivial
  | @moved c pc hl hmove =>
    have hold := h.sleeping _ (Waiters.mem_thread hl)
    have hwaited := h.waited _ (Waiters.mem_thread hl)
    generalize c.entry.pc = pc₀ at hmove hold hwaited
    cases hmove with
    | found | noJob | notSched | returned => exact List.forall_mem_singleton.mpr trivial
    | killed => exact List.forall_mem_singleton.mpr hwaited
    | read => exact List.forall_mem_cons.mpr ⟨hwaited, List.forall_mem_singleton.mpr trivial⟩
    | failed | gone | killedPolled => exact absurd trivial hold
    | _ => exact List.forall_mem_nil _
  | gaveUp hl hpc _ _ hes =>
    have hwaited := h.waited _ (Waiters.mem_thread hl)
    rw [hpc] at hwaited
    exact hes ▸ List.forall_mem_singleton.mpr hwaited
  | polled _ hl hpc | gaveUpPolled hl hpc =>
    exact absurd (by rw [hpc]; trivial) (h.sleeping _ (Waiters.mem_thread hl))

/-- A step writes a record only when a thread takes it from its list; it does nothing else then. -/
theorem SleepInv.step_applies (h : SleepInv tr s) (hC : s.LosesNone a)
    (hst : waitersStep s a = some (s', es)) {jobId : ℕ}
    {record : ReportedState} (happlied : .applied jobId record ∈ es) :
    es = [.applied jobId record] ∧
      (∃ job, s'.ctx.getJob jobId = some job ∧ job.state = record.jobState) ∧
      ∀ th ∈ s'.threads, ¬th.pc.SleepsUntimed jobId := by
  cases waitersStep_moves hst with
  | same _ _ _ _ _ hes | started _ _ _ _ _ _ hes | flushed _ _ _ _ _ _ _ _ _ hes | cleaned _ _ hes
  | refused _ _ hes
  | gaveUp _ _ _ _ hes | gaveUpPolled _ _ _ hes => simp [hes] at happlied
  | created _ hcreate =>
    obtain ⟨ret, ctx, new, -, -, rfl⟩ := Waiters.createNewJob_cases hcreate
    cases happlied
  | @moved c pc hl hmove =>
    generalize c.entry.pc = pc₀ at hmove
    cases hmove <;> simp at happlied
  | polled _ hl hpc => exact absurd (by rw [hpc]; trivial) (h.sleeping _ (Waiters.mem_thread hl))
  | @applied c status rest woken job threads ha hl hpc hjob hsignal hsame hes =>
    subst ha hsame
    rw [hes] at happlied
    obtain ⟨rfl, rfl⟩ : jobId = status.jobId ∧ record = status.state := by simpa using happlied
    refine ⟨hes, ⟨{ job with state := status.state.jobState }, ?_, rfl⟩, ?_⟩
    · rw [(s.ctx.waitReply_spec status).getJob, if_pos rfl, hjob]
      rfl
    · exact h.signal_awake (hC c hl status (by rw [hpc]; rfl)) hl hjob hsignal

/-- **One step.**  A step that loses nothing keeps the invariant. -/
theorem SleepInv.step (h : SleepInv tr s) (hdom : SleepersOnly s a) (hC : s.LosesNone a)
    (hst : waitersStep s a = some (s', es)) : SleepInv (tr ++ es) s' := by
  obtain ⟨hpending, hunsettled⟩ := h.step_pending hdom hst
  refine ⟨h.check.step (h.orderly hdom hC) hst, h.step_sleeping hdom hst, hpending, hunsettled,
    h.step_waited hdom hC hst, h.step_stored hdom hst, ?_⟩
  refine ⟨fun jobId record happlied => ?_, ?_, fun e he => ?_, fun jobId record happlied => ?_⟩
  · rcases List.mem_append.mp happlied with happlied | happlied
    · obtain ⟨job, hjob, hstate⟩ := h.nothing.kept jobId record happlied
      exact ⟨job, h.keeps_settled hdom hC hst hjob (h.nothing.settled happlied hjob), hstate⟩
    · exact (h.step_applies hC hst happlied).2.1
  · refine List.pairwise_append.mpr ⟨h.nothing.respected, ?_, fun e he e' he' => ?_⟩
    · by_cases happlied : ∃ jobId record, .applied jobId record ∈ es
      · obtain ⟨jobId, record, happlied⟩ := happlied
        rw [(h.step_applies hC hst happlied).1]
        exact List.pairwise_singleton ..
      · refine List.pairwise_of_forall_mem_list fun e he e' _ => ?_
        cases e with
        | applied jobId record => exact absurd ⟨jobId, record, he⟩ happlied
        | _ => trivial
    · cases e with
      | applied jobId record => exact h.step_agrees hst he e' he'
      | _ => trivial
  · rcases List.mem_append.mp he with he | he
    · exact h.nothing.inTime e he
    · exact h.step_inTime hst e he
  · rcases List.mem_append.mp happlied with happlied | happlied
    · exact h.step_awake hst happlied
    · exact (h.step_applies hC hst happlied).2.2

end Steps

/-! ## Runs -/

/-- **Nothing is lost.**  In every run of threads that sleep or poll for all jobs, in which no sleep
ends early and every record reaches all waiters of its job, a record that was written is never
overwritten, every waiter returns it, and a waiter gives up its job only after its time limit. -/
theorem sleepers_lose_nothing {tr : List WaitersEvent} {s : Waiters}
    (h : waitersSystem.Run (fun s a => SleepersOnly s a ∧ s.LosesNone a) tr s) :
    LosesNothing tr s := by
  refine SleepInv.nothing (h.invariant (I := SleepInv) ?_ ?_)
  · rintro s ⟨hlost, hrunning, hrecords, hthreads, hjobs⟩
    have hpending : ∀ i, s.pending i = 0 := by simp [Waiters.pending, hrunning, hrecords, hthreads]
    exact ⟨⟨hlost, fun id i job hjob => (hjobs id i job hjob).2, by simp [hthreads],
      by simp [hthreads]⟩,
      by simp [hthreads], fun i => by simp [hpending], fun i _ _ _ => hpending i,
        by simp [hthreads],
      by simp [hthreads], ⟨by simp, .nil, by simp, by simp⟩⟩
  · rintro tr s a s' es hinv ⟨hdom, hC⟩ hst
    exact hinv.step hdom hC hst

/-- The thread waits for the job until it sleeps. -/
def fallsAsleep (tid : ℕ) (timeOut : ℤ) : List WaitersAction :=
  .waitForJobEnd tid 65536 timeOut :: List.replicate 4 (.next tid none)

/-- The job ends, and a thread has fetched its record. -/
def recordFetched :
    List WaitersAction := [.jobEnds ⟨65536, 7, .done⟩, .pollJobStatus 2, .polled 2 1]

/-- One thread sleeps without a time limit and one until its time is over, and both return the
record. -/
theorem sleepers_lose_nothing_sample :
    ∃ (tr : List WaitersEvent) (s : Waiters), LosesNothing tr s ∧ .applied 65536 .done ∈ tr ∧
      .answered 1 65536 .success .done ∈ tr ∧ .answered 3 65536 .success .done ∈ tr := by
  have hsome : (waitersSystem.exec (fun s a => SleepersOnly s a ∧ s.LosesNone a) sampleWaiters
      (.setRuntimeConfig true :: .flushJob 65536 true :: fallsAsleep 1 0 ++ fallsAsleep 3 100 ++
        recordFetched ++
        [.next 2 (some 1), .wakeUp 1, .next 1 none, .next 1 none, .elapse 3, .wakeUp 3,
          .next 3 none, .next 3 none])).map
      (fun r => (decide (.applied 65536 .done ∈ r.2),
        decide (.answered 1 65536 .success .done ∈ r.2),
        decide (.answered 3 65536 .success .done ∈ r.2))) = some (true, true, true) := by
    decide +kernel
  obtain ⟨⟨s, tr⟩, hexec, hsample⟩ := Option.map_eq_some_iff.mp hsome
  obtain ⟨happlied, hsample⟩ := Prod.mk.inj hsample
  obtain ⟨hfirst, hsecond⟩ := Prod.mk.inj hsample
  have hrun := System.run_of_exec sampleWaiters_init hexec
  exact ⟨tr, s, sleepers_lose_nothing hrun, of_decide_eq_true happlied, of_decide_eq_true hfirst,
    of_decide_eq_true hsecond⟩

/-- A waiter whose time is over finds no record, the record is written, and the waiter gives the job
up.  Another waiter wakes up at once and kills its job.  Two waiters sleep without a time limit when
the record is written, and one of them is woken up. -/
theorem sleepers_lose_records :
    (∃ (tr : List WaitersEvent) (s : Waiters), waitersSystem.Run SleepersOnly tr s ∧
      .applied 65536 .done ∈ tr ∧ .answered 1 65536 .errorJobTimeout .noState ∈ tr ∧
      s.jobStates 65536 = some .timeout ∧ ¬LosesNothing tr s) ∧
    (∃ (tr : List WaitersEvent) (s : Waiters), waitersSystem.Run SleepersOnly tr s ∧
      .killed 1 ⟨65536, 100, false⟩ ∈ tr ∧ ¬LosesNothing tr s) ∧
    ∃ (tr : List WaitersEvent) (s : Waiters), waitersSystem.Run SleepersOnly tr s ∧
      .applied 65536 .done ∈ tr ∧ (∃ th ∈ s.threads, th.pc.SleepsUntimed 65536) ∧
        ¬LosesNothing tr s := by
  refine ⟨?_, ?_, ?_⟩
  · have hsome : (waitersSystem.exec SleepersOnly sampleWaiters
        (.setRuntimeConfig true :: .flushJob 65536 true :: fallsAsleep 1 100 ++ recordFetched ++
          [.elapse 1, .wakeUp 1, .next 1 none, .next 1 none, .next 2 none, .next 1 none,
            .next 1 none, .next 1 none])).map
        (fun r => (decide (.applied 65536 .done ∈ r.2),
          decide (.answered 1 65536 .errorJobTimeout .noState ∈ r.2),
          r.1.jobStates 65536)) = some (true, true, some .timeout) := by
      decide +kernel
    obtain ⟨⟨s, tr⟩, hexec, hsample⟩ := Option.map_eq_some_iff.mp hsome
    obtain ⟨happlied, hsample⟩ := Prod.mk.inj hsample
    obtain ⟨hanswer, hstate⟩ := Prod.mk.inj hsample
    refine ⟨tr, s, System.run_of_exec sampleWaiters_init hexec, of_decide_eq_true happlied,
      of_decide_eq_true hanswer, hstate, fun hnothing => ?_⟩
    -- the state of the job is not that of its record
    obtain ⟨job, hjob, hdone⟩ := hnothing.kept 65536 .done (of_decide_eq_true happlied)
    dsimp only at hstate
    rw [Waiters.jobStates, hjob, Option.map_some, hdone] at hstate
    cases hstate
  · have hsome : (waitersSystem.exec SleepersOnly sampleWaiters
        (.setRuntimeConfig true :: .flushJob 65536 true :: fallsAsleep 1 100 ++
          [.wakeUp 1, .next 1 none, .next 1 none, .next 1 none])).map
        (fun r => decide (.killed 1 ⟨65536, 100, false⟩ ∈ r.2)) = some true := by
      decide +kernel
    obtain ⟨⟨s, tr⟩, hexec, hkilled⟩ := Option.map_eq_some_iff.mp hsome
    refine ⟨tr, s, System.run_of_exec sampleWaiters_init hexec, of_decide_eq_true hkilled,
      fun hnothing => ?_⟩
    cases hnothing.inTime _ (of_decide_eq_true hkilled)
  · have hsome : (waitersSystem.exec SleepersOnly sampleWaiters
        (.setRuntimeConfig true :: .flushJob 65536 true :: fallsAsleep 1 0 ++ fallsAsleep 3 0 ++
          recordFetched ++ [.next 2 (some 1)])).map
        (fun r => (decide (.applied 65536 .done ∈ r.2),
          decide (∃ th ∈ r.1.threads, th.pc.SleepsUntimed 65536))) = some (true, true) := by
      decide +kernel
    obtain ⟨⟨s, tr⟩, hexec, hsample⟩ := Option.map_eq_some_iff.mp hsome
    obtain ⟨happlied, hsleeps⟩ := Prod.mk.inj hsample
    obtain ⟨th, hth, hsleeps⟩ := of_decide_eq_true hsleeps
    exact ⟨tr, s, System.run_of_exec sampleWaiters_init hexec, of_decide_eq_true happlied,
      ⟨th, hth, hsleeps⟩,
      fun hnothing => hnothing.awake 65536 .done (of_decide_eq_true happlied) th hth hsleeps⟩

end Aipu
