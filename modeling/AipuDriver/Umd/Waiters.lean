import AipuDriver.Lib.Cursor
import AipuDriver.Umd.JobStates

/-!
# Threads that wait for jobs (`context.cpp`, `graph.cpp`)

Any number of threads of one context are in `wait_for_job_end` or in `poll_job_status`.  A step is
one critical section of `job->lock`, one statement outside of them, or one call that reads the state
of a job once (`is_job_sched`, `is_job_end`, `get_job_status`).  With `poll_opt`, `wait_for_job_end`
sleeps in `wait_for_job_end_sleep`:

* it takes the lock and sleeps, without a time limit until the job has ended, with one until it is
  woken up for any reason;
* after it has given the lock back, it reads the state, kills the job if it has not ended and writes
  `JOB_STATE_TIMEOUT`, all without the lock.

Without `poll_opt`, it polls the kernel itself.  Of the kernel driver, the jobs that it still runs
and the records that nobody has fetched are kept; it hands out every record once.  The calls about
jobs that do not wait are one step each.

A thread in `wait_for_job_end_sleep` holds a pointer to its job, so that it goes on with a job that
another one has replaced in the map (`lost`), and cannot go on when the job was deleted.
-/

namespace Aipu

open ListSearch Transition

/-! ## State -/

/-- A call of `wait_for_job_end`. -/
structure WaitCall where
  jobId : ℕ
  timeOut : ℤ
  /-- The time limit has passed since the call began to wait. -/
  elapsed : Bool := false
deriving DecidableEq, Repr

/-- What a thread does next. -/
inductive ThreadPc
  /-- In `wait_for_job_end`: `is_job_end`. -/
  | isJobEnd (w : WaitCall)
  | getJobStatus (w : WaitCall)
  /-- The test of `poll_opt`. -/
  | pollOpt (w : WaitCall)
  /-- In `wait_for_job_end_sleep`: the test of the state before it takes the lock. -/
  | sleepCheck (w : WaitCall)
  | lock (w : WaitCall) (addr : ℕ)
  /-- In `pthread_cond_wait` or `pthread_cond_timedwait`; `signaled` says whether it was
  signaled. -/
  | asleep (w : WaitCall) (addr : ℕ) (signaled : Bool)
  /-- The tests of the state after it has given the lock back. -/
  | checkDone (w : WaitCall) (addr : ℕ)
  | checkException (w : WaitCall) (addr : ℕ)
  | kill (w : WaitCall) (addr : ℕ)
  /-- `job->state = JOB_STATE_TIMEOUT` -/
  | setTimeout (w : WaitCall) (addr : ℕ)
  /-- `*status = job->state` -/
  | readStatus (w : WaitCall) (addr : ℕ) (ret : AipuStatus)
  /-- In `wait_for_job_end` without `poll_opt`: in `poll_status`. -/
  | poll (w : WaitCall)
  | updatePolled (w : WaitCall) (status : JobStatusDesc)
  | killPolled (w : WaitCall)
  | setTimeoutPolled (w : WaitCall)
  /-- In `poll_job_status`: in `poll_status`. -/
  | pollAll
  /-- The loop over the records. -/
  | updateAll (records : List JobStatusDesc)
deriving DecidableEq, Repr

/-- A thread in one of the two calls. -/
structure Thread where
  tid : ℕ
  pc : ThreadPc
deriving DecidableEq, Repr

/-- A context with its threads, and the jobs in the kernel driver. -/
structure Waiters where
  ctx : MainContext
  /-- The jobs that others have replaced in the map. -/
  lost : List JobDesc := []
  /-- The ids of the jobs that the kernel has accepted and that have not ended. -/
  running : List ℕ := []
  /-- The records of the jobs that have ended. -/
  records : List JobStatusDesc := []
  threads : List Thread := []
deriving DecidableEq

/-! ## Events and actions -/

/-- What the threads do. -/
inductive WaitersEvent
  /-- `update_job_status` has written a record. -/
  | applied (jobId : ℕ) (state : ReportedState)
  | killed (tid : ℕ) (w : WaitCall)
  /-- `JOB_STATE_TIMEOUT` was written. -/
  | gaveUp (tid : ℕ) (w : WaitCall)
  /-- `wait_for_job_end_sleep` returned after its sleep; `state` is the value of `*status`. -/
  | slept (tid : ℕ) (w : WaitCall) (ret : AipuStatus) (state : JobState)
  /-- `wait_for_job_end` returned; `state` is the value of `*status`, where zero is `noState`. -/
  | answered (tid jobId : ℕ) (ret : AipuStatus) (state : JobState)
  /-- `poll_job_status` returned. -/
  | returned (tid : ℕ) (ret : AipuStatus)
deriving DecidableEq, Repr

/-- A step: of a call that does not wait, of the kernel driver, or of a thread. -/
inductive WaitersAction
  | setRuntimeConfig (pollOpt : Bool)
  | createNewJob (id handle : ℕ) (inRange : Bool) (config : UserJobDesc)
  | flushJob (jobId : ℕ) (accepted : Bool)
  | cleanJob (jobId : ℕ)
  /-- The job of the record has ended. -/
  | jobEnds (status : JobStatusDesc)
  | waitForJobEnd (tid jobId : ℕ) (timeOut : ℤ)
  | pollJobStatus (tid : ℕ)
  /-- The thread makes its next step; `woken` is the thread that a signal wakes up. -/
  | next (tid : ℕ) (woken : Option ℕ)
  /-- The time limit of a sleep passes. -/
  | elapse (tid : ℕ)
  /-- A sleep ends, for whatever reason. -/
  | wakeUp (tid : ℕ)
  /-- `poll_status` returns `cnt` records. -/
  | polled (tid cnt : ℕ)
  /-- `poll_status` fails. -/
  | pollFail (tid : ℕ)
deriving DecidableEq

/-! ## Jobs and threads -/

/-- The record of the job has been written to it. -/
def JobState.Settled (state : JobState) : Prop := state = .done ∨ state = .exception

instance settledDecidable : DecidablePred JobState.Settled :=
  fun _ => inferInstanceAs (Decidable (_ ∨ _))

/-- The job at an address. -/
def Waiters.deref (s : Waiters) (jobId addr : ℕ) : Option JobDesc :=
  ((s.ctx.getJob jobId).filter (·.addr = addr)).or (s.lost.find? (·.addr = addr))

/-- `job->state = state` for the job at an address. -/
def Waiters.store (s : Waiters) (jobId addr : ℕ) (state : JobState) : Waiters :=
  if (s.ctx.getJob jobId).any (·.addr = addr) then
    { s with
      ctx := (s.ctx.inGraph .errorJobNotExist (jobId2graphId jobId)
        (·.updateJobState jobId state)).2 }
  else
    { s with lost := s.lost.map fun job => if job.addr = addr then { job with
      state := state } else job }

/-- The thread with the number. -/
def Waiters.thread (s : Waiters) (tid : ℕ) : Option (Cursor Thread) := seek (·.tid = tid) s.threads

/-- The thread goes on at `pc`. -/
def Waiters.goto (s : Waiters) (c : Cursor Thread) (pc : ThreadPc) : Waiters :=
  { s with threads := c.before ++ { c.entry with pc := pc } :: c.after }

/-- The call of the thread returns. -/
def Waiters.leave (s : Waiters) (c : Cursor Thread) :
    Waiters := { s with threads := c.before ++ c.after }

/-- `wait_for_job_end` returns. -/
def Waiters.answer (s : Waiters) (c : Cursor Thread) (jobId : ℕ) (ret : AipuStatus)
    (state : JobState) :
    Option (Waiters × List WaitersEvent) :=
      some (s.leave c, [.answered c.entry.tid jobId ret state])

/-- The thread sleeps on the job, and it was not signaled. -/
def ThreadPc.sleepsOn : ThreadPc → ℕ → Bool
  | .asleep _ addr false, addr' => addr = addr'
  | _, _ => false

/-- A thread that sleeps was signaled. -/
def ThreadPc.signal : ThreadPc → ThreadPc
  | .asleep w addr _ => .asleep w addr true
  | pc => pc

/-- `pthread_cond_signal` wakes up the thread `woken`, which sleeps on the job; nobody only if
nobody sleeps. -/
def signalCond (threads : List Thread) (addr : ℕ) (woken : Option ℕ) : Option (List Thread) :=
  match woken with
  | none => if threads.any (·.pc.sleepsOn addr) then none else some threads
  | some tid =>
    if threads.any fun th => th.tid = tid ∧ th.pc.sleepsOn addr then
      some (threads.map fun th => if th.tid = tid then { th with pc := th.pc.signal } else th)
    else none

/-! ## Steps of a thread -/

/-- `wait_for_job_end` up to `is_job_end`. -/
def Waiters.waitForJobEnd (s : Waiters) (tid jobId : ℕ) (timeOut : ℤ) :
    Waiters × List WaitersEvent :=
  match s.ctx.getGraphObject (jobId2graphId jobId) with
  | none => (s, [.answered tid jobId .errorJobNotExist .noState])
  | some g =>
    if g.isJobSched jobId = .success then
      ({ s with threads := ⟨tid, .isJobEnd { jobId := jobId,
                                             timeOut := timeOut }⟩ :: s.threads }, [])
    else (s, [.answered tid jobId (g.isJobSched jobId) .noState])

/-- A state of the job as a value of `*status`. -/
def AipuJobStatus.jobState : AipuJobStatus → JobState
  | .noStatus => .noState
  | .done => .done
  | .exception => .exception

/-- `update_job_status` for a record, with a signal. -/
def Waiters.updateAndSignal (s : Waiters) (c : Cursor Thread) (status : JobStatusDesc)
    (rest : List JobStatusDesc) (woken : Option ℕ) : Option (Waiters × List WaitersEvent) :=
  match s.ctx.getJob status.jobId with
  | none => some (s.leave c, [.returned c.entry.tid .errorJobNotExist])
  | some job =>
    match signalCond
      (c.before ++ { c.entry with pc := .updateAll rest } :: c.after) job.addr woken with
    | none => none
    | some threads =>
      some ({ s with ctx := (s.ctx.waitReply status.jobId status).2, threads := threads },
        [.applied status.jobId status.state])

/-- The next step of a thread that does not wait. -/
def Waiters.next (s : Waiters) (c : Cursor Thread) (woken : Option ℕ) :
    Option (Waiters × List WaitersEvent) :=
  match c.entry.pc with
  | .isJobEnd w =>
    match s.ctx.getGraphObject (jobId2graphId w.jobId) with
    | none => none
    | some g => some (s.goto c (if g.isJobEnd w.jobId then .getJobStatus w else .pollOpt w), [])
  | .getJobStatus w =>
    match s.ctx.getGraphObject (jobId2graphId w.jobId) with
    | none => none
    | some g =>
      let (ret, status) := g.getJobStatus w.jobId
      s.answer c w.jobId ret (if ret = .success then status.jobState else .noState)
  | .pollOpt w => some (s.goto c (if s.ctx.pollOpt then .sleepCheck w else .poll w), [])
  | .sleepCheck w =>
    match s.ctx.getJob w.jobId with
    | none => s.answer c w.jobId .errorJobNotExist .noState
    | some job =>
      if job.state = .built ∨
        job.state = .timeout then s.answer c w.jobId .errorJobNotSched .noState
      else some (s.goto c (.lock w job.addr), [])
  | .lock w addr =>
    (s.deref w.jobId addr).map fun job =>
      (s.goto c (if w.timeOut ≤ 0 ∧ job.state.Settled then .checkDone w addr
        else .asleep w addr false), [])
  | .checkDone w addr =>
    (s.deref w.jobId addr).map fun job =>
      (s.goto c (if job.state = .done then .readStatus w addr .success
        else .checkException w addr), [])
  | .checkException w addr =>
    (s.deref w.jobId addr).map fun job =>
      (s.goto c (if job.state = .exception then .readStatus w addr .errorJobException
        else .kill w addr), [])
  | .kill w addr =>
    some ({ s with running := s.running.erase w.jobId }.goto c (.setTimeout w addr),
      [.killed c.entry.tid w])
  | .setTimeout w addr =>
    (s.deref w.jobId addr).map fun _ =>
      ((s.store w.jobId addr .timeout).goto c (.readStatus w addr .errorJobTimeout),
        [.gaveUp c.entry.tid w])
  | .readStatus w addr ret =>
    (s.deref w.jobId addr).map fun job =>
      (s.leave c, [.slept c.entry.tid w ret job.state,
        .answered c.entry.tid w.jobId ret (if ret = .success then job.state else .noState)])
  | .updatePolled w status =>
    match s.ctx.getJob status.jobId with
    | none => s.answer c w.jobId .errorJobNotExist .noState
    | some _ =>
      some ({ s with ctx := (s.ctx.waitReply status.jobId status).2 }.leave c,
        [.applied status.jobId status.state,
          .answered c.entry.tid w.jobId .success status.state.jobState])
  | .killPolled w =>
    some ({ s with running := s.running.erase w.jobId }.goto c (.setTimeoutPolled w),
      [.killed c.entry.tid w])
  | .setTimeoutPolled w =>
    some ({ s with ctx := (s.ctx.waitTimeout w.jobId).2 }.leave c,
      [.gaveUp c.entry.tid w, .answered c.entry.tid w.jobId .errorJobTimeout .noState])
  | .updateAll [] => some (s.leave c, [.returned c.entry.tid .success])
  | .updateAll (status :: rest) => s.updateAndSignal c status rest woken
  | .asleep _ _ _ | .poll _ | .pollAll => none

/-- A sleep ends. -/
def Waiters.wakeUp (s : Waiters) (c : Cursor Thread) : Option (Waiters × List WaitersEvent) :=
  match c.entry.pc with
  | .asleep w addr _ =>
    (s.deref w.jobId addr).map fun job =>
      (s.goto c (if w.timeOut ≤ 0 ∧ ¬job.state.Settled then .asleep w addr false
        else .checkDone w addr), [])
  | _ => none

/-- `poll_status` returns `cnt` records. -/
def Waiters.polled (s : Waiters) (c : Cursor Thread) (cnt : ℕ) :
    Option (Waiters × List WaitersEvent) :=
  match c.entry.pc, cnt with
  | .poll w, 0 => if w.timeOut ≤ 0 then none
    else some (s.goto c (.killPolled { w with elapsed := true }), [])
  | .poll w, 1 =>
    (seek (·.jobId = w.jobId) s.records).map fun d =>
      ({ s with records := d.before ++ d.after }.goto c (.updatePolled w d.entry), [])
  | .pollAll, cnt =>
    if cnt ≤ s.records.length ∧ cnt ≤ s.ctx.getMaxPollJobCnt then
      some ({ s with records := s.records.drop cnt }.goto c (.updateAll (s.records.take cnt)), [])
    else none
  | _, _ => none

/-- `poll_status` fails. -/
def Waiters.pollFail (s : Waiters) (c : Cursor Thread) : Option (Waiters × List WaitersEvent) :=
  match c.entry.pc with
  | .poll w => s.answer c w.jobId .errorNullPtr .noState
  | .pollAll => some (s.leave c, [.returned c.entry.tid .errorNullPtr])
  | _ => none

/-- The time limit of a sleep passes. -/
def Waiters.elapse (s : Waiters) (c : Cursor Thread) : Option (Waiters × List WaitersEvent) :=
  match c.entry.pc with
  | .asleep w addr signaled =>
    if w.timeOut ≤ 0 then none
    else some (s.goto c (.asleep { w with elapsed := true } addr signaled), [])
  | _ => none

/-! ## Steps -/

/-- `create_new_job`; a job that is stored under the new id is lost. -/
def Waiters.createNewJob (s : Waiters) (id handle : ℕ) (inRange : Bool) (config : UserJobDesc) :
    Option (Waiters × List WaitersEvent) :=
  (s.ctx.createNewJob id handle inRange config).map fun (_, ctx, new) =>
    ({ s with ctx := ctx, lost := (new.bind (s.ctx.job id)).toList ++ s.lost }, [])

/-- `flush_job`; the kernel runs a job that it has accepted. -/
def Waiters.flushJob (s : Waiters) (jobId : ℕ) (accepted : Bool) : Waiters × List WaitersEvent :=
  let (ret, ctx) := s.ctx.flushJob jobId accepted
  ({ s with
      ctx := ctx
      running := if ret = .success ∧ accepted then jobId :: s.running else s.running }, [])

/-- One step. -/
def waitersStep (s : Waiters) : WaitersAction → Option (Waiters × List WaitersEvent)
  | .setRuntimeConfig pollOpt => some ({ s with ctx := { s.ctx with pollOpt := pollOpt } }, [])
  | .createNewJob id handle inRange config => s.createNewJob id handle inRange config
  | .flushJob jobId accepted => some (s.flushJob jobId accepted)
  | .cleanJob jobId => some ({ s with ctx := (s.ctx.cleanJob jobId).2 }, [])
  | .jobEnds status =>
    if status.jobId ∈ s.running then
      some ({ s with
        running := s.running.erase status.jobId, records := s.records ++ [status] }, [])
    else none
  | .waitForJobEnd tid jobId timeOut =>
    if (s.thread tid).isNone then some (s.waitForJobEnd tid jobId timeOut) else none
  | .pollJobStatus tid =>
    if (s.thread tid).isNone then
      some ({ s with threads := ⟨tid, .pollAll⟩ :: s.threads }, []) else none
  | .next tid woken => (s.thread tid).bind fun c => s.next c woken
  | .elapse tid => (s.thread tid).bind s.elapse
  | .wakeUp tid => (s.thread tid).bind s.wakeUp
  | .polled tid cnt => (s.thread tid).bind fun c => s.polled c cnt
  | .pollFail tid => (s.thread tid).bind s.pollFail

/-- The runs of a context whose jobs are built and not flushed, and that no thread is in. -/
def waitersSystem : System Waiters WaitersAction WaitersEvent where
  init s := s.lost = [] ∧ s.running = [] ∧ s.records = [] ∧ s.threads = [] ∧
    ∀ id i job, s.ctx.job id i = some job → job.state = .built ∧ job.addr < s.ctx.nextAddr
  step := waitersStep

/-- A context with one job that is built. -/
def sampleWaiters : Waiters :=
  { ctx := { graphs := [⟨1, [⟨65536, false⟩], [⟨0, 65536, .built, 65536, {}⟩], []⟩],
             nextAddr := 1 } }

theorem sampleWaiters_init : waitersSystem.init sampleWaiters := by
  refine ⟨rfl, rfl, rfl, rfl, fun id i job hjob => ?_⟩
  obtain ⟨g, hg, hjob⟩ := Option.bind_eq_some_iff.mp hjob
  obtain rfl := List.mem_singleton.mp (MainContext.getGraphObject_eq_some hg).1
  obtain rfl := List.mem_singleton.mp (Graph.getJobPtr_eq_some hjob).1
  exact ⟨rfl, Nat.zero_lt_one⟩

end Aipu
