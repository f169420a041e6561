import AipuDriver.Lib.Cursor
import AipuDriver.Lib.Transition
import AipuDriver.Kmd.Interface

/-!
# The job manager (`aipu_job_manager.c`)

The two queues are lists of jobs without their heads, in list order.  A job carries the number
`id`, which stands for the address of its `struct aipu_job`; its session and its session job are
pointers into the session module and are numbers too.  What a read through such a pointer returns
is given by a `SessionMem`, since the memory behind it may have been freed; every such read is
logged as an event.

The job manager lock is held during each call, except in the bottom half, which drops it around
`aipu_session_job_done`.  A call is therefore one step, and the bottom half is cut into three: up
to the unlock, the call, and from the lock on.  The answers of the hardware idle poll are read from
an oracle that is part of the job manager, as is whether the platform has a logic reset.
-/

namespace Aipu

open ListSearch Transition

/-! ## Data -/

/-- `struct aipu_job` -/
structure AipuJob where
  /-- The address of the structure. -/
  id : ℕ
  uthreadId : ℤ
  desc : UserJobDesc
  /-- The pointer to the session. -/
  session : ℕ
  /-- The pointer to the session job. -/
  sessionJob : ℕ
  state : AipuJobState
  exceptionFlag : ℤ
  /-- `AIPU_JOB_FLAG_VALID` -/
  validFlag : Bool
deriving DecidableEq, Repr

/-- `struct aipu_job_manager`, with what it asks the rest of the driver. -/
structure AipuJobManager where
  scheduledQueue : List AipuJob
  pendingQueue : List AipuJob
  schedNum : ℤ
  maxSchedNum : ℤ
  /-- `aipu_priv_has_logic_reset` -/
  hasLogicReset : Bool
  /-- The answers of `aipu_priv_is_idle` still to come. -/
  idle : Oracle
deriving DecidableEq, Repr

/-- What the job manager reads through pointers to sessions and session jobs. -/
structure SessionMem where
  /-- `session->user_pid` -/
  userPid : ℕ → ℤ
  /-- `session_job->desc.enable_prof` -/
  enableProf : ℕ → ℕ

/-- What happens during a call: the life of a job, and the reads through pointers. -/
inductive JmEvent
  | submitted (job : ℕ)
  | triggered (job : ℕ)
  /-- The end of a job was recorded with the flag; `valid` is its valid flag then. -/
  | ended (job sessionJob : ℕ) (flag : ℤ) (valid : Bool)
  | invalidated (job : ℕ)
  /-- The job was taken off its queue by a kill or a cancel. -/
  | removed (job : ℕ)
  /-- The job was taken off the scheduled queue by the bottom half. -/
  | retired (job : ℕ)
  | readSession (session : ℕ)
  | readSessionJob (sessionJob : ℕ)
  /-- `aipu_priv_logic_reset_release` -/
  | reset
  | killed (ret : ℤ)
deriving DecidableEq, Repr

/-- `aipu_init_job_manager` -/
def aipuInitJobManager (maxSchedNum : ℤ) (hasLogicReset : Bool) (idle : Oracle) :
    AipuJobManager :=
  { scheduledQueue := [], pendingQueue := [], schedNum := 0, maxSchedNum := maxSchedNum,
    hasLogicReset := hasLogicReset, idle := idle }

/-- `list_del` of the job `id`, wherever it is queued. -/
def AipuJobManager.listDel (jm : AipuJobManager) (id : ℕ) : AipuJobManager :=
  { jm with
    scheduledQueue := jm.scheduledQueue.filter (·.id ≠ id)
    pendingQueue := jm.pendingQueue.filter (·.id ≠ id) }

/-- `job->valid_flag = 0` for the job `id`. -/
def AipuJobManager.clearValid (jm : AipuJobManager) (id : ℕ) : AipuJobManager :=
  let clear := fun job : AipuJob => if job.id = id then { job with validFlag := false } else job
  { jm with
    scheduledQueue := jm.scheduledQueue.map clear
    pendingQueue := jm.pendingQueue.map clear }

/-! ## Scheduling -/

/-- `aipu_job_manager_trigger_job_sched`, as the events it causes. -/
def aipuJobManagerTriggerJobSched (mem : SessionMem) (job : AipuJob) : List JmEvent :=
  [.triggered job.id, .readSessionJob job.sessionJob] ++
    -- `session_job_mark_sched`
    if mem.enableProf job.sessionJob ≠ 0 then [.readSessionJob job.sessionJob] else []

/-- `aipu_schedule_pending_job_no_lock`; the hardware is polled last. -/
def aipuSchedulePendingJobNoLock (mem : SessionMem) (jm : AipuJobManager) :
    AipuJobManager × List JmEvent :=
  match jm.pendingQueue with
  | [] => (jm, [])
  | curr :: rest =>
    if jm.schedNum < jm.maxSchedNum then
      let (isIdle, idle) := jm.idle.next
      if isIdle then
        ({ jm with
            pendingQueue := rest
            scheduledQueue := jm.scheduledQueue ++ [{ curr with state := .sched }]
            schedNum := jm.schedNum + 1
            idle := idle },
          aipuJobManagerTriggerJobSched mem curr)
      else ({ jm with idle := idle }, [])
    else (jm, [])

/-- What a RUNJOB call hands to the job manager: the thread that added the session job, the
descriptor, the session and the session job. -/
structure Submission where
  uthreadId : ℤ
  desc : UserJobDesc
  session : ℕ
  sessionJob : ℕ
deriving DecidableEq, Repr

/-- `init_aipu_job` on the structure at the address `id`. -/
def initAipuJob (id : ℕ) (sub : Submission) : AipuJob :=
  { id := id, uthreadId := sub.uthreadId, desc := sub.desc, session := sub.session,
    sessionJob := sub.sessionJob, state := .idle, exceptionFlag := aipuExcepNoException,
    validFlag := true }

/-- The part of `aipu_job_manager_schedule_new_job` after its `kzalloc` succeeded. -/
def aipuJobManagerScheduleNewJob (mem : SessionMem) (id : ℕ) (sub : Submission)
    (jm : AipuJobManager) : AipuJobManager × List JmEvent :=
  let job := { initAipuJob id sub with state := .pending }
  let (jm, events) :=
    aipuSchedulePendingJobNoLock mem { jm with pendingQueue := jm.pendingQueue ++ [job] }
  (jm, .submitted id :: events)

/-! ## Invalidation -/

/-- `aipu_invalidate_job_no_lock` -/
def aipuInvalidateJobNoLock (mem : SessionMem) (jm : AipuJobManager)
    (job : AipuJob) : ℤ × AipuJobManager × List JmEvent :=
  match job.state with
  | .sched =>
    if jm.hasLogicReset then
      let (jm, events) :=
        aipuSchedulePendingJobNoLock mem { jm with schedNum := jm.schedNum - 1 }
      (0, jm, .reset :: events)
    else (0, jm.clearValid job.id, [.invalidated job.id])
  | .pending => (0, jm.listDel job.id, [.removed job.id])
  | .idle | .finished => (-einval, jm, [])

/-- The body of the loop of `aipu_invalidate_canceled_jobs_no_lock`. -/
def invalidateIfCanceled (mem : SessionMem) (session : ℕ) (jm : AipuJobManager)
    (cursor : AipuJob) : AipuJobManager × List JmEvent :=
  let reads := [JmEvent.readSession cursor.session, .readSession session]
  if mem.userPid cursor.session = mem.userPid session then
    let (_, jm, events) := aipuInvalidateJobNoLock mem jm cursor
    (jm, reads ++ events)
  else (jm, reads)

/-- `aipu_invalidate_canceled_jobs_no_lock` on the queue `head`, over the entries still to come.
The loop saves the next entry before its body: jobs that the body appends to the queue are visited
too, unless the loop was at its last entry.  Every entry is a job that was pending or scheduled
when the loop started, so their number bounds the iterations. -/
def aipuInvalidateCanceledJobsNoLock (mem : SessionMem) (session : ℕ)
    (head : AipuJobManager → List AipuJob) :
    ℕ → List AipuJob → AipuJobManager → AipuJobManager × List JmEvent
  | 0, _, jm => (jm, [])
  | _ + 1, [], jm => (jm, [])
  | n + 1, cursor :: rest, jm =>
    let (jm', events) := invalidateIfCanceled mem session jm cursor
    let appended := (head jm').drop (head jm).length
    let rest := if rest = [] then [] else rest ++ appended
    let (jm'', more) := aipuInvalidateCanceledJobsNoLock mem session head n rest jm'
    (jm'', events ++ more)

/-- The part of `aipu_job_manager_cancel_session_jobs` under the job manager lock. -/
def aipuJobManagerCancelSessionJobs (mem : SessionMem) (session : ℕ) (jm : AipuJobManager) :
    AipuJobManager × List JmEvent :=
  let n := jm.pendingQueue.length + jm.scheduledQueue.length
  let (jm, events) := aipuInvalidateCanceledJobsNoLock mem session AipuJobManager.pendingQueue n
    jm.pendingQueue jm
  let (jm, more) := aipuInvalidateCanceledJobsNoLock mem session AipuJobManager.scheduledQueue n
    jm.scheduledQueue jm
  (jm, events ++ more)

/-- `aipu_invalidate_timeout_job_no_lock` for the thread `tid` -/
def aipuInvalidateTimeoutJobNoLock (mem : SessionMem) (jm : AipuJobManager)
    (head : List AipuJob) (tid : ℤ) (jobId : ℕ) : ℤ × AipuJobManager × List JmEvent :=
  match seek (fun job => job.uthreadId = tid ∧ job.desc.jobId = jobId) head with
  | none => (-einval, jm, [])
  | some c => aipuInvalidateJobNoLock mem jm c.entry

/-- `aipu_invalidate_timeout_job` called by the thread `tid` -/
def aipuInvalidateTimeoutJob (mem : SessionMem) (tid : ℤ) (jobId : ℕ)
    (jm : AipuJobManager) : ℤ × AipuJobManager × List JmEvent :=
  let (ret, jm, events) := aipuInvalidateTimeoutJobNoLock mem jm jm.pendingQueue tid jobId
  if ret ≠ 0 then
    let (ret, jm, more) := aipuInvalidateTimeoutJobNoLock mem jm jm.scheduledQueue tid jobId
    (ret, jm, events ++ more)
  else (ret, jm, events)

/-! ## Interrupts -/

/-- `aipu_job_manager_update_job_profiling_data`, as the reads it causes. -/
def aipuJobManagerUpdateJobProfilingData (mem : SessionMem) (job : AipuJob) : List JmEvent :=
  .readSessionJob job.sessionJob ::
    if mem.enableProf job.sessionJob ≠ 0 ∧ job.state = .finished ∧
        job.exceptionFlag = aipuExcepNoException then
      [.readSession job.session, .readSessionJob job.sessionJob]
    else []

/-- The reads through the pointers of a job whose end is recorded: `is_session_job_prof_enabled`,
`session_job_mark_done`, and for a valid job the update of its profiling data. -/
def endReads (mem : SessionMem) (job : AipuJob) : List JmEvent :=
  .readSessionJob job.sessionJob ::
    ((if mem.enableProf job.sessionJob ≠ 0 then [.readSessionJob job.sessionJob] else []) ++
      if job.validFlag then aipuJobManagerUpdateJobProfilingData mem job else [])

/-- `aipu_job_manager_update_job_state_irq` -/
def aipuJobManagerUpdateJobStateIrq (mem : SessionMem) (exceptionFlag : ℤ)
    (jm : AipuJobManager) : AipuJobManager × List JmEvent :=
  match seek (fun job => job.state = .sched) jm.scheduledQueue with
  | none => aipuSchedulePendingJobNoLock mem jm
  | some c =>
    let curr := { c.entry with state := .finished, exceptionFlag := exceptionFlag }
    let (jm, more) := aipuSchedulePendingJobNoLock mem { jm with
      scheduledQueue := c.before ++ curr :: c.after
      schedNum := if jm.schedNum ≠ 0 then jm.schedNum - 1 else jm.schedNum }
    (jm, .ended curr.id curr.sessionJob exceptionFlag curr.validFlag :: endReads mem curr ++ more)

/-- The bottom half: at rest, about to call `aipu_session_job_done` for `curr` without the lock, or
after that call; `next` is the saved successor of `curr`, `none` for the head of the queue. -/
inductive BottomHalf
  | rest
  | calling (curr : AipuJob) (next : Option ℕ)
  | returned (curr : AipuJob) (next : Option ℕ)
deriving DecidableEq, Repr

/-- The loop of `aipu_job_manager_update_job_queue_done_irq` over the end of the queue that starts
at the current position, up to the next unlock: what is left of it, where the loop stands, and the
events. -/
def bottomHalfScan : List AipuJob → List AipuJob × BottomHalf × List JmEvent
  | [] => ([], .rest, [])
  | curr :: rest =>
    if curr.state ≠ .finished then
      let (queue, bh, events) := bottomHalfScan rest
      (curr :: queue, bh, events)
    else if curr.validFlag then (curr :: rest, .calling curr (rest.head?.map (·.id)), [])
    else
      let (queue, bh, events) := bottomHalfScan rest
      (queue, bh, .retired curr.id :: events)

/-- Run the loop from the job `pos` on (`none`: from the head of the queue, where it ends). -/
def bottomHalfFrom (jm : AipuJobManager) : Option ℕ → AipuJobManager × BottomHalf × List JmEvent
  | none => (jm, .rest, [])
  | some pos =>
    let before := jm.scheduledQueue.takeWhile (·.id ≠ pos)
    let (queue, bh, events) := bottomHalfScan (jm.scheduledQueue.dropWhile (·.id ≠ pos))
    ({ jm with scheduledQueue := before ++ queue }, bh, events)

/-! ## Steps -/

/-- The job manager with its bottom half: the number of the next job, the upper halves that have
not queued the work yet, and whether the work is queued. -/
structure JmState where
  jm : AipuJobManager
  nextJob : ℕ
  bh : BottomHalf
  handlers : ℕ
  workPending : Bool
deriving DecidableEq, Repr

/-- A step of the job manager. -/
inductive JmAction
  /-- `aipu_job_manager_schedule_new_job` -/
  | submit (mem : SessionMem) (sub : Submission)
  /-- An upper half calls `aipu_job_manager_update_job_state_irq`. -/
  | upperHalf (mem : SessionMem) (flag : ℤ)
  /-- An upper half calls `aipu_irq_schedulework`. -/
  | queueWork
  /-- The bottom half starts. -/
  | bhStart
  /-- The bottom half runs `aipu_session_job_done`. -/
  | bhDone
  /-- The bottom half takes the lock again. -/
  | bhResume
  /-- `aipu_invalidate_timeout_job` -/
  | kill (mem : SessionMem) (tid : ℤ) (jobId : ℕ)
  /-- The locked part of `aipu_job_manager_cancel_session_jobs`. -/
  | cancel (mem : SessionMem) (session : ℕ)

/-- One step of the job manager. -/
def jmStep (s : JmState) : JmAction → Option (JmState × List JmEvent)
  | .submit mem sub =>
    let (jm, events) := aipuJobManagerScheduleNewJob mem s.nextJob sub s.jm
    some ({ s with jm := jm, nextJob := s.nextJob + 1 }, events)
  | .upperHalf mem flag =>
    let (jm, events) := aipuJobManagerUpdateJobStateIrq mem flag s.jm
    some ({ s with jm := jm, handlers := s.handlers + 1 }, events)
  | .queueWork =>
    if s.handlers = 0 then none
    else some ({ s with handlers := s.handlers - 1, workPending := true }, [])
  | .bhStart =>
    match s.bh with
    | .rest =>
      if s.workPending then
        let (queue, bh, events) := bottomHalfScan s.jm.scheduledQueue
        some ({ s with
          jm := { s.jm with scheduledQueue := queue }
          bh := bh
          workPending := false }, events)
      else none
    | _ => none
  | .bhDone =>
    match s.bh with
    | .calling curr next =>
      some ({ s with bh := .returned curr next },
        [.readSession curr.session, .readSessionJob curr.sessionJob])
    | _ => none
  | .bhResume =>
    match s.bh with
    | .returned curr next =>
      let (jm, bh, events) := bottomHalfFrom (s.jm.listDel curr.id) next
      some ({ s with jm := jm, bh := bh }, .retired curr.id :: events)
    | _ => none
  | .kill mem tid jobId =>
    let (ret, jm, events) := aipuInvalidateTimeoutJob mem tid jobId s.jm
    some ({ s with jm := jm }, events ++ [.killed ret])
  | .cancel mem session =>
    let (jm, events) := aipuJobManagerCancelSessionJobs mem session s.jm
    some ({ s with jm := jm }, events)

/-- The state before the first step. -/
def JmState.initial (maxSchedNum : ℤ) (hasLogicReset : Bool) (idle : Oracle) : JmState :=
  { jm := aipuInitJobManager maxSchedNum hasLogicReset idle, nextJob := 0, bh := .rest,
    handlers := 0, workPending := false }

/-- The runs of a job manager that schedules at most `maxSchedNum` jobs at a time, with any answers
of the hardware. -/
def jmSystem (maxSchedNum : ℤ) (hasLogicReset : Bool) : System JmState JmAction JmEvent where
  init s := ∃ idle, s = .initial maxSchedNum hasLogicReset idle
  step := jmStep

end Aipu
