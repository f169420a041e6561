import AipuDriver.Kmd.Driver
import AipuDriver.Umd.Context

/-!
# A context over the kernel driver (`context.cpp`, `device_ctrl.cpp`, `dev_op_wrapper.cpp`)

A context of the user-mode driver has opened the device and calls the kernel driver, which serves
other files too and is interrupted by the hardware.  A step is one step of the kernel driver, or
what a call of the context does between two of its system calls.  The context runs one call at a
time; `call` says how far it has come:

* `flush_job` marks the job and issues RUNJOB, which has two steps in the kernel;
* `wait_for_job_end` and `poll_job_status` issue `poll`, which registers and then checks any number
  of times, and then QUERYSTATUS;
* `wait_for_job_end` sleeps instead when `poll_opt` is set, and it issues KILL_TIMEOUT_JOB and gives
  the job up when its time is over.

All other steps of the kernel driver may come in between, as long as they are no calls about jobs on
the file of the context.
-/

namespace Aipu

open Transition

/-! ## State -/

/-- A call of `dev_op_wrapper_poll` by the thread `tid`. -/
structure DevPoll where
  tid : ℤ
  maxCnt : ℕ
  timeOut : ℤ
  pollSingleJob : Bool
  jobId : ℕ
deriving DecidableEq, Repr

/-- A call of the context that has not returned. -/
inductive UmdCall
  /-- `flush_job`, between the two steps of RUNJOB. -/
  | runjob (jobId : ℕ) (userJob : UserJob) (kernJob : SessionJob)
  /-- In the system call `poll`; `checked` says whether it has found nothing so far. -/
  | poll (p : DevPoll) (checked : Bool)
  /-- `poll` has reported `POLLIN`. -/
  | query (p : DevPoll)
  /-- In `wait_for_job_end_sleep`. -/
  | sleep (tid : ℤ) (jobId : ℕ) (timeOut : ℤ)
  /-- `wait_for_job_end` when its time is over. -/
  | kill (tid : ℤ) (jobId : ℕ)
  /-- `wait_for_job_end` after the kill. -/
  | giveUp (jobId : ℕ)
deriving DecidableEq, Repr

/-- A context, the file that it has opened, and the kernel driver. -/
structure Runtime where
  kmd : Kmd
  fd : Option ℕ
  ctx : MainContext
  call : Option UmdCall
deriving DecidableEq

/-! ## Events and actions -/

/-- What happens in the context and in the kernel driver. -/
inductive RuntimeEvent
  | kmd (e : KmdEvent)
  /-- The kernel has made the session job `sessionJob` of the `job_desc_t` number `addr`. -/
  | runjob (addr sessionJob : ℕ)
  /-- A call returned, `wait_for_job_end` with a job status. -/
  | returned (ret : AipuStatus) (status : Option AipuJobStatus)
deriving DecidableEq, Repr

/-- The file on which a step of the kernel driver is a call about jobs, or part of the release. -/
def KmdAction.jobCall : KmdAction → Option ℕ
  | .runAdd file _ _ _ => some file
  | .runSchedule file _ _ _ _ => some file
  | .kill file _ _ _ => some file
  | .query file _ _ _ _ => some file
  | .pollRegister file _ => some file
  | .pollCheck file _ => some file
  | .relCancel file _ => some file
  | .relDelete file => some file
  | .relFree file => some file
  | .relDetach file => some file
  | .relDestroy file => some file
  | _ => none

/-- A step: of the kernel driver, of a call that starts, or of the call that is running. -/
inductive RuntimeAction
  /-- A step of the kernel driver that is not part of a call of the context. -/
  | kmd (a : KmdAction)
  | openDevice (pid : ℤ) (kz : Oracle)
  | setRuntimeConfig (pollOpt : Bool)
  | createNewJob (id handle : ℕ) (inRange : Bool) (config : UserJobDesc)
  | flushJob (tid : ℤ) (jobId : ℕ) (kz : Oracle)
  /-- RUNJOB, second step. -/
  | runSchedule (kzOk : Bool) (stale : SessionMem)
  | waitForJobEnd (tid : ℤ) (jobId : ℕ) (timeOut : ℤ)
  | pollJobStatus (tid : ℤ) (timeOut : ℤ)
  /-- `poll` checks. -/
  | pollCheck
  /-- `poll` returns zero. -/
  | pollTimeout
  /-- `poll` fails. -/
  | pollFail
  /-- QUERYSTATUS -/
  | query (kzOk : Bool) (notCopied notCopiedQuery : ℕ)
  /-- `wait_for_job_end_sleep` is awake. -/
  | wakeUp
  /-- KILL_TIMEOUT_JOB -/
  | kill (stale : SessionMem)
  /-- `wait_for_job_end` marks the job as timed out. -/
  | giveUp
  | cleanJob (jobId : ℕ)

/-! ## Steps -/

/-- The code with which a system call returned. -/
def KmdEvent.code : KmdEvent → Option ℤ
  | .returned _ ret => some ret
  | _ => none

/-- A record that QUERYSTATUS has copied to user space. -/
def KmdEvent.record : KmdEvent → Option JobStatusDesc
  | .reported _ _ status => some status
  | _ => none

/-- The code with which the system call returned, if it did. -/
def returnCode (es : List KmdEvent) : Option ℤ := es.findSome? KmdEvent.code

/-- The records that QUERYSTATUS has copied to user space. -/
def records (es : List KmdEvent) : List JobStatusDesc := es.filterMap KmdEvent.record

/-- The call returns. -/
def Runtime.return (s : Runtime) (ret : AipuStatus) (status : Option AipuJobStatus) :
    Option (Runtime × List RuntimeEvent) := some ({ s with call := none }, [.returned ret status])

/-- A step of the kernel driver, after which the context goes on with `f`. -/
def Runtime.ioctl (s : Runtime) (a : KmdAction)
    (f : Runtime → List KmdEvent → Option (Runtime × List RuntimeEvent)) :
    Option (Runtime × List RuntimeEvent) :=
  match kmdStep s.kmd a with
  | none => none
  | some (kmd, es) => (f { s with kmd := kmd } es).map fun (s, more) => (s, es.map .kmd ++ more)

/-- `DeviceCtrl::init` opens the device. -/
def Runtime.openDevice (s : Runtime) (pid : ℤ) (kz : Oracle) :
    Option (Runtime × List RuntimeEvent) :=
  if s.fd = none then
    s.ioctl (.openFile pid kz) fun s' es =>
      some (if returnCode es = some 0 then { s' with fd := some s.kmd.nextFile } else s', [])
  else none

/-- `flush_job` in the thread `tid`, up to the first step of RUNJOB on the file `fd`. -/
def Runtime.flushJob (s : Runtime) (fd : ℕ) (tid : ℤ) (jobId : ℕ) (kz : Oracle) :
    Option (Runtime × List RuntimeEvent) :=
  match s.ctx.getGraphObject (jobId2graphId jobId) with
  | none => s.return .errorJobNotExist none
  | some g =>
    match g.flushJobMark jobId with
    | .error ret => s.return ret none
    | .ok (job, g) =>
      let userJob : UserJob := { desc := { job.config with jobId := job.id } }
      let kernJob := initSessionJob s.kmd.nextSessionJob tid userJob.desc
      { s with ctx := s.ctx.setGraph g }.ioctl (.runAdd fd tid userJob kz) fun s es =>
        if returnCode es = none then
          some ({ s with call := some (.runjob jobId userJob kernJob) },
            [.runjob job.addr kernJob.id])
        -- `RUNJOB` has returned with an error code
        else { s with ctx := s.ctx.scheduleJobEnd jobId false }.return .success none

/-- The rest of `flush_job`. -/
def Runtime.runSchedule (s : Runtime) (fd jobId : ℕ) (userJob : UserJob) (kernJob : SessionJob)
    (kzOk : Bool) (stale : SessionMem) : Option (Runtime × List RuntimeEvent) :=
  s.ioctl (.runSchedule fd userJob kernJob kzOk stale) fun s es =>
    { s with ctx := s.ctx.scheduleJobEnd jobId (returnCode es = some 0) }.return .success none

/-- `dev_op_wrapper_poll` up to the first check. -/
def Runtime.poll (s : Runtime) (fd : ℕ) (p : DevPoll) : Option (Runtime × List RuntimeEvent) :=
  s.ioctl (.pollRegister fd p.tid) fun s _ => some ({ s with call := some (.poll p false) }, [])

/-- `wait_for_job_end` up to its wait. -/
def Runtime.waitForJobEnd (s : Runtime) (fd : ℕ) (tid : ℤ) (jobId : ℕ) (timeOut : ℤ) :
    Option (Runtime × List RuntimeEvent) :=
  match s.ctx.waitStart jobId with
  | some (ret, status) => s.return ret (some status)
  | none =>
    if s.ctx.pollOpt then some ({ s with call := some (.sleep tid jobId timeOut) }, [])
    else s.poll fd { tid := tid, maxCnt := 1, timeOut := if timeOut ≤ 0 then -1 else timeOut,
                     pollSingleJob := true, jobId := jobId }

/-- `poll_job_status` up to its wait. -/
def Runtime.pollJobStatus (s : Runtime) (fd : ℕ) (tid : ℤ) (timeOut : ℤ) :
    Option (Runtime × List RuntimeEvent) :=
  s.poll fd { tid := tid, maxCnt := s.ctx.getMaxPollJobCnt,
              timeOut := if timeOut ≤ 0 then -1 else timeOut, pollSingleJob := false, jobId := 0 }

/-- A check of `poll`. -/
def Runtime.pollCheck (s : Runtime) (fd : ℕ) (p : DevPoll) : Option (Runtime × List RuntimeEvent) :=
  s.ioctl (.pollCheck fd p.tid) fun s es =>
    some ({ s with
      call := some (if .polled fd p.tid true ∈ es then .query p else .poll p true) }, [])

/-- What the caller of `poll_status` does with the records: the rest of `wait_for_job_end` or of
`poll_job_status`. -/
def Runtime.pollStatus (s : Runtime) (p : DevPoll) (jobsStatus : List JobStatusDesc) :
    Option (Runtime × List RuntimeEvent) :=
  if p.pollSingleJob then
    match jobsStatus with
    | [] => some ({ s with call := some (.kill p.tid p.jobId) }, [])
    | status :: _ =>
      let ((ret, jobStatus), ctx) := s.ctx.waitReply p.jobId status
      { s with ctx := ctx }.return ret (some jobStatus)
  else
    let (ret, ctx) := s.ctx.pollReply jobsStatus
    { s with ctx := ctx }.return ret none

/-- QUERYSTATUS, and the rest of the call. -/
def Runtime.query (s : Runtime) (fd : ℕ) (p : DevPoll) (kzOk : Bool)
    (notCopied notCopiedQuery : ℕ) :
    Option (Runtime × List RuntimeEvent) :=
  s.ioctl (.query fd { maxCnt := p.maxCnt, getSingleJob := p.pollSingleJob, jobId := p.jobId } kzOk
      notCopied notCopiedQuery) fun s es =>
    if returnCode es = some 0 then s.pollStatus p (records es) else s.return .errorNullPtr none

/-- `wait_for_job_end_sleep` once it is awake: it goes back to sleep without a time limit, unless
the job has ended. -/
def Runtime.wakeUp (s : Runtime) (tid : ℤ) (jobId : ℕ) (timeOut : ℤ) :
    Option (Runtime × List RuntimeEvent) :=
  match s.ctx.waitSleep jobId with
  | some (ret, status) => s.return ret (some status)
  | none => if timeOut ≤ 0 then none else some ({ s with call := some (.kill tid jobId) }, [])

/-- A call starts, on the open file `fd`. -/
def runtimeStart (s : Runtime) (fd : ℕ) : RuntimeAction → Option (Runtime × List RuntimeEvent)
  | .setRuntimeConfig pollOpt =>
    { s with ctx := { s.ctx with pollOpt := pollOpt } }.return .success none
  | .createNewJob id handle inRange config =>
    match s.ctx.createNewJob id handle inRange config with
    | none => none
    | some (ret, ctx, _) => { s with ctx := ctx }.return ret none
  | .flushJob tid jobId kz => s.flushJob fd tid jobId kz
  | .waitForJobEnd tid jobId timeOut => s.waitForJobEnd fd tid jobId timeOut
  | .pollJobStatus tid timeOut => s.pollJobStatus fd tid timeOut
  | .cleanJob jobId =>
    let (ret, ctx) := s.ctx.cleanJob jobId
    { s with ctx := ctx }.return ret none
  | _ => none

/-- The call that is running goes on, on the open file `fd`. -/
def runtimeContinue (s : Runtime) (fd : ℕ) (call : UmdCall) :
    RuntimeAction → Option (Runtime × List RuntimeEvent)
  | .runSchedule kzOk stale =>
    match call with
    | .runjob jobId userJob kernJob => s.runSchedule fd jobId userJob kernJob kzOk stale
    | _ => none
  | .pollCheck =>
    match call with
    | .poll p _ => s.pollCheck fd p
    | _ => none
  | .pollTimeout =>
    match call with
    | .poll p true => if p.timeOut ≤ 0 then none else s.pollStatus p []
    | _ => none
  | .pollFail =>
    match call with
    | .poll _ _ => s.return .errorNullPtr none
    | _ => none
  | .query kzOk notCopied notCopiedQuery =>
    match call with
    | .query p => s.query fd p kzOk notCopied notCopiedQuery
    | _ => none
  | .wakeUp =>
    match call with
    | .sleep tid jobId timeOut => s.wakeUp tid jobId timeOut
    | _ => none
  | .kill stale =>
    match call with
    | .kill tid jobId =>
      s.ioctl (.kill fd tid jobId stale) fun s _ =>
        some ({ s with call := some (.giveUp jobId) }, [])
    | _ => none
  | .giveUp =>
    match call with
    | .giveUp jobId =>
      let ((ret, status), ctx) := s.ctx.waitTimeout jobId
      { s with ctx := ctx }.return ret (some status)
    | _ => none
  | _ => none

/-- A step of a call, which starts or goes on. -/
def runtimeCall (s : Runtime) (a : RuntimeAction) : Option (Runtime × List RuntimeEvent) :=
  match s.fd with
  | none => none
  | some fd =>
    match s.call with
    | none => runtimeStart s fd a
    | some call => runtimeContinue s fd call a

/-- One step. -/
def runtimeStep (s : Runtime) (a : RuntimeAction) : Option (Runtime × List RuntimeEvent) :=
  match a with
  | .kmd a =>
    if a.jobCall = none ∨ a.jobCall ≠ s.fd then s.ioctl a fun s _ => some (s, []) else none
  | .openDevice pid kz => s.openDevice pid kz
  | a => runtimeCall s a

/-- The runs of a context that starts with graphs that have no jobs, over the kernel driver. -/
def runtimeSystem (version : AipuVersion) (map : MemoryMap) (maxSchedNum : ℤ) :
    System Runtime RuntimeAction RuntimeEvent where
  init s :=
    (kmdSystem version map maxSchedNum).init s.kmd ∧ s.fd = none ∧ s.call = none ∧
      ∀ g ∈ s.ctx.graphs, g.jobs = [] ∧ g.sched = []
  step := runtimeStep

end Aipu
