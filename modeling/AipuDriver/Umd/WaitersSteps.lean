import AipuDriver.Umd.Waiters

/-!
# Steps of threads that wait

What a step does is said once (`WaitersMove`): most steps move one thread and write no state
(`LocalMove`), and four steps write a state to a job.
-/

namespace Aipu

open ListSearch Transition

/-! ## What a step does -/

/-- The answer of `wait_for_job_end` that belongs to a final state, where `get_job_status` finds
it. -/
def finalAnswer : JobState → AipuStatus × JobState
  | .done => (.success, .done)
  | .exception => (.errorJobException, .noState)
  | .timeout => (.errorJobTimeout, .noState)
  | _ => (.success, .noState)

/-- A step of a thread that writes no state. -/
inductive LocalMove (s : Waiters) (a : WaitersAction) (tid : ℕ) :
    ThreadPc → Option ThreadPc → List WaitersEvent → Prop
  | ended {w : WaitCall} {job : JobDesc} (hjob : s.ctx.getJob w.jobId = some job)
      (hended : job.state.Ended) : LocalMove s a tid (.isJobEnd w) (some (.getJobStatus w)) []
  | notEnded {w : WaitCall} (hjob : ∀ job, s.ctx.getJob w.jobId = some job → ¬job.state.Ended) :
      LocalMove s a tid (.isJobEnd w) (some (.pollOpt w)) []
  | found {w : WaitCall} {ret : AipuStatus} {state : JobState}
      (hjob : ∀ job, s.ctx.getJob w.jobId = some job → job.state.Ended →
        (ret, state) = finalAnswer job.state) :
      LocalMove s a tid (.getJobStatus w) none [.answered tid w.jobId ret state]
  | sleeps {w : WaitCall} (hopt : s.ctx.pollOpt = true) :
      LocalMove s a tid (.pollOpt w) (some (.sleepCheck w)) []
  | polls {w : WaitCall} (hopt : s.ctx.pollOpt = false) :
      LocalMove s a tid (.pollOpt w) (some (.poll w)) []
  | noJob {w : WaitCall} (hjob : s.ctx.getJob w.jobId = none) :
      LocalMove s a tid (.sleepCheck w) none [.answered tid w.jobId .errorJobNotExist .noState]
  | notSched {w : WaitCall} {job : JobDesc} (ha : ∃ woken, a = .next tid woken)
      (hjob : s.ctx.getJob w.jobId = some job)
      (hstate : job.state = .built ∨ job.state = .timeout) :
      LocalMove s a tid (.sleepCheck w) none [.answered tid w.jobId .errorJobNotSched .noState]
  | checked {w : WaitCall} {job : JobDesc} (hjob : s.ctx.getJob w.jobId = some job) :
      LocalMove s a tid (.sleepCheck w) (some (.lock w job.addr)) []
  | locked {w : WaitCall} {addr : ℕ} {job : JobDesc} (hjob : s.deref w.jobId addr = some job)
      (hsettled : job.state.Settled) :
      LocalMove s a tid (.lock w addr) (some (.checkDone w addr)) []
  | falls {w : WaitCall} {addr : ℕ} {job : JobDesc} (hjob : s.deref w.jobId addr = some job)
      (hsleep : job.state.Settled → 0 < w.timeOut) :
      LocalMove s a tid (.lock w addr) (some (.asleep w addr false)) []
  | again {w : WaitCall} {addr : ℕ} {signaled : Bool} {job : JobDesc}
      (hjob : s.deref w.jobId addr = some job) (hstate : ¬job.state.Settled) :
      LocalMove s a tid (.asleep w addr signaled) (some (.asleep w addr false)) []
  | awake {w : WaitCall} {addr : ℕ} {signaled : Bool} {job : JobDesc}
      (ha : a = .wakeUp tid) (hjob : s.deref w.jobId addr = some job)
      (hstate : job.state.Settled ∨ 0 < w.timeOut) :
      LocalMove s a tid (.asleep w addr signaled) (some (.checkDone w addr)) []
  | elapses {w : WaitCall} {addr : ℕ} {signaled : Bool} (htime : 0 < w.timeOut) :
      LocalMove s a tid (.asleep w addr signaled)
        (some (.asleep { w with elapsed := true } addr signaled)) []
  | done {w : WaitCall} {addr : ℕ} {job : JobDesc} (hjob : s.deref w.jobId addr = some job)
      (hstate : job.state = .done) :
      LocalMove s a tid (.checkDone w addr) (some (.readStatus w addr .success)) []
  | notDone {w : WaitCall} {addr : ℕ} {job : JobDesc} (hjob : s.deref w.jobId addr = some job)
      (hstate : job.state ≠ .done) :
      LocalMove s a tid (.checkDone w addr) (some (.checkException w addr)) []
  | exception {w : WaitCall} {addr : ℕ} {job : JobDesc} (hjob : s.deref w.jobId addr = some job)
      (hstate : job.state = .exception) :
      LocalMove s a tid (.checkException w addr) (some (.readStatus w addr .errorJobException)) []
  | notException {w : WaitCall} {addr : ℕ} {job : JobDesc} (hjob : s.deref w.jobId addr = some job)
      (hstate : job.state ≠ .exception) :
      LocalMove s a tid (.checkException w addr) (some (.kill w addr)) []
  | killed {w : WaitCall} {addr : ℕ} :
      LocalMove s a tid (.kill w addr) (some (.setTimeout w addr)) [.killed tid w]
  | read {w : WaitCall} {addr : ℕ} {ret : AipuStatus} {job : JobDesc}
      (hjob : s.deref w.jobId addr = some job) :
      LocalMove s a tid (.readStatus w addr ret) none [.slept tid w ret job.state,
        .answered tid w.jobId ret (if ret = .success then job.state else .noState)]
  | timeOver {w : WaitCall} (ha : a = .polled tid 0) (htime : 0 < w.timeOut) :
      LocalMove s a tid (.poll w) (some (.killPolled { w with elapsed := true })) []
  | fetched {w : WaitCall} {status : JobStatusDesc} (hid : status.jobId = w.jobId) :
      LocalMove s a tid (.poll w) (some (.updatePolled w status)) []
  | failed {w : WaitCall} (ha : a = .pollFail tid) :
      LocalMove s a tid (.poll w) none [.answered tid w.jobId .errorNullPtr .noState]
  | gone {w : WaitCall} {status : JobStatusDesc} (hjob : s.ctx.getJob status.jobId = none) :
      LocalMove s a tid (.updatePolled w status) none
        [.answered tid w.jobId .errorJobNotExist .noState]
  | killedPolled {w : WaitCall} :
      LocalMove s a tid (.killPolled w) (some (.setTimeoutPolled w)) [.killed tid w]
  | fetchedAll {records : List JobStatusDesc} :
      LocalMove s a tid .pollAll (some (.updateAll records)) []
  | returned {pc : ThreadPc} {ret : AipuStatus}
      (hpc : pc = .pollAll ∨ ∃ records, pc = .updateAll records) :
      LocalMove s a tid pc none [.returned tid ret]

/-- The ids in the records that a thread has fetched and not applied. -/
def ThreadPc.held : ThreadPc → List ℕ
  | .updatePolled _ status => [status.jobId]
  | .updateAll records => records.map JobStatusDesc.jobId
  | _ => []

/-- How often a record of the job may still be applied. -/
def Waiters.pending (s : Waiters) (jobId : ℕ) : ℕ :=
  s.running.count jobId + (s.records.map JobStatusDesc.jobId).count jobId +
    (s.threads.flatMap fun th => th.pc.held).count jobId

/-- The threads after one of them has moved. -/
def movedThreads (c : Cursor Thread) (pc : Option ThreadPc) : List Thread :=
  c.before ++ (pc.map fun pc => { c.entry with pc := pc }).toList ++ c.after

/-- The moves of the system: what a step changes, and what it answers. -/
inductive WaitersMove (s : Waiters) (a : WaitersAction) (s' : Waiters)
    (es : List WaitersEvent) : Prop
  /-- The jobs and the threads stay as they are. -/
  | same (hjobs : ∀ id i, s'.ctx.job id i = s.ctx.job id i)
      (haddr : s'.ctx.nextAddr = s.ctx.nextAddr)
      (hlost : s'.lost = s.lost) (hthreads : s'.threads = s.threads)
      (hpending : ∀ i, s'.pending i ≤ s.pending i) (hes : es = [])
  | refused {tid jobId : ℕ} {ret : AipuStatus} (hsame : s' = s)
      (hjob : ∀ job, s.ctx.getJob jobId = some job → job.state = .built)
      (hes : es = [.answered tid jobId ret .noState])
  | started {th : Thread} (hctx : s'.ctx = s.ctx) (hlost : s'.lost = s.lost)
      (hthreads : s'.threads = th :: s.threads) (hpending : ∀ i, s'.pending i ≤ s.pending i)
      (hnew : ∀ th' ∈ s.threads, th'.tid ≠ th.tid)
      (hpc : th.pc = .pollAll ∨ ∃ (w : WaitCall) (job : JobDesc), th.pc = .isJobEnd w ∧
        s.ctx.getJob w.jobId = some job ∧ job.state ≠ .built) (hes : es = [])
  | created {id handle : ℕ} {inRange : Bool} {config : UserJobDesc}
      (ha : a = .createNewJob id handle inRange config)
      (hcreate : s.createNewJob id handle inRange config = some (s', es))
  | flushed {jobId : ℕ} {job : JobDesc} {state : JobState}
      (ha : ∃ accepted, a = .flushJob jobId accepted)
      (hjob : s.ctx.getJob jobId = some job) (hbuilt : job.state = .built)
      (hstate : state = .sched ∨ state = .noState) (hctx : s.ctx.Writes jobId state s'.ctx)
      (haddr : s'.ctx.nextAddr = s.ctx.nextAddr) (hlost : s'.lost = s.lost)
      (hthreads : s'.threads = s.threads)
      (hpending : ∀ i, s'.pending i ≤ s.pending i + if i = jobId then 1 else 0) (hes : es = [])
  | cleaned {jobId : ℕ} (ha : a = .cleanJob jobId)
      (hsame : s' = { s with ctx := (s.ctx.cleanJob jobId).2 }) (hes : es = [])
  | moved {c : Cursor Thread} {pc : Option ThreadPc} (hl : s.thread c.entry.tid = some c)
      (hmove : LocalMove s a c.entry.tid c.entry.pc pc es) (hctx : s'.ctx = s.ctx)
      (hlost : s'.lost = s.lost)
      (hthreads : s'.threads = movedThreads c pc) (hpending : ∀ i, s'.pending i ≤ s.pending i)
  | polled {c : Cursor Thread} {w : WaitCall} {status : JobStatusDesc} {woken : Option ℕ}
      {job : JobDesc} (ha : a = .next c.entry.tid woken) (hl : s.thread c.entry.tid = some c)
      (hpc : c.entry.pc = .updatePolled w status) (hjob : s.ctx.getJob status.jobId = some job)
      (hsame : s' =
        { s with ctx := (s.ctx.waitReply status.jobId status).2, threads := movedThreads c none })
      (hes : es = [.applied status.jobId status.state,
        .answered c.entry.tid w.jobId .success status.state.jobState])
  | applied {c : Cursor Thread} {status : JobStatusDesc} {rest : List JobStatusDesc}
      {woken : Option ℕ} {job : JobDesc} {threads : List Thread} (ha : a = .next c.entry.tid woken)
      (hl : s.thread c.entry.tid = some c) (hpc : c.entry.pc = .updateAll (status :: rest))
      (hjob : s.ctx.getJob status.jobId = some job)
      (hsignal : signalCond (movedThreads c (some (.updateAll rest))) job.addr woken = some threads)
      (hsame : s' = { s with ctx := (s.ctx.waitReply status.jobId status).2, threads := threads })
      (hes : es = [.applied status.jobId status.state])
  | gaveUp {c : Cursor Thread} {w : WaitCall} {addr : ℕ} {job : JobDesc}
      (hl : s.thread c.entry.tid = some c) (hpc : c.entry.pc = .setTimeout w addr)
      (hjob : s.deref w.jobId addr = some job)
      (hsame : s' = { s.store w.jobId addr .timeout with
        threads := movedThreads c (some (.readStatus w addr .errorJobTimeout)) })
      (hes : es = [.gaveUp c.entry.tid w])
  | gaveUpPolled {c : Cursor Thread} {w : WaitCall} (hl : s.thread c.entry.tid = some c)
      (hpc : c.entry.pc = .setTimeoutPolled w)
      (hsame : s' = { s with ctx := (s.ctx.waitTimeout w.jobId).2, threads := movedThreads c none })
      (hes : es = [.gaveUp c.entry.tid w, .answered c.entry.tid w.jobId .errorJobTimeout .noState])

section Steps

variable {s s' : Waiters} {a : WaitersAction} {es : List WaitersEvent} {c : Cursor Thread} {tid : ℕ}

/-- A new job changes the jobs and the lost ones alone. -/
theorem Waiters.createNewJob_cases {id handle : ℕ} {inRange : Bool} {config : UserJobDesc}
    (hcreate : s.createNewJob id handle inRange config = some (s', es)) :
    ∃ ret ctx new, s.ctx.createNewJob id handle inRange config = some (ret, ctx, new) ∧
      s' = { s with ctx := ctx, lost := (new.bind (s.ctx.job id)).toList ++ s.lost } ∧ es = [] := by
  obtain ⟨⟨ret, ctx, new⟩, hnew, heq⟩ := Option.map_eq_some_iff.mp hcreate
  obtain ⟨rfl, rfl⟩ := Prod.mk.inj heq
  exact ⟨ret, ctx, new, hnew, rfl, rfl⟩

/-- A thread that is found has the number. -/
theorem Waiters.thread_eq_some (h : s.thread tid = some c) :
    s.threads = c.toList ∧ c.entry.tid = tid := by
  obtain ⟨hl, hp, -⟩ := seek_eq_some h
  exact ⟨hl, by simpa using hp⟩

/-- No thread with the number is found. -/
theorem Waiters.thread_eq_none (h : (s.thread tid).isNone) : ∀ th ∈ s.threads, th.tid ≠ tid := by
  intro th hth
  simpa using seek_eq_none.mp (Option.isNone_iff_eq_none.mp h) th hth

/-- A thread after a move is the one that has moved, or another one as it was. -/
theorem mem_movedThreads {th : Thread} {pc : Option ThreadPc} :
    th ∈ movedThreads c pc ↔
      th ∈ c.before ∨ (∃ pc', pc = some pc' ∧ th = { c.entry with pc := pc' }) ∨ th ∈ c.after := by
  cases pc <;> simp [movedThreads]

/-- A thread goes on. -/
theorem Waiters.goto_threads {pc : ThreadPc} :
    (s.goto c pc).threads = movedThreads c (some pc) := by
  simp [Waiters.goto, movedThreads]

/-- A thread returns. -/
theorem Waiters.leave_threads : (s.leave c).threads = movedThreads c none := by
  simp [Waiters.leave, movedThreads]

/-- A thread that moves and takes no more records than it had, or than the kernel loses. -/
theorem Waiters.pending_moved {pc : Option ThreadPc} (hl : s.threads = c.toList)
    (hthreads : s'.threads = movedThreads c pc)
    (hrunning : ∀ i, s'.running.count i ≤ s.running.count i)
    (hrecords : ∀ i,
      (s'.records.map JobStatusDesc.jobId).count i + ((pc.map ThreadPc.held).getD []).count i ≤
      (s.records.map JobStatusDesc.jobId).count i + c.entry.pc.held.count i) (i : ℕ) :
    s'.pending i ≤ s.pending i := by
  have hrunning := hrunning i
  have hrecords := hrecords i
  unfold Waiters.pending
  rw [hl, hthreads]
  cases pc <;> simp [movedThreads, Cursor.toList] at hrecords ⊢ <;> omega

/-- `get_job_status` gives the answer of a final state. -/
theorem Graph.getJobStatus_answer {g : Graph} {jobId : ℕ} {job : JobDesc}
    (hjob : g.getJobPtr jobId = some job) (hended : job.state.Ended) :
    ((g.getJobStatus jobId).1,
      if (g.getJobStatus jobId).1 = .success then (g.getJobStatus jobId).2.jobState else .noState) =
      finalAnswer job.state := by
  rw [Graph.getJobStatus, hjob]
  rcases hended with hstate | hstate | hstate <;> simp [hstate, finalAnswer, AipuJobStatus.jobState]

/-- `is_job_end` answers true for exactly the jobs of the graph in a final state. -/
theorem Graph.isJobEnd_eq_true {g : Graph} {jobId : ℕ} :
    g.isJobEnd jobId = true ↔ ∃ job, g.getJobPtr jobId = some job ∧ job.state.Ended := by
  unfold Graph.isJobEnd Graph.jobStateIs JobState.Ended
  cases g.getJobPtr jobId <;> simp

/-- The job of an id in its graph. -/
theorem MainContext.getJob_of_graph {ctx : MainContext} {jobId : ℕ} {g : Graph}
    (hg : ctx.getGraphObject (jobId2graphId jobId) = some g) :
    ctx.getJob jobId = g.getJobPtr jobId := by
  rw [MainContext.getJob, MainContext.job, hg]
  rfl

/-- A thread that moves and changes neither a job nor the kernel. -/
theorem WaitersMove.of_goto {pc : ThreadPc} (hl : s.thread c.entry.tid = some c)
    (hmove : LocalMove s a c.entry.tid c.entry.pc (some pc) []) (hheld : pc.held = []) :
    WaitersMove s a (s.goto c pc) [] := by
  refine .moved hl hmove rfl rfl Waiters.goto_threads
    (Waiters.pending_moved (Waiters.thread_eq_some hl).1 Waiters.goto_threads
      (fun _ => Nat.le_refl _) fun i => ?_)
  simp [hheld, Waiters.goto]

/-- A thread that returns and changes neither a job nor the kernel. -/
theorem WaitersMove.of_leave (hl : s.thread c.entry.tid = some c)
    (hmove : LocalMove s a c.entry.tid c.entry.pc none es) : WaitersMove s a (s.leave c) es := by
  refine .moved hl hmove rfl rfl Waiters.leave_threads
    (Waiters.pending_moved (Waiters.thread_eq_some hl).1 Waiters.leave_threads
      (fun _ => Nat.le_refl _) fun i => ?_)
  simp [Waiters.leave]

/-- A thread that kills its job. -/
theorem WaitersMove.of_kill {w : WaitCall} {pc : ThreadPc} (hl : s.thread c.entry.tid = some c)
    (hmove : LocalMove s a c.entry.tid c.entry.pc (some pc) [.killed c.entry.tid w])
    (hheld : pc.held = []) :
    WaitersMove s a ({ s with running := s.running.erase w.jobId }.goto c pc)
      [.killed c.entry.tid w] := by
  refine .moved hl hmove rfl rfl Waiters.goto_threads
    (Waiters.pending_moved (Waiters.thread_eq_some hl).1 Waiters.goto_threads (fun i => ?_)
      fun i => ?_)
  · exact List.erase_sublist.count_le i
  · simp [hheld, Waiters.goto]

/-- The next step of a thread is a move. -/
theorem Waiters.next_moves {woken : Option ℕ} (ha : a = .next c.entry.tid woken)
    (hl : s.thread c.entry.tid = some c) (h : s.next c woken = some (s', es)) :
    WaitersMove s a s' es := by
  unfold Waiters.next at h
  split at h
  next w hpc =>
    split at h
    · cases h
    next g hg =>
      obtain ⟨rfl, rfl⟩ := Prod.mk.inj (Option.some.inj h)
      have hjob := MainContext.getJob_of_graph hg
      split_ifs with hend
      · obtain ⟨job, hfound, hended⟩ := Graph.isJobEnd_eq_true.mp hend
        exact .of_goto hl (hpc ▸ .ended (hjob.trans hfound) hended) rfl
      · refine .of_goto hl (hpc ▸ .notEnded fun job hfound hended => hend ?_) rfl
        exact Graph.isJobEnd_eq_true.mpr ⟨job, hjob ▸ hfound, hended⟩
  next w hpc =>
    split at h
    · cases h
    next g hg =>
      obtain ⟨rfl, rfl⟩ := Prod.mk.inj (Option.some.inj h)
      refine .of_leave hl (hpc ▸ .found fun job hjob hended => ?_)
      rw [MainContext.getJob_of_graph hg] at hjob
      exact Graph.getJobStatus_answer hjob hended
  next w hpc =>
    obtain ⟨rfl, rfl⟩ := Prod.mk.inj (Option.some.inj h)
    split_ifs with hopt
    · exact .of_goto hl (hpc ▸ .sleeps hopt) rfl
    · exact .of_goto hl (hpc ▸ .polls (by simpa using hopt)) rfl
  next w hpc =>
    split at h
    next hnone =>
      obtain ⟨rfl, rfl⟩ := Prod.mk.inj (Option.some.inj h)
      exact .of_leave hl (hpc ▸ .noJob hnone)
    next job hjob =>
      split_ifs at h with hstate
      · obtain ⟨rfl, rfl⟩ := Prod.mk.inj (Option.some.inj h)
        exact .of_leave hl (hpc ▸ .notSched ⟨woken, ha⟩ hjob hstate)
      · obtain ⟨rfl, rfl⟩ := Prod.mk.inj (Option.some.inj h)
        exact .of_goto hl (hpc ▸ .checked hjob) rfl
  next w addr hpc =>
    obtain ⟨job, hjob, heq⟩ := Option.map_eq_some_iff.mp h
    obtain ⟨rfl, rfl⟩ := Prod.mk.inj heq
    split_ifs with hstate
    · exact .of_goto hl (hpc ▸ .locked hjob hstate.2) rfl
    · exact .of_goto hl
        (hpc ▸ .falls hjob fun hsettled => not_le.mp fun htime => hstate ⟨htime, hsettled⟩) rfl
  next w addr hpc =>
    obtain ⟨job, hjob, heq⟩ := Option.map_eq_some_iff.mp h
    obtain ⟨rfl, rfl⟩ := Prod.mk.inj heq
    split_ifs with hstate
    · exact .of_goto hl (hpc ▸ .done hjob hstate) rfl
    · exact .of_goto hl (hpc ▸ .notDone hjob hstate) rfl
  next w addr hpc =>
    obtain ⟨job, hjob, heq⟩ := Option.map_eq_some_iff.mp h
    obtain ⟨rfl, rfl⟩ := Prod.mk.inj heq
    split_ifs with hstate
    · exact .of_goto hl (hpc ▸ .exception hjob hstate) rfl
    · exact .of_goto hl (hpc ▸ .notException hjob hstate) rfl
  next w addr hpc =>
    obtain ⟨rfl, rfl⟩ := Prod.mk.inj (Option.some.inj h)
    exact .of_kill hl (hpc ▸ .killed) rfl
  next w addr hpc =>
    obtain ⟨job, hjob, heq⟩ := Option.map_eq_some_iff.mp h
    obtain ⟨rfl, rfl⟩ := Prod.mk.inj heq
    exact .gaveUp hl hpc hjob (by simp [Waiters.goto, movedThreads]) rfl
  next w addr ret hpc =>
    obtain ⟨job, hjob, heq⟩ := Option.map_eq_some_iff.mp h
    obtain ⟨rfl, rfl⟩ := Prod.mk.inj heq
    exact .of_leave hl (hpc ▸ .read hjob)
  next w status hpc =>
    split at h
    next hnone =>
      obtain ⟨rfl, rfl⟩ := Prod.mk.inj (Option.some.inj h)
      exact .of_leave hl (hpc ▸ .gone hnone)
    next job hjob =>
      obtain ⟨rfl, rfl⟩ := Prod.mk.inj (Option.some.inj h)
      exact .polled ha hl hpc hjob (by simp [Waiters.leave, movedThreads]) rfl
  next w hpc =>
    obtain ⟨rfl, rfl⟩ := Prod.mk.inj (Option.some.inj h)
    exact .of_kill hl (hpc ▸ .killedPolled) rfl
  next w hpc =>
    obtain ⟨rfl, rfl⟩ := Prod.mk.inj (Option.some.inj h)
    exact .gaveUpPolled hl hpc (by simp [Waiters.leave, movedThreads]) rfl
  next hpc =>
    obtain ⟨rfl, rfl⟩ := Prod.mk.inj (Option.some.inj h)
    exact .of_leave hl (.returned (.inr ⟨_, hpc⟩))
  next status rest hpc =>
    unfold Waiters.updateAndSignal at h
    split at h
    · obtain ⟨rfl, rfl⟩ := Prod.mk.inj (Option.some.inj h)
      exact .of_leave hl (.returned (.inr ⟨_, hpc⟩))
    next job hjob =>
      split at h
      · cases h
      next threads hsignal =>
        obtain ⟨rfl, rfl⟩ := Prod.mk.inj (Option.some.inj h)
        refine .applied ha hl hpc hjob ?_ rfl rfl
        simpa [movedThreads] using hsignal
  next => cases h
  next => cases h
  next => cases h

/-- The end of a sleep. -/
theorem Waiters.wakeUp_moves (ha : a = .wakeUp c.entry.tid) (hl : s.thread c.entry.tid = some c)
    (h : s.wakeUp c = some (s', es)) : WaitersMove s a s' es := by
  unfold Waiters.wakeUp at h
  split at h
  next w addr signaled hpc =>
    obtain ⟨job, hjob, heq⟩ := Option.map_eq_some_iff.mp h
    obtain ⟨rfl, rfl⟩ := Prod.mk.inj heq
    split_ifs with hstate
    · exact .of_goto hl (hpc ▸ .again hjob hstate.2) rfl
    · refine .of_goto hl (hpc ▸ .awake ha hjob ?_) rfl
      by_cases hsettled : job.state.Settled
      · exact .inl hsettled
      · exact .inr (not_le.mp fun htime => hstate ⟨htime, hsettled⟩)
  next => cases h

/-- That the time limit of a sleep passes is a move. -/
theorem Waiters.elapse_moves (hl : s.thread c.entry.tid = some c) (h : s.elapse c = some (s', es)) :
    WaitersMove s a s' es := by
  unfold Waiters.elapse at h
  split at h
  next w addr signaled hpc =>
    split_ifs at h with htime
    obtain ⟨rfl, rfl⟩ := Prod.mk.inj (Option.some.inj h)
    exact .of_goto hl (hpc ▸ .elapses (not_le.mp htime)) rfl
  next => cases h

/-- The records that are taken and those that are left are all records. -/
theorem count_drop_add_take (l : List JobStatusDesc) (n i : ℕ) :
    ((l.drop n).map JobStatusDesc.jobId).count i + ((l.take n).map JobStatusDesc.jobId).count i =
      (l.map JobStatusDesc.jobId).count i := by
  rw [Nat.add_comm, ← List.count_append, ← List.map_append, List.take_append_drop]

/-- The records that `poll_status` returns leave the kernel. -/
theorem Waiters.polled_moves {cnt : ℕ} (ha : a = .polled c.entry.tid cnt)
    (hl : s.thread c.entry.tid = some c)
    (h : s.polled c cnt = some (s', es)) : WaitersMove s a s' es := by
  unfold Waiters.polled at h
  split at h
  next w hpc =>
    split_ifs at h with htime
    obtain ⟨rfl, rfl⟩ := Prod.mk.inj (Option.some.inj h)
    exact .of_goto hl (hpc ▸ .timeOver ha (not_le.mp htime)) rfl
  next w hpc =>
    obtain ⟨d, hd, heq⟩ := Option.map_eq_some_iff.mp h
    obtain ⟨rfl, rfl⟩ := Prod.mk.inj heq
    obtain ⟨hrecords, hid, -⟩ := seek_eq_some hd
    refine .moved hl (hpc ▸ .fetched (by simpa using hid)) rfl rfl Waiters.goto_threads
      (Waiters.pending_moved (Waiters.thread_eq_some hl).1 Waiters.goto_threads
        (fun _ => Nat.le_refl _) fun i => ?_)
    simp [hrecords, Cursor.toList, Waiters.goto, ThreadPc.held, List.count_cons]
    omega
  next hpc =>
    split_ifs at h with hcnt
    obtain ⟨rfl, rfl⟩ := Prod.mk.inj (Option.some.inj h)
    refine .moved hl (hpc ▸ .fetchedAll) rfl rfl Waiters.goto_threads
      (Waiters.pending_moved (Waiters.thread_eq_some hl).1 Waiters.goto_threads
        (fun _ => Nat.le_refl _) fun i => ?_)
    refine le_trans (le_of_eq ?_) (Nat.le_add_right _ _)
    exact count_drop_add_take s.records _ i
  next => cases h

/-- `poll_status` fails. -/
theorem Waiters.pollFail_moves (ha : a = .pollFail c.entry.tid) (hl : s.thread c.entry.tid = some c)
    (h : s.pollFail c = some (s', es)) : WaitersMove s a s' es := by
  unfold Waiters.pollFail at h
  split at h
  next w hpc =>
    obtain ⟨rfl, rfl⟩ := Prod.mk.inj (Option.some.inj h)
    exact .of_leave hl (hpc ▸ .failed ha)
  next hpc =>
    obtain ⟨rfl, rfl⟩ := Prod.mk.inj (Option.some.inj h)
    exact .of_leave hl (.returned (.inl hpc))
  next => cases h

/-- `flush_job` writes the state of a job that is built, or it changes no job. -/
theorem MainContext.flushJob_spec (ctx : MainContext) (jobId : ℕ) (accepted : Bool) :
    ((∀ id i, (ctx.flushJob jobId accepted).2.job id i = ctx.job id i) ∧
        (ctx.flushJob jobId accepted).1 ≠ .success) ∨
      ∃ job, ctx.getJob jobId = some job ∧ job.state = .built ∧
        ctx.Writes jobId (if accepted then .sched else .noState)
          (ctx.flushJob jobId accepted).2 := by
  unfold MainContext.flushJob MainContext.inGraph
  split
  next => exact .inl ⟨fun _ _ => rfl, by simp⟩
  next g hg =>
    have hgid := (MainContext.getGraphObject_eq_some hg).2
    dsimp only
    unfold Graph.flushJob
    split
    next e hmark =>
      refine .inl ⟨fun id i => ?_, ?_⟩
      · rw [MainContext.job_setGraph (by rw [hgid, hg]), hgid]
        split
        next hid => rw [MainContext.job, hid, hg]; rfl
        next => rfl
      · unfold Graph.flushJobMark at hmark
        split at hmark
        · obtain rfl := Except.error.inj hmark
          simp
        · split_ifs at hmark
          obtain rfl := Except.error.inj hmark
          simp
    next job g' hmark =>
      obtain ⟨hjob, hbuilt, hwrites⟩ := MainContext.flushJobMark_spec hg hmark
      refine .inr ⟨job, hjob, hbuilt, ?_⟩
      unfold Graph.scheduleJobEnd
      cases accepted with
      | true => exact hwrites
      | false =>
        -- the second write replaces the first one
        unfold Graph.flushJobMark at hmark
        split at hmark
        · cases hmark
        split_ifs at hmark
        obtain ⟨-, rfl⟩ := Prod.mk.inj (Except.ok.inj hmark)
        refine MainContext.writes_setJobState hg rfl fun i => ?_
        rw [if_neg Bool.false_ne_true, Graph.getJobPtr_setJobState, Graph.getJobPtr_setJobState]
        change (((g.setJobState jobId .sched).getJobPtr i).map _) = _
        rw [Graph.getJobPtr_setJobState, Option.map_map]
        congr 1
        funext job
        by_cases hi : i = jobId <;> simp [hi]

/-- `flush_job` leaves all jobs alone, or moves a job in BUILT to SCHED or to NO_STATE. -/
theorem Waiters.flushJob_moves {jobId : ℕ} {accepted : Bool} :
    WaitersMove s (.flushJob jobId accepted) (s.flushJob jobId accepted).1 [] := by
  have haddr : (s.ctx.flushJob jobId accepted).2.nextAddr = s.ctx.nextAddr :=
    MainContext.inGraph_nextAddr ..
  rcases s.ctx.flushJob_spec jobId accepted with ⟨hsame, hret⟩ | ⟨job, hjob, hbuilt, hwrites⟩
  · refine .same hsame haddr rfl rfl (fun i => le_of_eq ?_) rfl
    simp [Waiters.flushJob, Waiters.pending, hret]
  · refine .flushed ⟨accepted, rfl⟩ hjob hbuilt ?_ hwrites haddr rfl rfl (fun i => ?_) rfl
    · cases accepted <;> simp
    · unfold Waiters.pending Waiters.flushJob
      dsimp only
      split_ifs with h hi hi
      · subst hi
        simp
        omega
      · simp [Ne.symm hi]
      · omega
      · omega

/-- `wait_for_job_end` starts. -/
theorem Waiters.waitForJobEnd_moves {jobId : ℕ} {timeOut : ℤ} (hnew : (s.thread tid).isNone) :
    WaitersMove s a (s.waitForJobEnd tid jobId timeOut).1
      (s.waitForJobEnd tid jobId timeOut).2 := by
  unfold Waiters.waitForJobEnd
  split
  next hnone => exact .refused rfl (by simp [MainContext.getJob, MainContext.job, hnone]) rfl
  next g hg =>
    have hfound := MainContext.getJob_of_graph hg
    split_ifs with hsched
    · refine .started rfl rfl rfl (fun i => ?_) (Waiters.thread_eq_none hnew) (.inr ?_) rfl
      · simp [Waiters.pending, ThreadPc.held]
      · unfold Graph.isJobSched at hsched
        split at hsched
        · cases hsched
        next job hjob =>
          split_ifs at hsched with hbuilt
          exact ⟨_, job, rfl, hfound.trans hjob, hbuilt⟩
    · refine .refused rfl (fun job hjob => ?_) rfl
      by_contra hbuilt
      rw [hfound] at hjob
      simp [Graph.isJobSched, hjob, hbuilt] at hsched

/-- **One step.**  What a step does is one of the moves. -/
theorem waitersStep_moves (h : waitersStep s a = some (s', es)) : WaitersMove s a s' es := by
  have hthread : ∀ {tid : ℕ} {f : Cursor Thread → Option (Waiters × List WaitersEvent)},
      (s.thread tid).bind f = some (s', es) →
      ∃ c, c.entry.tid = tid ∧ s.thread c.entry.tid = some c ∧ f c = some (s', es) := by
    intro tid f h
    obtain ⟨c, hc, hf⟩ := Option.bind_eq_some_iff.mp h
    obtain ⟨-, rfl⟩ := Waiters.thread_eq_some hc
    exact ⟨c, rfl, hc, hf⟩
  cases a with
  | setRuntimeConfig pollOpt =>
    obtain ⟨rfl, rfl⟩ := Prod.mk.inj (Option.some.inj h)
    exact .same (fun _ _ => rfl) rfl rfl rfl (fun _ => Nat.le_refl _) rfl
  | createNewJob id handle inRange config => exact .created rfl h
  | flushJob jobId accepted =>
    obtain ⟨rfl, rfl⟩ := Prod.mk.inj (Option.some.inj h)
    exact Waiters.flushJob_moves
  | cleanJob jobId =>
    obtain ⟨rfl, rfl⟩ := Prod.mk.inj (Option.some.inj h)
    exact .cleaned rfl rfl rfl
  | jobEnds status =>
    simp only [waitersStep] at h
    split_ifs at h with hrunning
    obtain ⟨rfl, rfl⟩ := Prod.mk.inj (Option.some.inj h)
    refine .same (fun _ _ => rfl) rfl rfl rfl (fun i => ?_) rfl
    have hpos := List.count_pos_iff.mpr hrunning
    simp only [Waiters.pending, List.count_erase, List.map_append, List.map_cons, List.map_nil,
      List.count_append, List.count_singleton]
    by_cases hi : status.jobId = i
    · subst hi
      simp
      omega
    · simp [hi]
  | waitForJobEnd tid jobId timeOut =>
    simp only [waitersStep] at h
    split_ifs at h with hnew
    have hmove :
      WaitersMove s (.waitForJobEnd tid jobId timeOut) (s.waitForJobEnd tid jobId timeOut).1
      (s.waitForJobEnd tid jobId timeOut).2 := Waiters.waitForJobEnd_moves hnew
    rwa [Option.some.inj h] at hmove
  | pollJobStatus tid =>
    simp only [waitersStep] at h
    split_ifs at h with hnew
    obtain ⟨rfl, rfl⟩ := Prod.mk.inj (Option.some.inj h)
    refine .started rfl rfl rfl (fun i => ?_) (Waiters.thread_eq_none hnew) (.inl rfl) rfl
    simp [Waiters.pending, ThreadPc.held]
  | next tid woken =>
    obtain ⟨c, rfl, hl, hf⟩ := hthread h
    exact Waiters.next_moves rfl hl hf
  | elapse tid =>
    obtain ⟨c, rfl, hl, hf⟩ := hthread h
    exact Waiters.elapse_moves hl hf
  | wakeUp tid =>
    obtain ⟨c, rfl, hl, hf⟩ := hthread h
    exact Waiters.wakeUp_moves rfl hl hf
  | polled tid cnt =>
    obtain ⟨c, rfl, hl, hf⟩ := hthread h
    exact Waiters.polled_moves rfl hl hf
  | pollFail tid =>
    obtain ⟨c, rfl, hl, hf⟩ := hthread h
    exact Waiters.pollFail_moves rfl hl hf

end Steps

/-! ## What threads rely on -/

/-- What a thread relies on about the state of its job. -/
def ThreadPc.Allows (pc : ThreadPc) (jobId addr : ℕ) (state : JobState) : Prop :=
  match pc with
  | .checkException w a => w.jobId = jobId → a = addr → state ≠ .done
  | .kill w a => w.jobId = jobId → a = addr → ¬state.Settled
  | .setTimeout w a => w.jobId = jobId → a = addr → ¬state.Settled
  | .readStatus w a ret => w.jobId = jobId → a = addr → state.Ended ∧ ret = (finalAnswer state).1
  | .killPolled w => w.jobId = jobId → ¬state.Settled
  | .setTimeoutPolled w => w.jobId = jobId → ¬state.Settled
  | _ => True

/-- The job to which a thread has a pointer. -/
def ThreadPc.addr : ThreadPc → Option ℕ
  | .lock _ addr | .asleep _ addr _ | .checkDone _ addr | .checkException _ addr | .kill _ addr
  | .setTimeout _ addr | .readStatus _ addr _ => some addr
  | _ => none

/-- The thread has decided to give up the job, or it decides so when the record is written now. -/
def ThreadPc.GivesUp (pc : ThreadPc) (jobId : ℕ) (state : ReportedState) : Prop :=
  match pc with
  | .checkException w _ => w.jobId = jobId ∧ state = .done
  | .kill w _ | .setTimeout w _ | .killPolled w | .setTimeoutPolled w => w.jobId = jobId
  | .readStatus w _ ret => w.jobId = jobId ∧ ret = .errorJobTimeout
  | _ => False

instance givesUpDecidable (pc : ThreadPc) (jobId : ℕ) : DecidablePred (pc.GivesUp jobId) :=
  fun state => by rcases pc <;> unfold ThreadPc.GivesUp <;> infer_instance

/-- The record that the thread writes next. -/
def ThreadPc.applies : ThreadPc → Option JobStatusDesc
  | .updatePolled _ status => some status
  | .updateAll (status :: _) => some status
  | _ => none

/-- A thread holds the record that it writes next. -/
theorem ThreadPc.held_of_applies {pc : ThreadPc} {status : JobStatusDesc}
    (h : status ∈ pc.applies) :
    status.jobId ∈ pc.held := by
  cases pc with
  | updatePolled w record =>
    obtain rfl := Option.some.inj h
    exact List.mem_cons_self
  | updateAll records =>
    cases records with
    | nil => cases h
    | cons record rest =>
      obtain rfl := Option.some.inj h
      exact List.mem_cons_self
  | _ => cases h

/-- The call for which the thread polls. -/
def ThreadPc.polls : ThreadPc → Option WaitCall
  | .poll w => some w
  | _ => none

/-- The job has no record yet, and no thread gives it up. -/
def Waiters.Appliable (s : Waiters) (status : JobStatusDesc) : Prop :=
  (∀ job ∈ s.ctx.getJob status.jobId, ¬job.state.Settled) ∧
    ∀ th ∈ s.threads, ¬th.pc.GivesUp status.jobId status.state

/-- No job takes the place of another one, a record is written only to a job that has none and that
no thread gives up, and a poll for a job whose record has been written does not run out of time. -/
def Waiters.Orderly (s : Waiters) : WaitersAction → Prop
  | .createNewJob id handle inRange _ => ∀ g ∈ s.ctx.getGraphObject id, g.BuildsJob handle inRange →
      ∀ jobId ∈ g.createJobIdInner, g.getJobPtr jobId = none
  | .next tid _ => ∀ c ∈ s.thread tid, ∀ status ∈ c.entry.pc.applies, s.Appliable status
  | .polled tid 0 => ∀ c ∈ s.thread tid, ∀ w ∈ c.entry.pc.polls, ∀ job ∈ s.ctx.getJob w.jobId,
      ¬job.state.Settled
  | _ => True

/-- The invariant. -/
structure CheckInv (s : Waiters) : Prop where
  lost : s.lost = []
  fresh : ∀ id i job, s.ctx.job id i = some job → job.addr < s.ctx.nextAddr
  held : ∀ th ∈ s.threads, ∀ addr ∈ th.pc.addr, addr < s.ctx.nextAddr
  allows : ∀ th ∈ s.threads, ∀ jobId job, s.ctx.getJob jobId = some job →
    th.pc.Allows jobId job.addr job.state

section Checks

variable {s s' : Waiters} {a : WaitersAction} {es : List WaitersEvent} {c : Cursor Thread}

/-- What is found at an address is stored. -/
theorem CheckInv.getJob_of_deref (h : CheckInv s) {jobId addr : ℕ} {job : JobDesc}
    (hjob : s.deref jobId addr = some job) : s.ctx.getJob jobId = some job ∧ job.addr = addr := by
  rw [Waiters.deref, h.lost, List.find?_nil, Option.or_none] at hjob
  simpa using hjob

/-- A signal changes nothing on which the thread relies. -/
theorem ThreadPc.signal_allows (pc : ThreadPc) (jobId addr : ℕ) (state : JobState) :
    pc.signal.Allows jobId addr state ↔ pc.Allows jobId addr state := by
  cases pc <;> rfl

/-- A signal changes no address of a job that a thread holds. -/
theorem ThreadPc.signal_addr (pc : ThreadPc) : pc.signal.addr = pc.addr := by
  cases pc <;> rfl

/-- The threads after a signal. -/
theorem signalCond_mem {threads threads' : List Thread} {addr : ℕ} {woken : Option ℕ}
    (h : signalCond threads addr woken = some threads') {th' : Thread} (hth' : th' ∈ threads') :
    ∃ th ∈ threads, th'.tid = th.tid ∧
      (th'.pc = th.pc ∧ (woken ≠ some th.tid ∨ th.pc.sleepsOn addr = false) ∨
        woken = some th.tid ∧ th'.pc = th.pc.signal) := by
  unfold signalCond at h
  split at h
  · split_ifs at h with hnone
    obtain rfl := Option.some.inj h
    exact ⟨th', hth', rfl, .inl ⟨rfl, .inl (by simp)⟩⟩
  next tid =>
    split_ifs at h
    obtain rfl := Option.some.inj h
    obtain ⟨th, hth, rfl⟩ := List.mem_map.mp hth'
    refine ⟨th, hth, ?_⟩
    split_ifs with htid
    · exact ⟨rfl, .inr ⟨by rw [htid], rfl⟩⟩
    · exact ⟨rfl, .inl ⟨rfl, .inl fun hwoken => htid (Option.some.inj hwoken).symm⟩⟩

/-- The id of a new job is one that the search has found. -/
theorem MainContext.createNewJob_new {ctx ctx' : MainContext} {id handle : ℕ} {inRange : Bool}
    {config : UserJobDesc} {ret : AipuStatus} {jobId : ℕ}
    (h : ctx.createNewJob id handle inRange config = some (ret, ctx', some jobId)) :
    ∃ g, ctx.getGraphObject id = some g ∧ g.BuildsJob handle inRange ∧
      g.createJobIdInner = some jobId := by
  unfold MainContext.createNewJob at h
  split at h
  · simp at h
  next g hg =>
    split at h
    · cases h
    next ret₁ g₁ new₁ hbuild =>
      obtain ⟨-, -, rfl⟩ : _ ∧ _ = ctx' ∧ new₁ = some jobId := by simpa using h
      rcases Graph.buildNewJob_cases hbuild with ⟨-, hnone, -⟩ | ⟨hbuilds, jobId', hid, hnew, -⟩
      · cases hnone
      · obtain rfl := Option.some.inj hnew
        exact ⟨g, hg, hbuilds, hid⟩

/-- A new state that all threads allow keeps the invariant. -/
theorem CheckInv.writes {jobId : ℕ} {state : JobState} (h : CheckInv s)
    (hctx : s.ctx.Writes jobId state s'.ctx) (haddr : s'.ctx.nextAddr = s.ctx.nextAddr)
    (hlost : s'.lost = s.lost)
    (hheld : ∀ th ∈ s'.threads, ∀ addr ∈ th.pc.addr, addr < s.ctx.nextAddr)
    (hwritten : ∀ th ∈ s'.threads, ∀ job, s.ctx.getJob jobId = some job →
      th.pc.Allows jobId job.addr state)
    (hother : ∀ th ∈ s'.threads, ∀ i job, i ≠ jobId → s.ctx.getJob i = some job →
      th.pc.Allows i job.addr job.state) : CheckInv s' := by
  refine ⟨hlost.trans h.lost, fun id i job' hjob' => ?_, by rwa [haddr],
    fun th hth i job' hjob' => ?_⟩
  · rw [haddr]
    rw [hctx] at hjob'
    split_ifs at hjob'
    · obtain ⟨job, hjob, rfl⟩ := Option.map_eq_some_iff.mp hjob'
      exact h.fresh _ _ job hjob
    · exact h.fresh _ _ job' hjob'
  · rw [MainContext.getJob, hctx] at hjob'
    split_ifs at hjob' with hi
    · obtain ⟨job, hjob, rfl⟩ := Option.map_eq_some_iff.mp hjob'
      obtain ⟨-, rfl⟩ := hi
      exact hwritten th hth job hjob
    · refine hother th hth i job' (fun heq => hi ⟨by rw [heq], heq⟩) hjob'

/-- A step that changes no job keeps the invariant when the threads rely on no more. -/
theorem CheckInv.unchanged (h : CheckInv s) (hjobs : ∀ id i, s'.ctx.job id i = s.ctx.job id i)
    (haddr : s'.ctx.nextAddr = s.ctx.nextAddr) (hlost : s'.lost = s.lost)
    (hheld : ∀ th ∈ s'.threads, ∀ addr ∈ th.pc.addr, addr < s.ctx.nextAddr)
    (hallows : ∀ th ∈ s'.threads, ∀ jobId job, s.ctx.getJob jobId = some job →
      th.pc.Allows jobId job.addr job.state) : CheckInv s' := by
  refine ⟨hlost.trans h.lost, fun id i job hjob => ?_, by rwa [haddr],
    fun th hth jobId job hjob => ?_⟩
  · rw [haddr]
    exact h.fresh id i job (hjobs id i ▸ hjob)
  · exact hallows th hth jobId job (by rwa [MainContext.getJob, hjobs] at hjob)

/-- A thread that moves is one of the threads before, or where it has come to. -/
theorem Waiters.mem_moved (hl : s.thread c.entry.tid = some c) {pc : Option ThreadPc} {th : Thread}
    (hth : th ∈ movedThreads c pc) :
    th ∈ s.threads ∨ ∃ pc', pc = some pc' ∧ th = { c.entry with pc := pc' } := by
  have hthreads := (Waiters.thread_eq_some hl).1
  rcases mem_movedThreads.mp hth with hth | hth | hth
  · exact .inl (hthreads ▸ List.mem_append_left _ hth)
  · exact .inr hth
  · exact .inl (hthreads ▸ List.mem_append_right _ (List.mem_cons_of_mem _ hth))

/-- The thread that moves is one of the threads. -/
theorem Waiters.mem_thread (hl : s.thread c.entry.tid = some c) : c.entry ∈ s.threads := by
  rw [(Waiters.thread_eq_some hl).1]
  exact List.mem_append_right _ List.mem_cons_self

/-- A job of which a thread relies on nothing but what it has just read. -/
theorem CheckInv.allows_read (h : CheckInv s) {w : WaitCall} {addr : ℕ} {job : JobDesc}
    {P : JobState → Prop} (hjob : s.deref w.jobId addr = some job) (hP : P job.state) :
    ∀ jobId job', s.ctx.getJob jobId = some job' → w.jobId = jobId → addr = job'.addr →
      P job'.state := by
  rintro jobId job' hjob' rfl rfl
  obtain ⟨hstored, -⟩ := h.getJob_of_deref hjob
  rwa [Option.some.inj (hjob'.symm.trans hstored)]

/-- What a thread relies on after a step that writes no state. -/
theorem CheckInv.local_allows (h : CheckInv s) (hl : s.thread c.entry.tid = some c)
    (hC : s.Orderly a)
    {pc : ThreadPc} (hmove : LocalMove s a c.entry.tid c.entry.pc (some pc) es) :
    ∀ jobId job, s.ctx.getJob jobId = some job → pc.Allows jobId job.addr job.state := by
  have hallows := h.allows _ (Waiters.mem_thread hl)
  generalize hentry : c.entry.pc = pc₀ at hmove hallows
  cases hmove with
  | done hjob hstate =>
    exact h.allows_read (P := fun state => state.Ended ∧ _ = (finalAnswer state).1) hjob
      ⟨.inl hstate, by rw [hstate]; rfl⟩
  | notDone hjob hstate => exact h.allows_read (P := fun state => state ≠ .done) hjob hstate
  | exception hjob hstate =>
    exact h.allows_read (P := fun state => state.Ended ∧ _ = (finalAnswer state).1) hjob
      ⟨.inr (.inl hstate), by rw [hstate]; rfl⟩
  | notException hjob hstate =>
    obtain ⟨hstored, rfl⟩ := h.getJob_of_deref hjob
    refine h.allows_read (P := fun state => ¬state.Settled) hjob fun hsettled => ?_
    rcases hsettled with hdone | hexception
    · exact hallows _ _ hstored rfl rfl hdone
    · exact hstate hexception
  | killed => exact hallows
  | @timeOver w ha =>
    subst ha
    rintro jobId job hjob rfl
    exact hC c hl w (by rw [hentry]; rfl) job hjob
  | killedPolled => exact hallows
  | _ => exact fun _ _ _ => trivial

/-- Where a thread has a pointer after a step that writes no state. -/
theorem CheckInv.local_held (h : CheckInv s) (hl : s.thread c.entry.tid = some c) {pc : ThreadPc}
    (hmove : LocalMove s a c.entry.tid c.entry.pc (some pc) es) :
    ∀ addr ∈ pc.addr, addr < s.ctx.nextAddr := by
  have hheld := h.held _ (Waiters.mem_thread hl)
  generalize c.entry.pc = pc₀ at hmove hheld
  cases hmove with
  | checked hjob =>
    rintro addr ⟨⟩
    exact h.fresh _ _ _ hjob
  | _ => exact hheld

/-- A job that has ended without a record was given up. -/
theorem JobState.Ended.timeout_of_not_settled {state : JobState} (hended : state.Ended)
    (hsettled : ¬state.Settled) : state = .timeout := by
  rcases hended with hdone | hexception | htimeout
  · exact absurd (.inl hdone) hsettled
  · exact absurd (.inr hexception) hsettled
  · exact htimeout

/-- A thread that does not give up the job allows the record. -/
theorem ThreadPc.Allows.record {pc : ThreadPc} {jobId addr : ℕ} {old : JobState}
    {state : ReportedState}
    (h : pc.Allows jobId addr old) (hold : ¬old.Settled) (hgives : ¬pc.GivesUp jobId state) :
    pc.Allows jobId addr state.jobState := by
  cases pc with
  | checkException w a =>
    rintro hid - hdone
    refine hgives ⟨hid, ?_⟩
    cases state with
    | done => rfl
    | exception => cases hdone
  | kill w a | setTimeout w a => exact fun hid => absurd hid hgives
  | killPolled w | setTimeoutPolled w => exact fun hid => absurd hid hgives
  | readStatus w a ret =>
    intro hid haddr
    obtain ⟨hended, hret⟩ := h hid haddr
    have htimeout := hended.timeout_of_not_settled hold
    exact absurd ⟨hid, by rw [hret, htimeout]; rfl⟩ hgives
  | _ => trivial

/-- Every thread that has not returned allows that the job is given up. -/
theorem ThreadPc.Allows.timeout {pc : ThreadPc} {jobId addr : ℕ} {old : JobState}
    (h : pc.Allows jobId addr old) (hold : ¬old.Settled) : pc.Allows jobId addr .timeout := by
  cases pc with
  | checkException w a => simp [ThreadPc.Allows]
  | kill w a | setTimeout w a => simp [ThreadPc.Allows, JobState.Settled]
  | killPolled w | setTimeoutPolled w => simp [ThreadPc.Allows, JobState.Settled]
  | readStatus w a ret =>
    intro hid haddr
    obtain ⟨hended, hret⟩ := h hid haddr
    rw [← hended.timeout_of_not_settled hold]
    exact ⟨hended, hret⟩
  | _ => trivial

/-- A job that is flushed has not ended before, and it has not ended after. -/
theorem ThreadPc.Allows.flushed {pc : ThreadPc} {jobId addr : ℕ} {state : JobState}
    (h : pc.Allows jobId addr .built) (hstate : state = .sched ∨ state = .noState) :
    pc.Allows jobId addr state := by
  cases pc with
  | readStatus w a ret =>
    intro hid haddr
    obtain ⟨hended, -⟩ := h hid haddr
    simp [JobState.Ended] at hended
  | _ => rcases hstate with rfl | rfl <;> simp [ThreadPc.Allows, JobState.Settled]

/-- A record that is written to a job that no thread gives up keeps the invariant. -/
theorem CheckInv.record (h : CheckInv s) {status : JobStatusDesc} (happly : s.Appliable status)
    (hctx : s'.ctx = (s.ctx.waitReply status.jobId status).2) (hlost : s'.lost = s.lost)
    (hthreads : ∀ th' ∈ s'.threads, (∃ th ∈ s.threads, th'.pc = th.pc ∨ th'.pc = th.pc.signal) ∨
      ∃ records, th'.pc = .updateAll records) : CheckInv s' := by
  have hwrites : s.ctx.Writes status.jobId status.state.jobState s'.ctx :=
    hctx ▸ s.ctx.waitReply_spec status
  have haddr : s'.ctx.nextAddr = s.ctx.nextAddr := hctx ▸ MainContext.inGraph_nextAddr ..
  have hallows : ∀ th' ∈ s'.threads, ∀ i addr state, (∀ th ∈ s.threads, th.pc.Allows i addr state) →
      th'.pc.Allows i addr state := by
    intro th' hth' i addr state hall
    rcases hthreads th' hth' with ⟨th, hth, hpc | hpc⟩ | ⟨records, hpc⟩ <;> rw [hpc]
    · exact hall th hth
    · exact (th.pc.signal_allows ..).mpr (hall th hth)
    · trivial
  refine h.writes hwrites haddr hlost (fun th' hth' addr haddr => ?_) (fun th' hth' job hjob => ?_)
    fun th' hth' i job _ hjob => hallows th' hth' _ _ _ fun th hth => h.allows th hth i job hjob
  · rcases hthreads th' hth' with ⟨th, hth, hpc | hpc⟩ | ⟨records, hpc⟩ <;> rw [hpc] at haddr
    · exact h.held th hth addr haddr
    · exact h.held th hth addr (th.pc.signal_addr ▸ haddr)
    · cases haddr
  · exact hallows th' hth' _ _ _ fun th hth =>
      (h.allows th hth _ job hjob).record (happly.1 job hjob) (happly.2 th hth)

/-- A job that is given up has no record. -/
theorem CheckInv.timeout (h : CheckInv s) {jobId : ℕ} (hwrites : s.ctx.Writes jobId .timeout s'.ctx)
    (haddr : s'.ctx.nextAddr = s.ctx.nextAddr) (hlost : s'.lost = s.lost)
    (hstate : ∀ job, s.ctx.getJob jobId = some job → ¬job.state.Settled)
    (hthreads : ∀ th' ∈ s'.threads, th' ∈ s.threads ∨
      ∃ w addr, th'.pc = .readStatus w addr .errorJobTimeout ∧ w.jobId = jobId ∧
        addr < s.ctx.nextAddr) :
    CheckInv s' := by
  refine h.writes hwrites haddr hlost (fun th' hth' addr haddr => ?_) (fun th' hth' job hjob => ?_)
    fun th' hth' i job hi hjob => ?_
  · rcases hthreads th' hth' with hth | ⟨w, a, hpc, -, hlt⟩
    · exact h.held th' hth addr haddr
    · rw [hpc] at haddr
      obtain rfl := Option.some.inj haddr
      exact hlt
  · rcases hthreads th' hth' with hth | ⟨w, a, hpc, -, -⟩
    · exact (h.allows th' hth _ job hjob).timeout (hstate job hjob)
    · rw [hpc]
      exact fun _ _ => ⟨.inr (.inr rfl), rfl⟩
  · rcases hthreads th' hth' with hth | ⟨w, a, hpc, hid, -⟩
    · exact h.allows th' hth i job hjob
    · rw [hpc]
      exact fun heq => absurd (heq.symm.trans hid) hi

/-- A new job takes the place of no other one. -/
theorem CheckInv.created (h : CheckInv s) {id handle : ℕ} {inRange : Bool} {config : UserJobDesc}
    (hC : s.Orderly (.createNewJob id handle inRange config))
    (hcreate : s.createNewJob id handle inRange config = some (s', es)) : CheckInv s' := by
  obtain ⟨ret, ctx, new, hnew, rfl, -⟩ := Waiters.createNewJob_cases hcreate
  have hlost : (new.bind (s.ctx.job id)).toList ++ s.lost = s.lost := by
    cases new with
    | none => rfl
    | some jobId =>
      obtain ⟨g, hg, hbuilds, hid⟩ := MainContext.createNewJob_new hnew
      have hnone : s.ctx.job id jobId = none := by
        rw [MainContext.job, hg]
        exact hC g hg hbuilds jobId hid
      simp [hnone]
  rcases MainContext.createNewJob_spec hnew with
    ⟨hle, hsame⟩ | ⟨hnext, g, jobId, hg, hbuilds, hid, hjobs⟩
  · refine ⟨hlost.trans h.lost, fun id i job hjob => ?_, fun th hth addr haddr => ?_, ?_⟩
    · exact (h.fresh id i job (hsame id i ▸ hjob)).trans_le hle
    · exact (h.held th hth addr haddr).trans_le hle
    · intro th hth i job hjob
      exact h.allows th hth i job (by rwa [MainContext.getJob, hsame] at hjob)
  · refine ⟨hlost.trans h.lost, fun id' i job hjob => ?_, fun th hth addr haddr => ?_, ?_⟩
    · dsimp only at hjob ⊢
      rw [hjobs] at hjob
      rw [hnext]
      split_ifs at hjob
      · obtain rfl := Option.some.inj hjob
        exact Nat.lt_succ_self _
      · exact Nat.lt_succ_of_lt (h.fresh id' i job hjob)
    · exact hnext ▸ Nat.lt_succ_of_lt (h.held th hth addr haddr)
    · intro th hth i job hjob
      rw [MainContext.getJob, hjobs] at hjob
      split_ifs at hjob
      · obtain rfl := Option.some.inj hjob
        have hheld := h.held th hth
        generalize th.pc = pc at hheld ⊢
        -- no thread has a pointer to the new job
        cases pc with
        | readStatus w a ret => exact fun _ haddr => absurd (haddr ▸ hheld a rfl) (Nat.lt_irrefl _)
        | _ => simp [ThreadPc.Allows, JobState.Settled]
      · exact h.allows th hth i job hjob

/-- The job that a thread has a pointer to is stored, so that the thread writes to it. -/
theorem CheckInv.store_eq (h : CheckInv s) {jobId addr : ℕ} {job : JobDesc} {state : JobState}
    (hjob : s.deref jobId addr = some job) :
    s.store jobId addr state = { s with
      ctx := (s.ctx.inGraph .errorJobNotExist (jobId2graphId jobId)
        (·.updateJobState jobId state)).2 } := by
  obtain ⟨hstored, haddr⟩ := h.getJob_of_deref hjob
  rw [Waiters.store, if_pos (by simp [hstored, haddr])]

/-- **One step.**  An orderly step keeps the invariant. -/
theorem CheckInv.step (h : CheckInv s) (hC : s.Orderly a) (hst : waitersStep s a = some (s', es)) :
    CheckInv s' := by
  cases waitersStep_moves hst with
  | same hjobs haddr hlost hthreads =>
    exact h.unchanged hjobs haddr hlost (hthreads ▸ h.held) (hthreads ▸ h.allows)
  | refused hsame => exact hsame ▸ h
  | @started th hctx hlost hthreads _ _ hpc =>
    have hnew : ∀ th' ∈ s'.threads, th' ∈ s.threads ∨ th'.pc = .pollAll ∨
        ∃ w, th'.pc = .isJobEnd w := by
      intro th' hth'
      rw [hthreads] at hth'
      rcases List.mem_cons.mp hth' with rfl | hth'
      · exact .inr (hpc.imp_right fun ⟨w, _, hpc, _⟩ => ⟨w, hpc⟩)
      · exact .inl hth'
    refine h.unchanged (by simp [hctx]) (by rw [hctx]) hlost (fun th' hth' addr haddr => ?_)
      fun th' hth' jobId job hjob => ?_
    · rcases hnew th' hth' with hth | hpc | ⟨w, hpc⟩
      · exact h.held th' hth addr haddr
      · rw [hpc] at haddr
        cases haddr
      · rw [hpc] at haddr
        cases haddr
    · rcases hnew th' hth' with hth | hpc | ⟨w, hpc⟩
      · exact h.allows th' hth jobId job hjob
      · rw [hpc]
        trivial
      · rw [hpc]
        trivial
  | created ha hcreate =>
    subst ha
    exact h.created hC hcreate
  | @flushed jobId job state _ hjob hbuilt hstate hctx haddr hlost hthreads =>
    refine h.writes hctx haddr hlost (hthreads ▸ h.held) (fun th hth job' hjob' => ?_)
      fun th hth i job' _ hjob' => h.allows th (hthreads ▸ hth) i job' hjob'
    obtain rfl := Option.some.inj (hjob'.symm.trans hjob)
    exact (hbuilt ▸ h.allows th (hthreads ▸ hth) jobId job' hjob).flushed hstate
  | @cleaned jobId _ hsame =>
    subst hsame
    have haddr : (s.ctx.cleanJob jobId).2.nextAddr = s.ctx.nextAddr :=
      MainContext.inGraph_nextAddr ..
    have hkept : ∀ id i job, (s.ctx.cleanJob jobId).2.job id i = some job →
        s.ctx.job id i = some job := by
      intro id i job hjob
      rcases s.ctx.cleanJob_spec jobId with hsame | ⟨-, herase⟩
      · exact hsame id i ▸ hjob
      · rw [herase] at hjob
        split_ifs at hjob
        exact hjob
    refine ⟨h.lost, fun id i job hjob => ?_, fun th hth addr hmem => ?_,
      fun th hth i job hjob => ?_⟩
    · exact haddr ▸ h.fresh id i job (hkept id i job hjob)
    · exact haddr ▸ h.held th hth addr hmem
    · exact h.allows th hth i job (hkept _ i job hjob)
  | @moved c pc hl hmove hctx hlost hthreads =>
    refine h.unchanged (by simp [hctx]) (by rw [hctx]) hlost (fun th hth addr haddr => ?_)
      fun th hth jobId job hjob => ?_
    · rcases Waiters.mem_moved hl (hthreads ▸ hth) with hth | ⟨pc', rfl, rfl⟩
      · exact h.held th hth addr haddr
      · exact h.local_held hl hmove addr haddr
    · rcases Waiters.mem_moved hl (hthreads ▸ hth) with hth | ⟨pc', rfl, rfl⟩
      · exact h.allows th hth jobId job hjob
      · exact h.local_allows hl hC hmove jobId job hjob
  | polled ha hl hpc _ hsame =>
    subst ha hsame
    refine h.record (hC _ hl _ (by rw [hpc]; rfl)) rfl rfl fun th hth => .inl ?_
    rcases Waiters.mem_moved hl hth with hth | ⟨pc', hnone, -⟩
    · exact ⟨th, hth, .inl rfl⟩
    · cases hnone
  | applied ha hl hpc _ hsignal hsame =>
    subst ha hsame
    refine h.record (hC _ hl _ (by rw [hpc]; rfl)) rfl rfl fun th' hth' => ?_
    obtain ⟨th, hth, -, hcases⟩ := signalCond_mem hsignal hth'
    rcases Waiters.mem_moved hl hth with hth | ⟨pc', hsome, rfl⟩
    · exact .inl ⟨th, hth, hcases.imp And.left And.right⟩
    · obtain rfl := Option.some.inj hsome
      exact .inr ⟨_, hcases.elim And.left And.right⟩
  | @gaveUp c w addr job hl hpc hjob hsame =>
    obtain ⟨hstored, haddr⟩ := h.getJob_of_deref hjob
    rw [h.store_eq hjob] at hsame
    subst hsame
    have hallows := h.allows _ (Waiters.mem_thread hl) w.jobId job hstored
    rw [hpc] at hallows
    refine h.timeout (s.ctx.updateJobState_spec w.jobId .timeout).1
      (MainContext.inGraph_nextAddr ..) rfl
      (fun job' hjob' => ?_) fun th hth => ?_
    · rw [Option.some.inj (hjob'.symm.trans hstored)]
      exact hallows rfl haddr.symm
    · rcases Waiters.mem_moved hl hth with hth | ⟨pc', hsome, rfl⟩
      · exact .inl hth
      · obtain rfl := Option.some.inj hsome
        exact .inr ⟨w, addr, rfl, rfl, haddr ▸ h.fresh _ _ job hstored⟩
  | @gaveUpPolled c w hl hpc hsame =>
    subst hsame
    have hallows := h.allows _ (Waiters.mem_thread hl) w.jobId
    rw [hpc] at hallows
    refine h.timeout (s.ctx.updateJobState_spec w.jobId .timeout).1
      (MainContext.inGraph_nextAddr ..) rfl
      (fun job hjob => hallows job hjob rfl) fun th hth => ?_
    rcases Waiters.mem_moved hl hth with hth | ⟨pc', hnone, -⟩
    · exact .inl hth
    · cases hnone

end Checks

end Aipu
