import AipuDriver.Kmd.RecordedEnds
import AipuDriver.Umd.Runtime

/-!
# Steps of a context over the kernel driver

Every step is a step of the kernel driver or leaves it alone (`runtimeStep_kernel`), so the
invariants of the kernel driver hold.  What a step does to the jobs of the context, to the session
jobs of its file and to the call that waits is said once (`RuntimeMove`).
-/

namespace Aipu

open ListSearch Transition

/-! ## The kernel driver -/

/-- The event of the kernel driver in an event. -/
def RuntimeEvent.kernel : RuntimeEvent → Option KmdEvent
  | .kmd e => some e
  | _ => none

/-- The kernel driver makes a step, or nothing happens in it. -/
def Runtime.KernelStep (s s' : Runtime) (es : List RuntimeEvent) : Prop :=
  (s'.kmd = s.kmd ∧ es.filterMap RuntimeEvent.kernel = []) ∨
    ∃ b, kmdStep s.kmd b = some (s'.kmd, es.filterMap RuntimeEvent.kernel)

/-! ## What a step does -/

/-- The job for which a call of `wait_for_job_end` waits. -/
def UmdCall.waitsFor : UmdCall → Option ℕ
  | .runjob _ _ _ => none
  | .poll p _ => if p.pollSingleJob then some p.jobId else none
  | .query p => if p.pollSingleJob then some p.jobId else none
  | .sleep _ jobId _ => some jobId
  | .kill _ jobId => some jobId
  | .giveUp jobId => some jobId

/-- The job for which the context waits. -/
def Runtime.waitsFor (s : Runtime) : Option ℕ := s.call.bind UmdCall.waitsFor

/-- A session job in the list of the file of the context. -/
def Runtime.Own (s : Runtime) (sj : SessionJob) : Prop :=
  ∃ f ∈ s.kmd.files, s.fd = some f.id ∧ sj ∈ f.session.jobList

/-- The list of the file gets no new session job. -/
def Runtime.KeepsOwn (s s' : Runtime) : Prop :=
  ∀ sj', s'.Own sj' → ∃ sj, s.Own sj ∧ sj.id = sj'.id ∧ sj.desc = sj'.desc

/-- A wait in progress was so before, or it starts for a job that has not ended. -/
def Runtime.KeepsWait (s s' : Runtime) : Prop :=
  ∀ jobId, s'.waitsFor = some jobId → s.waitsFor = some jobId ∨ s.ctx.waitStart jobId = none

/-- RUNJOB is not called, and no job gets a number. -/
def Runtime.Quiet (s s' : Runtime) (es : List RuntimeEvent) : Prop :=
  s'.ctx.nextAddr = s.ctx.nextAddr ∧ ∀ addr sessionJob, .runjob addr sessionJob ∉ es

/-- The kernel refuses the job, for lack of memory. -/
def RuntimeAction.Refused : RuntimeAction → Prop
  | .flushJob _ _ kz => kz.next.1 = false
  | .runSchedule kzOk _ => kzOk = false
  | _ => False

instance : DecidablePred RuntimeAction.Refused := fun a => by
  rcases a <;> unfold RuntimeAction.Refused <;> infer_instance

/-- The query that `dev_op_wrapper_poll` makes. -/
def DevPoll.statusQuery (p : DevPoll) : JobStatusQuery :=
  { maxCnt := p.maxCnt, getSingleJob := p.pollSingleJob, jobId := p.jobId }

/-- What a step does to the jobs of the context and to the session jobs of its file. -/
inductive RuntimeMove (s : Runtime) (a : RuntimeAction) (s' : Runtime) (es : List RuntimeEvent) :
    Prop
  /-- The jobs stay as they are. -/
  | same (hown : s.KeepsOwn s') (hjobs : ∀ id i, s'.ctx.job id i = s.ctx.job id i)
      (hwait : s.KeepsWait s') (hquiet : s.Quiet s' es)
  | created {id handle : ℕ} {inRange : Bool} {config : UserJobDesc} {ret : AipuStatus}
      {new : Option ℕ} (ha : a = .createNewJob id handle inRange config)
      (hcreate : s.ctx.createNewJob id handle inRange config = some (ret, s'.ctx, new))
      (hes : es = [.returned ret none]) (hkmd : s'.kmd = s.kmd) (hfd : s'.fd = s.fd)
      (hwait : s'.waitsFor = none)
  /-- RUNJOB has made a session job of the job. -/
  | flushed {jobId : ℕ} {job : JobDesc} (hjob : s.ctx.getJob jobId = some job)
      (hbuilt : job.state = .built) (hctx : s.ctx.Writes jobId .sched s'.ctx)
      (hown : ∀ sj', s'.Own sj' → (∃ sj, s.Own sj ∧ sj.id = sj'.id ∧ sj.desc = sj'.desc) ∨
        sj'.id = s.kmd.nextSessionJob ∧ sj'.desc.jobId = jobId)
      (haddr : s'.ctx.nextAddr = s.ctx.nextAddr)
      (hes : ∀ addr sessionJob, .runjob addr sessionJob ∈ es ↔
        addr = job.addr ∧ sessionJob = s.kmd.nextSessionJob) (hwait : s'.waitsFor = none)
  | refused {jobId : ℕ} (ha : a.Refused) (hown : s.KeepsOwn s')
      (hctx : s.ctx.Writes jobId .noState s'.ctx) (hwait : s'.waitsFor = none)
      (hquiet : s.Quiet s' es)
  /-- The records of QUERYSTATUS are written to the jobs. -/
  | replied {p : DevPoll} {fd : ℕ} {kzOk : Bool} {notCopied notCopiedQuery : ℕ}
      {kes : List KmdEvent} (hcall : s.call = some (.query p)) (hfd : s.fd = some fd)
      (hst : kmdStep s.kmd (.query fd p.statusQuery kzOk notCopied notCopiedQuery) =
        some (s'.kmd, kes))
      (hctx : if p.pollSingleJob then ∃ status rest, records kes = status :: rest ∧
          s'.ctx = (s.ctx.waitReply p.jobId status).2
        else s'.ctx = (s.ctx.pollReply (records kes)).2)
      (hfd' : s'.fd = s.fd) (hwait : s'.waitsFor = none) (hquiet : s.Quiet s' es)
  | timedOut {jobId : ℕ} (ha : a = .giveUp) (hcall : s.call = some (.giveUp jobId))
      (hctx : s'.ctx = (s.ctx.waitTimeout jobId).2) (hkmd : s'.kmd = s.kmd) (hfd : s'.fd = s.fd)
      (hwait : s'.waitsFor = none) (hquiet : s.Quiet s' es)
  | cleaned {jobId : ℕ} (ha : a = .cleanJob jobId) (hctx : s'.ctx = (s.ctx.cleanJob jobId).2)
      (hkmd : s'.kmd = s.kmd) (hfd : s'.fd = s.fd) (hwait : s'.waitsFor = none)
      (hquiet : s.Quiet s' es)

section Steps

variable {s s' : Runtime} {a : RuntimeAction} {es : List RuntimeEvent}

/-- The call returns and changes at most the context. -/
theorem Runtime.return_cases {ret : AipuStatus} {status : Option AipuJobStatus}
    (h : s.return ret status = some (s', es)) :
    s' = { s with call := none } ∧ es = [.returned ret status] := by
  obtain ⟨rfl, rfl⟩ := Prod.mk.inj (Option.some.inj h)
  exact ⟨rfl, rfl⟩

/-- A system call is a step of the kernel driver, and then the context goes on. -/
theorem Runtime.ioctl_cases {b : KmdAction}
    {f : Runtime → List KmdEvent → Option (Runtime × List RuntimeEvent)}
    (h : s.ioctl b f = some (s', es)) :
    ∃ kmd kes more, kmdStep s.kmd b = some (kmd, kes) ∧
      f { s with kmd := kmd } kes = some (s', more) ∧
      es = kes.map .kmd ++ more := by
  unfold Runtime.ioctl at h
  split at h
  · cases h
  next kmd kes hst =>
    obtain ⟨⟨s₁, more⟩, hf, heq⟩ := Option.map_eq_some_iff.mp h
    obtain ⟨rfl, rfl⟩ := Prod.mk.inj heq
    exact ⟨kmd, kes, more, hst, hf, rfl⟩

/-- The events of the kernel driver are those of its step. -/
theorem kernel_append {kes : List KmdEvent} {more : List RuntimeEvent}
    (hmore : more.filterMap RuntimeEvent.kernel = []) :
    (kes.map RuntimeEvent.kmd ++ more).filterMap RuntimeEvent.kernel = kes := by
  rw [List.filterMap_append, hmore, List.append_nil, List.filterMap_map]
  exact List.filterMap_some

/-- A system call as a step of the kernel driver. -/
theorem Runtime.kernelStep_of_ioctl {b : KmdAction} {kes : List KmdEvent} {more : List RuntimeEvent}
    (hst : kmdStep s.kmd b = some (s'.kmd, kes)) (hmore : more.filterMap RuntimeEvent.kernel = []) :
    s.KernelStep s' (kes.map .kmd ++ more) := .inr ⟨b, by rw [kernel_append hmore, hst]⟩

/-- The lists of the kernel driver stay. -/
theorem Runtime.keepsOwn_of_same (hkmd : s'.kmd = s.kmd) (hfd : s'.fd = s.fd) : s.KeepsOwn s' := by
  rintro sj' ⟨f, hf, hid, hsj'⟩
  exact ⟨sj', ⟨f, hkmd ▸ hf, hfd ▸ hid, hsj'⟩, rfl, rfl⟩

/-- A step of the kernel driver that is no RUNJOB on the file of the context. -/
theorem Runtime.keepsOwn_of_kmdStep {b : KmdAction} {kes : List KmdEvent}
    (hst : kmdStep s.kmd b = some (s'.kmd, kes)) (hfd : s'.fd = s.fd)
    (hb : ∀ fd tid userJob kz, s.fd = some fd → b ≠ .runAdd fd tid userJob kz) : s.KeepsOwn s' := by
  rintro sj' ⟨f', hf', hid, hsj'⟩
  rcases kmdStep_origin hst hf' hsj' with ⟨f, hf, hfid, sj, hsj, hsid, hdesc⟩ |
    ⟨tid, userJob, kz, ha, -⟩
  · exact ⟨sj, ⟨f, hf, by rw [hfid, ← hfd, hid], hsj⟩, hsid, hdesc⟩
  · exact absurd ha (hb f'.id tid userJob kz (hfd ▸ hid))

/-- A system call other than RUNJOB. -/
theorem Runtime.quiet_append {kes : List KmdEvent} {more : List RuntimeEvent}
    (haddr : s'.ctx.nextAddr = s.ctx.nextAddr)
    (hmore : ∀ addr sessionJob, .runjob addr sessionJob ∉ more) :
    s.Quiet s' (kes.map .kmd ++ more) := by
  refine ⟨haddr, fun addr sessionJob hmem => ?_⟩
  rcases List.mem_append.mp hmem with hmem | hmem
  · obtain ⟨e, -, he⟩ := List.mem_map.mp hmem
    cases he
  · exact hmore addr sessionJob hmem

/-- The call returns and changes nothing else. -/
theorem Runtime.return_moves {ret : AipuStatus} {status : Option AipuJobStatus}
    (h : s.return ret status = some (s', es)) : s.KernelStep s' es ∧ RuntimeMove s a s' es := by
  obtain ⟨rfl, rfl⟩ := Runtime.return_cases h
  refine ⟨.inl ⟨rfl, rfl⟩, .same (Runtime.keepsOwn_of_same rfl rfl) (fun _ _ => rfl) ?_
    ⟨rfl, by simp⟩⟩
  rintro jobId ⟨⟩

/-- The call goes on and changes nothing else. -/
theorem Runtime.call_moves {call : UmdCall}
    (hcall : ∀ jobId, call.waitsFor = some jobId →
      s.waitsFor = some jobId ∨ s.ctx.waitStart jobId = none) :
    s.KernelStep { s with call := some call } [] ∧
      RuntimeMove s a { s with call := some call } [] :=
  ⟨.inl ⟨rfl, rfl⟩, .same (Runtime.keepsOwn_of_same rfl rfl) (fun _ _ => rfl) hcall
    ⟨rfl, by simp⟩⟩

/-- A system call other than RUNJOB, after which the context changes at most its call. -/
theorem Runtime.ioctl_moves {b : KmdAction}
    {f : Runtime → List KmdEvent → Option (Runtime × List RuntimeEvent)}
    (h : s.ioctl b f = some (s', es))
    (hb : ∀ fd tid userJob kz, s.fd = some fd → b ≠ .runAdd fd tid userJob kz)
    (hf : ∀ kmd kes s₂ more, f { s with kmd := kmd } kes = some (s₂, more) →
      ∃ call, s₂ = { s with kmd := kmd, call := call } ∧ more = [] ∧ s.KeepsWait s₂) :
    s.KernelStep s' es ∧ RuntimeMove s a s' es := by
  obtain ⟨kmd, kes, more, hst, hcont, rfl⟩ := Runtime.ioctl_cases h
  obtain ⟨call, rfl, rfl, hwait⟩ := hf _ _ _ _ hcont
  exact ⟨Runtime.kernelStep_of_ioctl hst rfl,
    .same (Runtime.keepsOwn_of_kmdStep hst rfl hb) (fun _ _ => rfl) hwait
      (Runtime.quiet_append rfl (by simp))⟩

/-! ### The calls -/

/-- The device is opened once, and its list is empty then. -/
theorem Runtime.openDevice_moves (hfiles : s.kmd.FilesFresh) {pid : ℤ} {kz : Oracle}
    (h : s.openDevice pid kz = some (s', es)) : s.KernelStep s' es ∧ RuntimeMove s a s' es := by
  unfold Runtime.openDevice at h
  split_ifs at h with hfd
  obtain ⟨kmd, kes, more, hst, hcont, rfl⟩ := Runtime.ioctl_cases h
  have hcont := Option.some.inj hcont
  have hmore : more = [] := (congrArg Prod.snd hcont).symm
  have hs' := congrArg Prod.fst hcont
  dsimp only at hs'
  have hkmd : s'.kmd = kmd := by rw [← hs']; split <;> rfl
  have hctx : s'.ctx = s.ctx := by rw [← hs']; split <;> rfl
  have hcall : s'.call = s.call := by rw [← hs']; split <;> rfl
  have hfd' : ∀ fd, s'.fd = some fd → fd = s.kmd.nextFile := by
    intro fd hfd'
    rw [← hs'] at hfd'
    split at hfd'
    · exact (Option.some.inj hfd').symm
    · simp [hfd] at hfd'
  subst hkmd
  refine ⟨Runtime.kernelStep_of_ioctl hst (by rw [hmore]; rfl), .same ?_ (by simp [hctx]) ?_
    (Runtime.quiet_append (by rw [hctx]) (by simp [hmore]))⟩
  · rintro sj' ⟨f', hf', hid, hsj'⟩
    have hid := hfd' _ hid
    rcases (kmdStep_files hst).mem_of hf' with ⟨f, hf, hstep⟩ | ⟨pid, rfl⟩
    · have := hfiles.lt f hf
      rw [← hstep.id, hid] at this
      exact absurd this (Nat.lt_irrefl _)
    · cases hsj'
  · intro jobId hjobId
    rw [Runtime.waitsFor, hcall] at hjobId
    exact .inl hjobId

/-- RUNJOB returns at once only when there is no memory, and then nothing has happened. -/
theorem runjobAdd_returned {k k' : Kmd} {file : ℕ} {tid : ℤ} {userJob : UserJob} {kz : Oracle}
    {kes : List KmdEvent} (h : runjobAdd k file tid userJob kz = some (k', kes)) (hkes : kes ≠ []) :
    kz.next.1 = false ∧ k' = k := by
  obtain ⟨c, hc, ⟨-, -, hnil, -⟩ | ⟨rfl, -⟩⟩ := runjobAdd_cases h
  · exact absurd hnil hkes
  · refine ⟨?_, rfl⟩
    by_contra hok
    have hok : kz.next.1 = true := by simpa using hok
    unfold runjobAdd aipuSessionAddJob at h
    simp only [hc, hok, if_true] at h
    cases hw : createThreadWaitQueueNoLock kz.next.2 c.entry.session.waitQueue
        (initSessionJob k'.nextSessionJob tid userJob.desc).uthreadId with
    | none => simp [hw] at h
    | some out =>
      simp only [hw, Option.some.injEq, Prod.mk.injEq] at h
      exact hkes h.2.symm

/-- One write after the other. -/
theorem MainContext.Writes.trans {ctx ctx' ctx'' : MainContext} {jobId : ℕ} {st st' : JobState}
    (h : ctx.Writes jobId st ctx') (h' : ctx'.Writes jobId st' ctx'') :
    ctx.Writes jobId st' ctx'' := by
  intro id i
  rw [h', h]
  split
  · rw [Option.map_map]
    rfl
  · rfl

/-- `flush_job` makes a session job of a job that is built, or the kernel refuses it. -/
theorem Runtime.flushJob_moves {fd : ℕ} {tid : ℤ} {jobId : ℕ} {kz : Oracle}
    (h : s.flushJob fd tid jobId kz = some (s', es)) :
    s.KernelStep s' es ∧ RuntimeMove s (.flushJob tid jobId kz) s' es := by
  unfold Runtime.flushJob at h
  split at h
  · exact Runtime.return_moves h
  next g hg =>
    split at h
    · exact Runtime.return_moves h
    next job g₁ hmark =>
      obtain ⟨hjob, hbuilt, hwrites⟩ := MainContext.flushJobMark_spec hg hmark
      have hid : job.id = jobId := by
        obtain ⟨g', -, hg'⟩ := Option.bind_eq_some_iff.mp hjob
        exact (Graph.getJobPtr_eq_some hg').2
      obtain ⟨kmd, kes, more, hst, hcont, rfl⟩ := Runtime.ioctl_cases h
      dsimp only at hcont hst
      split_ifs at hcont with hcode
      · obtain ⟨rfl, rfl⟩ := Prod.mk.inj (Option.some.inj hcont)
        refine ⟨Runtime.kernelStep_of_ioctl hst rfl, .flushed hjob hbuilt hwrites ?_ rfl
          (by simp [initSessionJob]) rfl⟩
        rintro sj' ⟨f', hf', hfid, hsj'⟩
        rcases kmdStep_origin hst hf' hsj' with ⟨f, hf, hid', sj, hsj, hsid, hdesc⟩ |
          ⟨tid', userJob, kz', ha, rfl⟩
        · exact .inl ⟨sj, ⟨f, hf, by rw [hid', hfid], hsj⟩, hsid, hdesc⟩
        · obtain ⟨-, -, rfl, -⟩ : _ ∧ _ ∧ _ = userJob ∧ _ := by simpa using ha
          exact .inr ⟨rfl, hid⟩
      · have hkes : kes ≠ [] := by
          rintro rfl
          exact hcode rfl
        obtain ⟨hkz, rfl⟩ := runjobAdd_returned hst hkes
        obtain ⟨rfl, rfl⟩ := Runtime.return_cases hcont
        have hrefused := hwrites.trans ((MainContext.scheduleJobEnd_spec _ jobId false).2 rfl)
        exact ⟨Runtime.kernelStep_of_ioctl hst rfl, .refused hkz
          (Runtime.keepsOwn_of_same rfl rfl) hrefused rfl
          (Runtime.quiet_append (MainContext.inGraph_nextAddr ..) (by simp))⟩

/-- The second step of RUNJOB is refused only for lack of memory. -/
theorem Runtime.runSchedule_moves {fd jobId : ℕ} {userJob : UserJob} {kernJob : SessionJob}
    {kzOk : Bool} {stale : SessionMem}
    (h : s.runSchedule fd jobId userJob kernJob kzOk stale = some (s', es)) :
    s.KernelStep s' es ∧ RuntimeMove s (.runSchedule kzOk stale) s' es := by
  obtain ⟨kmd, kes, more, hst, hcont, rfl⟩ := Runtime.ioctl_cases h
  obtain ⟨rfl, rfl⟩ := Runtime.return_cases hcont
  refine ⟨Runtime.kernelStep_of_ioctl hst rfl, ?_⟩
  have hown : s.KeepsOwn { s with
      kmd := kmd, ctx := s.ctx.scheduleJobEnd jobId (returnCode kes = some 0), call := none } :=
    Runtime.keepsOwn_of_kmdStep hst rfl (by simp)
  have hquiet : s.Quiet { s with
      kmd := kmd, ctx := s.ctx.scheduleJobEnd jobId (returnCode kes = some 0), call := none }
      (kes.map .kmd ++ [.returned .success none]) :=
    Runtime.quiet_append (MainContext.inGraph_nextAddr ..) (by simp)
  obtain ⟨-, ⟨-, js, jes, -, -, hkes⟩ | ⟨rfl, -, hkes⟩⟩ := runjobSchedule_cases hst
  · have hcode : returnCode kes = some 0 := by
      have hjes : (jes.map fun e => KmdEvent.job e (s.kmd.alive e)).findSome? KmdEvent.code =
          none := by
        rw [List.findSome?_eq_none_iff]
        intro e he
        obtain ⟨_, -, rfl⟩ := List.mem_map.mp he
        rfl
      rw [hkes, returnCode, List.findSome?_append, hjes]
      rfl
    refine .same hown ?_ (by rintro jobId' ⟨⟩) hquiet
    exact (MainContext.scheduleJobEnd_spec s.ctx jobId _).1 (decide_eq_true hcode)
  · have hcode : returnCode kes ≠ some 0 := by
      rw [hkes]
      simp [returnCode, KmdEvent.code, mapErrcode, efault]
    have hrefused := (MainContext.scheduleJobEnd_spec s.ctx jobId _).2 (decide_eq_false hcode)
    exact .refused rfl hown hrefused rfl hquiet

/-- `poll` registers. -/
theorem Runtime.poll_moves {fd : ℕ} {p : DevPoll} (h : s.poll fd p = some (s', es))
    (hwait : ∀ jobId, (UmdCall.poll p false).waitsFor = some jobId → s.ctx.waitStart jobId = none) :
    s.KernelStep s' es ∧ RuntimeMove s a s' es := by
  refine Runtime.ioctl_moves h (by simp) fun kmd kes s₂ more hcont => ?_
  obtain ⟨rfl, rfl⟩ := Prod.mk.inj (Option.some.inj hcont)
  exact ⟨_, rfl, rfl, fun jobId hjobId => .inr (hwait jobId hjobId)⟩

/-- `wait_for_job_end` returns, or it waits for a job that has not ended. -/
theorem Runtime.waitForJobEnd_moves {fd : ℕ} {tid : ℤ} {jobId : ℕ} {timeOut : ℤ}
    (h : s.waitForJobEnd fd tid jobId timeOut = some (s', es)) :
    s.KernelStep s' es ∧ RuntimeMove s a s' es := by
  unfold Runtime.waitForJobEnd at h
  split at h
  · exact Runtime.return_moves h
  next hstart =>
    by_cases hopt : s.ctx.pollOpt = true
    · rw [if_pos hopt] at h
      obtain ⟨rfl, rfl⟩ := Prod.mk.inj (Option.some.inj h)
      refine Runtime.call_moves fun jobId' hjobId' => .inr ?_
      rw [← Option.some.inj hjobId']
      exact hstart
    · rw [if_neg hopt] at h
      refine Runtime.poll_moves h fun jobId' hjobId' => ?_
      rw [← Option.some.inj hjobId']
      exact hstart

/-- A check of `poll` changes nothing. -/
theorem Runtime.pollCheck_moves {fd : ℕ} {p : DevPoll} {checked : Bool}
    (hcall : s.call = some (.poll p checked)) (h : s.pollCheck fd p = some (s', es)) :
    s.KernelStep s' es ∧ RuntimeMove s a s' es := by
  refine Runtime.ioctl_moves h (by simp) fun kmd kes s₂ more hcont => ?_
  obtain ⟨rfl, rfl⟩ := Prod.mk.inj (Option.some.inj hcont)
  refine ⟨_, rfl, rfl, fun jobId hjobId => .inl ?_⟩
  rw [Runtime.waitsFor, hcall]
  dsimp only [Runtime.waitsFor] at hjobId
  split_ifs at hjobId <;> exact hjobId

/-- Without records, the call returns or its time is over. -/
theorem Runtime.pollStatus_moves {p : DevPoll} (h : s.pollStatus p [] = some (s', es))
    (hcall : p.pollSingleJob = true → s.waitsFor = some p.jobId) :
    s.KernelStep s' es ∧ RuntimeMove s a s' es := by
  unfold Runtime.pollStatus at h
  split_ifs at h with hsingle
  · obtain ⟨rfl, rfl⟩ := Prod.mk.inj (Option.some.inj h)
    refine Runtime.call_moves fun jobId hjobId => .inl ?_
    rw [hcall hsingle, ← hjobId]
    rfl
  · exact Runtime.return_moves h

/-- QUERYSTATUS, and what is done with its records. -/
theorem Runtime.query_moves {fd : ℕ} {p : DevPoll} {kzOk : Bool} {notCopied notCopiedQuery : ℕ}
    (hfd : s.fd = some fd) (hcall : s.call = some (.query p))
    (h : s.query fd p kzOk notCopied notCopiedQuery = some (s', es)) :
    s.KernelStep s' es ∧ RuntimeMove s a s' es := by
  obtain ⟨kmd, kes, more, hst, hcont, rfl⟩ := Runtime.ioctl_cases h
  have hown : ∀ call, s.KeepsOwn { s with kmd := kmd, call := call } := fun call =>
    Runtime.keepsOwn_of_kmdStep hst rfl (by simp)
  unfold Runtime.pollStatus at hcont
  split_ifs at hcont with hcode hsingle
  · split at hcont
    · obtain ⟨rfl, rfl⟩ := Prod.mk.inj (Option.some.inj hcont)
      refine ⟨Runtime.kernelStep_of_ioctl hst rfl, .same (hown _) (fun _ _ => rfl) ?_
        (Runtime.quiet_append rfl (by simp))⟩
      intro jobId hjobId
      rw [Runtime.waitsFor, hcall, ← hjobId]
      exact .inl (if_pos hsingle)
    next status rest hrecords =>
      obtain ⟨rfl, rfl⟩ := Runtime.return_cases hcont
      refine ⟨Runtime.kernelStep_of_ioctl hst rfl, .replied hcall hfd hst ?_ rfl rfl
        (Runtime.quiet_append (MainContext.inGraph_nextAddr ..) (by simp))⟩
      rw [if_pos hsingle]
      exact ⟨status, rest, hrecords, rfl⟩
  · obtain ⟨rfl, rfl⟩ := Runtime.return_cases hcont
    refine ⟨Runtime.kernelStep_of_ioctl hst rfl, .replied hcall hfd hst ?_ rfl rfl
      (Runtime.quiet_append (MainContext.pollReply_nextAddr ..) (by simp))⟩
    rw [if_neg hsingle]
  · obtain ⟨rfl, rfl⟩ := Runtime.return_cases hcont
    exact ⟨Runtime.kernelStep_of_ioctl hst rfl, .same (hown _) (fun _ _ => rfl) (by rintro _ ⟨⟩)
      (Runtime.quiet_append rfl (by simp))⟩

/-- `wait_for_job_end_sleep` returns, or its time is over. -/
theorem Runtime.wakeUp_moves {tid : ℤ} {jobId : ℕ} {timeOut : ℤ}
    (hcall : s.call = some (.sleep tid jobId timeOut))
    (h : s.wakeUp tid jobId timeOut = some (s', es)) :
    s.KernelStep s' es ∧ RuntimeMove s a s' es := by
  unfold Runtime.wakeUp at h
  split at h
  · exact Runtime.return_moves h
  · split_ifs at h
    obtain ⟨rfl, rfl⟩ := Prod.mk.inj (Option.some.inj h)
    refine Runtime.call_moves fun jobId' hjobId' => .inl ?_
    rw [Runtime.waitsFor, hcall, ← hjobId']
    rfl

/-- The start of a call takes at most a step of the driver, and is a move of the runtime. -/
theorem runtimeStart_moves {fd : ℕ}
    (h : runtimeStart s fd a = some (s', es)) : s.KernelStep s' es ∧ RuntimeMove s a s' es := by
  cases a with
  | setRuntimeConfig pollOpt =>
    obtain ⟨rfl, rfl⟩ := Runtime.return_cases h
    exact ⟨.inl ⟨rfl, rfl⟩, .same (Runtime.keepsOwn_of_same rfl rfl) (fun _ _ => rfl)
      (by rintro _ ⟨⟩) ⟨rfl, by simp⟩⟩
  | createNewJob id handle inRange config =>
    simp only [runtimeStart] at h
    split at h
    · cases h
    next ret ctx new hcreate =>
      obtain ⟨rfl, rfl⟩ := Runtime.return_cases h
      exact ⟨.inl ⟨rfl, rfl⟩, .created rfl hcreate rfl rfl rfl rfl⟩
  | flushJob tid jobId kz => exact Runtime.flushJob_moves h
  | waitForJobEnd tid jobId timeOut => exact Runtime.waitForJobEnd_moves h
  | pollJobStatus tid timeOut => exact Runtime.poll_moves h (by rintro jobId ⟨⟩)
  | cleanJob jobId =>
    obtain ⟨rfl, rfl⟩ := Runtime.return_cases h
    exact ⟨.inl ⟨rfl, rfl⟩, .cleaned rfl rfl rfl rfl rfl
      ⟨MainContext.inGraph_nextAddr .., by simp⟩⟩
  | kmd | openDevice | runSchedule | pollCheck | pollTimeout | pollFail | query | wakeUp | kill
  | giveUp => cases h

/-- A call that goes on takes at most a step of the driver, and is a move of the runtime. -/
theorem runtimeContinue_moves {fd : ℕ} {call : UmdCall} (hfd : s.fd = some fd)
    (hcall : s.call = some call) (h : runtimeContinue s fd call a = some (s', es)) :
    s.KernelStep s' es ∧ RuntimeMove s a s' es := by
  cases a with
  | runSchedule kzOk stale =>
    simp only [runtimeContinue] at h
    split at h
    · exact Runtime.runSchedule_moves h
    · cases h
  | pollCheck =>
    simp only [runtimeContinue] at h
    split at h
    · exact Runtime.pollCheck_moves hcall h
    · cases h
  | pollTimeout =>
    simp only [runtimeContinue] at h
    split at h
    next p =>
      split_ifs at h
      refine Runtime.pollStatus_moves h fun hsingle => ?_
      rw [Runtime.waitsFor, hcall]
      exact if_pos hsingle
    · cases h
  | pollFail =>
    simp only [runtimeContinue] at h
    split at h
    · exact Runtime.return_moves h
    · cases h
  | query kzOk notCopied notCopiedQuery =>
    simp only [runtimeContinue] at h
    split at h
    · exact Runtime.query_moves hfd hcall h
    · cases h
  | wakeUp =>
    simp only [runtimeContinue] at h
    split at h
    · exact Runtime.wakeUp_moves hcall h
    · cases h
  | kill stale =>
    simp only [runtimeContinue] at h
    split at h
    next tid jobId =>
      refine Runtime.ioctl_moves h (by simp) fun kmd kes s₂ more hcont => ?_
      obtain ⟨rfl, rfl⟩ := Prod.mk.inj (Option.some.inj hcont)
      refine ⟨_, rfl, rfl, fun jobId' hjobId' => .inl ?_⟩
      rw [Runtime.waitsFor, hcall, ← hjobId']
      rfl
    · cases h
  | giveUp =>
    simp only [runtimeContinue] at h
    split at h
    next jobId =>
      obtain ⟨rfl, rfl⟩ := Runtime.return_cases h
      exact ⟨.inl ⟨rfl, rfl⟩, .timedOut rfl hcall rfl rfl rfl rfl
        ⟨MainContext.inGraph_nextAddr .., by simp⟩⟩
    · cases h
  | kmd | openDevice | setRuntimeConfig | createNewJob | flushJob | waitForJobEnd | pollJobStatus
  | cleanJob => cases h

/-- A call starts or goes on, on a device that is open. -/
theorem runtimeCall_cases (h : runtimeCall s a = some (s', es)) :
    ∃ fd, s.fd = some fd ∧ ((s.call = none ∧ runtimeStart s fd a = some (s', es)) ∨
      ∃ call, s.call = some call ∧ runtimeContinue s fd call a = some (s', es)) := by
  unfold runtimeCall at h
  split at h
  · cases h
  next fd hfd =>
    refine ⟨fd, hfd, ?_⟩
    split at h
    next hcall => exact .inl ⟨hcall, h⟩
    next call hcall => exact .inr ⟨call, hcall, h⟩

/-- A step of a call. -/
theorem runtimeCall_moves (h : runtimeCall s a = some (s', es)) :
    s.KernelStep s' es ∧ RuntimeMove s a s' es := by
  obtain ⟨fd, hfd, ⟨-, hstart⟩ | ⟨call, hcall, hcont⟩⟩ := runtimeCall_cases h
  · exact runtimeStart_moves hstart
  · exact runtimeContinue_moves hfd hcall hcont

/-- **One step.**  A step is a step of the kernel driver or leaves it alone, and what it does to the
context is one of the moves. -/
theorem runtimeStep_moves (hfiles : s.kmd.FilesFresh) (h : runtimeStep s a = some (s', es)) :
    s.KernelStep s' es ∧ RuntimeMove s a s' es := by
  cases a with
  | kmd b =>
    simp only [runtimeStep] at h
    split_ifs at h with hb
    refine Runtime.ioctl_moves h ?_ fun kmd kes s₂ more hcont => ?_
    · rintro fd tid userJob kz hfd rfl
      rw [hfd] at hb
      rcases hb with hb | hb
      · cases hb
      · exact hb rfl
    · obtain ⟨rfl, rfl⟩ := Prod.mk.inj (Option.some.inj hcont)
      exact ⟨_, rfl, rfl, fun jobId hjobId => .inl hjobId⟩
  | openDevice pid kz => exact Runtime.openDevice_moves hfiles h
  | _ => exact runtimeCall_moves h

end Steps

/-! ## Runs -/

/-- The events of the job manager in a trace. -/
def jmTrace (tr : List RuntimeEvent) : List JmEvent :=
  (tr.filterMap RuntimeEvent.kernel).filterMap KmdEvent.jm

/-- What holds of the kernel driver in every run. -/
structure KernelInv (max : ℤ) (tr : List RuntimeEvent) (s : Runtime) : Prop where
  jobs : s.kmd.JobsInv
  queue : JobQueueInv max (jmTrace tr) s.kmd.js
  bh : s.kmd.js.BhInv
  fresh : s.kmd.SessionJobsFresh
  ran : s.kmd.EndsRan (jmTrace tr)

/-- A run is a run of the kernel driver. -/
theorem runtimeSystem_kmd {version : AipuVersion} {map : MemoryMap} {maxSchedNum : ℤ}
    (hmax : 0 ≤ maxSchedNum) {C : Runtime → RuntimeAction → Prop} {tr : List RuntimeEvent}
    {s : Runtime} (h : (runtimeSystem version map maxSchedNum).Run C tr s) :
    (kmdSystem version map maxSchedNum).Run anyStep (tr.filterMap RuntimeEvent.kernel) s.kmd := by
  induction h with
  | start hs => exact .start hs.1
  | next _ _ hst ih =>
    rw [List.filterMap_append]
    rcases (runtimeStep_moves (kmdSystem_jobs hmax ih).files hst).1 with ⟨hkmd, hes⟩ | ⟨b, hb⟩
    · rw [hkmd, hes, List.append_nil]
      exact ih
    · exact ih.next trivial hb

/-- So the invariants of the kernel driver hold. -/
theorem runtimeSystem_kernel {version : AipuVersion} {map : MemoryMap} {maxSchedNum : ℤ}
    (hmax : 0 ≤ maxSchedNum) {C : Runtime → RuntimeAction → Prop} {tr : List RuntimeEvent}
    {s : Runtime} (h : (runtimeSystem version map maxSchedNum).Run C tr s) :
    KernelInv maxSchedNum tr s := by
  have hkmd := runtimeSystem_kmd hmax h
  obtain ⟨hq, hbh⟩ := kmdSystem_jm hmax hkmd
  exact ⟨kmdSystem_jobs hmax hkmd, hq, hbh, kmdSystem_sessionJobsFresh hmax hkmd,
    kmdSystem_endsRan hmax hkmd⟩

/-! ## Session jobs that may be reported -/

/-- A session job in the list of the context's file that has ended or may still end. -/
def Runtime.Live (s : Runtime) (sj : SessionJob) : Prop := s.Own sj ∧ ¬s.kmd.Dead sj.id

section Live

variable {s s' : Runtime} {es tr : List RuntimeEvent} {max : ℤ}

/-- What cannot end any more never can again. -/
theorem KernelInv.dead (hI : KernelInv max tr s) (h : s.KernelStep s' es) {sessionJob : ℕ}
    (hdead : s.kmd.Dead sessionJob) : s'.kmd.Dead sessionJob := by
  rcases h with ⟨hkmd, -⟩ | ⟨b, hb⟩
  · rw [hkmd]
    exact hdead
  · exact hdead.step hI.jobs hI.queue hI.bh hb

/-- A list that gets no new session job gets no new live one. -/
theorem KernelInv.live (hI : KernelInv max tr s) (h : s.KernelStep s' es) (hown : s.KeepsOwn s')
    {sj' : SessionJob} (hlive : s'.Live sj') :
    ∃ sj, s.Live sj ∧ sj.id = sj'.id ∧ sj.desc = sj'.desc := by
  obtain ⟨sj, hsj, hid, hdesc⟩ := hown sj' hlive.1
  exact ⟨sj, ⟨hsj, fun hdead => hlive.2 (hid ▸ hI.dead h hdead)⟩, hid, hdesc⟩

/-- The record for which `wait_for_job_end` has waited is about its job. -/
theorem records_single {p : DevPoll} {taken : List SessionJob} {records rest : List JobStatusDesc}
    {status : JobStatusDesc} (hsingle : p.pollSingleJob = true)
    (hrecords : records.map JobStatusDesc.jobId = taken.map (·.desc.jobId))
    (htaken : ∀ sj ∈ taken, p.pollSingleJob = true → sj.desc.jobId = p.jobId)
    (hstatus : records = status :: rest) : status.jobId = p.jobId := by
  have hmem : status.jobId ∈ taken.map (·.desc.jobId) := by simp [← hrecords, hstatus]
  obtain ⟨sj, hsj, hid⟩ := List.mem_map.mp hmem
  rw [← hid]
  exact htaken sj hsj hsingle

/-- The records of QUERYSTATUS are made of session jobs of the file that have ended, which match the
query and leave the list. -/
theorem KernelInv.query (hI : KernelInv max tr s) {p : DevPoll} {fd : ℕ} {kzOk : Bool}
    {notCopied notCopiedQuery : ℕ} {kes : List KmdEvent} (hfd : s.fd = some fd)
    (hfd' : s'.fd = s.fd)
    (h : kmdStep s.kmd (.query fd p.statusQuery kzOk notCopied notCopiedQuery) =
      some (s'.kmd, kes)) :
    ∃ taken : List SessionJob, (records kes).map JobStatusDesc.jobId = taken.map (·.desc.jobId) ∧
      (∀ sj ∈ taken, s.Live sj ∧ Ran (jmTrace tr) sj.id ∧
        (p.pollSingleJob = true → sj.desc.jobId = p.jobId)) ∧
      ∀ sj', s'.Own sj' → sj'.id ∉ taken.map SessionJob.id := by
  obtain ⟨c, ret, kept, taken, hc, hperm, -, hmatch, hkmd, hkes⟩ := queryStatus_cases h
  obtain ⟨hl, hid, -⟩ := Kmd.inPhase_eq_some hc
  have hmem : c.entry ∈ s.kmd.files := hl ▸ c.entry_mem
  have htaken : ∀ sj ∈ taken, s.Live sj ∧ Ran (jmTrace tr) sj.id ∧
      (p.pollSingleJob = true → sj.desc.jobId = p.jobId) := by
    intro sj hsj
    have hsjmem : sj ∈ c.entry.session.jobList := hperm.mem_iff.mp (List.mem_append_right _ hsj)
    obtain ⟨hcase, hended⟩ : (sj.desc.jobId = p.jobId ∧ p.pollSingleJob = true ∨
        p.pollSingleJob = false) ∧ sj.state = .finished := of_decide_eq_true (hmatch sj hsj)
    refine ⟨⟨⟨c.entry, hmem, by rw [hid, hfd], hsjmem⟩, fun hdead => ?_⟩,
      hI.ran _ hmem sj hsjmem hended, fun hsingle => ?_⟩
    · exact hdead.notEnded _ hmem sj hsjmem rfl hended
    · rcases hcase with hcase | hcase
      · exact hcase.1
      · rw [hsingle] at hcase
        cases hcase
  have hnodup : ((kept ++ taken).map SessionJob.id).Nodup :=
    (hperm.map _).nodup_iff.mpr (hI.fresh.nodup _ hmem)
  rw [List.map_append, List.nodup_append] at hnodup
  -- the file after the query is the one whose list is `kept`
  have hkept : ∀ sj', s'.Own sj' → sj' ∈ kept := by
    rintro sj' ⟨f', hf', hfid, hsj'⟩
    rw [hfd', hfd] at hfid
    have hids := (List.nodup_append.mp (by
      have := hI.jobs.files.nodup
      rwa [hl, Cursor.toList, List.map_append, List.map_cons] at this)).2
    rw [hkmd] at hf'
    rcases List.mem_append.mp hf' with hf' | hf'
    · refine absurd ?_ (hids.2 _ (List.mem_map_of_mem hf') _ List.mem_cons_self)
      rw [hid, Option.some.inj hfid]
    rcases List.mem_cons.mp hf' with rfl | hf'
    · exact hsj'
    · refine absurd ?_ (List.nodup_cons.mp hids.1).1
      rw [hid, Option.some.inj hfid]
      exact List.mem_map_of_mem hf'
  by_cases hcopied : notCopied = 0
  · refine ⟨taken, ?_, htaken, fun sj' hsj' hmem' => ?_⟩
    · rw [hkes, if_pos hcopied, records, List.filterMap_append]
      simp [List.filterMap_map, Function.comp_def, KmdEvent.record, AipuSession.statusOf]
    · exact hnodup.2.2 _ (List.mem_map_of_mem (hkept sj' hsj')) _ hmem' rfl
  · refine ⟨[], ?_, by simp, by simp⟩
    rw [hkes, if_neg hcopied]
    rfl

/-- What is done with the records sets the states of jobs whose session jobs have ended. -/
theorem KernelInv.replied (hI : KernelInv max tr s) {p : DevPoll} {fd : ℕ} {kzOk : Bool}
    {notCopied notCopiedQuery : ℕ} {kes : List KmdEvent} (hfd : s.fd = some fd)
    (hfd' : s'.fd = s.fd)
    (h : kmdStep s.kmd (.query fd p.statusQuery kzOk notCopied notCopiedQuery) =
      some (s'.kmd, kes))
    (hctx : if p.pollSingleJob then ∃ status rest, records kes = status :: rest ∧
        s'.ctx = (s.ctx.waitReply p.jobId status).2
      else s'.ctx = (s.ctx.pollReply (records kes)).2) :
    ∃ taken : List SessionJob, s.ctx.Sets (fun i state => i ∈ taken.map (·.desc.jobId) ∧
        (state = .done ∨ state = .exception)) s'.ctx ∧
      (∀ sj ∈ taken, s.Live sj ∧ Ran (jmTrace tr) sj.id) ∧
      ∀ sj', s'.Own sj' → sj'.id ∉ taken.map SessionJob.id := by
  obtain ⟨taken, hrecords, htaken, hleft⟩ := hI.query hfd hfd' h
  refine ⟨taken, ?_, fun sj hsj => ⟨(htaken sj hsj).1, (htaken sj hsj).2.1⟩, hleft⟩
  have hreported : ∀ status ∈ records kes, status.jobId ∈ taken.map (·.desc.jobId) ∧
      (status.state.jobState = .done ∨ status.state.jobState = .exception) := by
    intro status hstatus
    refine ⟨hrecords ▸ List.mem_map_of_mem hstatus, ?_⟩
    cases status.state with
    | done => exact .inl rfl
    | exception => exact .inr rfl
  split at hctx
  next hsingle =>
    obtain ⟨status, rest, hstatus, hctx⟩ := hctx
    have hjobId := records_single hsingle hrecords (fun sj hsj => (htaken sj hsj).2.2) hstatus
    rw [hctx, ← hjobId]
    exact (s.ctx.waitReply_spec status).sets (hreported status (by simp [hstatus]))
  next =>
    rw [hctx]
    exact s.ctx.pollReply_sets hreported

end Live

end Aipu
