import AipuDriver.Kmd.Busy

/-!
# Reset and clock gating (`aipu_sysfs.c`, `soc/junor2/junor2.c`)

On a Juno board two attributes of the device put the hardware into reset and gate its clock.  A
store tests a flag, writes a register and sets the flag, without a lock; calls of the driver and
interrupts may come in between, and so may another store.  The store of `clock_gating` asks the
hardware whether it is idle, the store of `reset` does not, and the job manager looks at none of the
flags.

The hardware is part of the system: it executes the jobs that are triggered, ends them one by one
and raises an interrupt for each, and it forgets what it executes when reset is asserted.  While
reset is asserted only when the hardware executes nothing, and no pending job comes up for
scheduling while a flag is set (`Coherent`), the counter of the job manager is exact.
-/

namespace Aipu

open ListSearch Transition

/-! ## State and actions -/

/-- What is left to do in a store: a register to write, or a flag to set. -/
inductive SysfsOp
  /-- `aipu_priv_logic_reset` -/
  | logicReset
  /-- `aipu_priv_logic_release`, `aipu_priv_enable_interrupt` -/
  | logicRelease
  /-- `aipu_priv_enable_clk_gating` -/
  | enableClkGating
  /-- `aipu_priv_disable_clk_gating` -/
  | disableClkGating
  /-- `aipu->is_reset = ..` -/
  | setReset (value : Bool)
  /-- `aipu->is_suspend = ..` -/
  | setSuspend (value : Bool)
deriving DecidableEq, Repr

/-- The job manager, the flags of `struct aipu_priv`, and the hardware. -/
structure PowerState where
  js : JmState
  isReset : Bool
  isSuspend : Bool
  /-- The stores that have not returned. -/
  ops : List SysfsOp
  /-- The number of jobs that the hardware executes. -/
  running : ℕ
  /-- The number of interrupts raised and not handled. -/
  raised : ℕ
deriving DecidableEq

/-- An event of the job manager, with the flags at that time. -/
structure PowerEvent where
  event : JmEvent
  isReset : Bool
  isSuspend : Bool
deriving DecidableEq, Repr

/-- A step: what is stored begins with the first character of `buf`. -/
inductive PowerAction
  /-- `sysfs_aipu_clock_gating_store`, up to its tests. -/
  | clockGatingStore (buf : List Char)
  /-- `sysfs_aipu_reset_store`, up to its tests. -/
  | resetStore (buf : List Char)
  /-- A store goes on. -/
  | sysfs (op : SysfsOp)
  /-- The hardware ends a job and raises an interrupt. -/
  | jobEnd
  /-- A step of the job manager; an upper half handles an interrupt. -/
  | jm (a : JmAction)

/-! ## Steps -/

/-- `sysfs_aipu_clock_gating_store`; the hardware is polled unless the flag is set. -/
def sysfsAipuClockGatingStore (s : PowerState) (buf : List Char) : PowerState :=
  let doSuspend := buf.head? = some '1'
  let doResume := buf.head? = some '0'
  if s.isSuspend = false then
    let (isIdle, idle) := s.js.jm.idle.next
    let s := { s with js := { s.js with jm := { s.js.jm with idle := idle } } }
    if isIdle ∧ doSuspend then { s with ops := .enableClkGating :: s.ops } else s
  else if doResume then { s with ops := .disableClkGating :: s.ops }
  else s

/-- `sysfs_aipu_reset_store` -/
def sysfsAipuResetStore (s : PowerState) (buf : List Char) : PowerState :=
  let doRelease := buf.head? = some '1'
  let doReset := buf.head? = some '0'
  if s.isReset = false ∧ doReset then { s with ops := .logicReset :: s.ops }
  else if s.isReset ∧ doRelease then { s with ops := .logicRelease :: s.ops }
  else s

/-- What a store does next, and what is left of it then. -/
def SysfsOp.run (s : PowerState) : SysfsOp → PowerState × Option SysfsOp
  | .logicReset => ({ s with running := 0 }, some (.setReset true))
  | .logicRelease => (s, some (.setReset false))
  | .enableClkGating => (s, some (.setSuspend true))
  | .disableClkGating => (s, some (.setSuspend false))
  | .setReset value => ({ s with isReset := value }, none)
  | .setSuspend value => ({ s with isSuspend := value }, none)

/-- A step of the job manager; the hardware executes what it triggers. -/
def PowerState.runJm (s : PowerState) (a : JmAction) : Option (PowerState × List PowerEvent) :=
  match jmStep s.js a with
  | none => none
  | some (js, es) =>
    some ({ s with js := js, running := s.running + (triggeredJobs es).length },
      es.map fun e => ⟨e, s.isReset, s.isSuspend⟩)

/-- What a step of the job manager does. -/
theorem PowerState.runJm_cases {s s' : PowerState} {a : JmAction} {es : List PowerEvent}
    (h : s.runJm a = some (s', es)) : ∃ js jes, jmStep s.js a = some (js, jes) ∧
      s' = { s with js := js, running := s.running + (triggeredJobs jes).length } ∧
      es = jes.map fun e => ⟨e, s.isReset, s.isSuspend⟩ := by
  unfold PowerState.runJm at h
  split at h
  · cases h
  · rename_i js jes hjm
    obtain ⟨rfl, rfl⟩ := Prod.mk.inj (Option.some.inj h)
    exact ⟨js, jes, hjm, rfl, rfl⟩

/-- One step. -/
def powerStep (s : PowerState) : PowerAction → Option (PowerState × List PowerEvent)
  | .clockGatingStore buf => some (sysfsAipuClockGatingStore s buf, [])
  | .resetStore buf => some (sysfsAipuResetStore s buf, [])
  | .sysfs op =>
    if op ∈ s.ops then
      let (s', next) := op.run s
      some ({ s' with ops := next.toList ++ s.ops.erase op }, [])
    else none
  | .jobEnd =>
    if s.running = 0 then none
    else some ({ s with running := s.running - 1, raised := s.raised + 1 }, [])
  | .jm (.upperHalf mem flag) =>
    if s.raised = 0 then none
    else { s with raised := s.raised - 1 }.runJm (.upperHalf mem flag)
  | .jm a => s.runJm a

/-- A step of the job manager other than an upper half needs no interrupt. -/
theorem powerStep_jm {s : PowerState} {a : JmAction} (ha : ∀ mem flag, a ≠ .upperHalf mem flag) :
    powerStep s (.jm a) = s.runJm a := by
  cases a with
  | upperHalf mem flag => exact absurd rfl (ha mem flag)
  | _ => rfl

/-- The runs of the job manager on a Juno board, with any stores and interrupts. -/
def powerSystem (maxSchedNum : ℤ) : System PowerState PowerAction PowerEvent where
  init s := ∃ idle, s = ⟨.initial maxSchedNum false idle, false, false, [], 0, 0⟩
  step := powerStep

/-! ## The condition -/

/-- A pending job comes up for scheduling: the hardware is idle, and fewer jobs are scheduled than
may be once the end of a job was recorded. -/
def AipuJobManager.SchedulesIn (jm : AipuJobManager) : JmAction → Prop
  | .submit _ _ => jm.schedNum < jm.maxSchedNum ∧ jm.idle.next.1 = true
  | .upperHalf _ _ =>
    jm.pendingQueue ≠ [] ∧ jm.schedNum - 1 < jm.maxSchedNum ∧ jm.idle.next.1 = true
  | _ => False

/-- Reset is asserted only while the hardware executes nothing, and no pending job comes up for
scheduling while a flag is set. -/
def Coherent (s : PowerState) : PowerAction → Prop
  | .sysfs .logicReset => s.running = 0
  | .jm a => s.isReset = true ∨ s.isSuspend = true → ¬s.js.jm.SchedulesIn a
  | _ => True

/-- Whether a job comes up for scheduling can be computed. -/
instance schedulesInDecidable (jm : AipuJobManager) (a : JmAction) :
    Decidable (jm.SchedulesIn a) := by
  rcases a <;> unfold AipuJobManager.SchedulesIn <;> infer_instance

/-- So can the condition. -/
instance coherentDecidable : DecidableRel Coherent := fun s a => by
  rcases a with _ | _ | op | _ | _
  all_goals try rcases op
  all_goals unfold Coherent
  all_goals infer_instance

/-! ## What a step of the job manager schedules -/

section Steps

variable {max : ℤ} {tr : List JmEvent} {s s' : JmState} {mem : SessionMem} {es : List JmEvent}

/-- Notes trigger no job. -/
theorem triggeredJobs_notes (h : ∀ e ∈ es, e.isNote = true) : triggeredJobs es = [] := by
  refine List.filterMap_eq_nil_iff.mpr fun e he => ?_
  have hnote := h e he
  cases e <;> simp_all [JmEvent.isNote, JmEvent.triggers]

/-- Scheduling counts the job that it triggers; it triggers none unless one is pending, the hardware
is idle and fewer are scheduled than may be. -/
theorem aipuSchedulePendingJobNoLock_triggered (mem : SessionMem) (jm : AipuJobManager) :
    (aipuSchedulePendingJobNoLock mem jm).1.schedNum =
        jm.schedNum + (triggeredJobs (aipuSchedulePendingJobNoLock mem jm).2).length ∧
      (triggeredJobs (aipuSchedulePendingJobNoLock mem jm).2 ≠ [] →
        jm.pendingQueue ≠ [] ∧ jm.schedNum < jm.maxSchedNum ∧ jm.idle.next.1 = true) := by
  unfold aipuSchedulePendingJobNoLock
  split
  · simp [triggeredJobs]
  · rename_i curr rest hpending
    by_cases hmax : jm.schedNum < jm.maxSchedNum
    · by_cases hidle : jm.idle.next.1 = true
      · have htrig : triggeredJobs (aipuJobManagerTriggerJobSched mem curr) = [curr.id] := by
          unfold aipuJobManagerTriggerJobSched
          split <;> rfl
        simp [hpending, hmax, hidle, htrig]
      · simp [hmax, hidle, triggeredJobs]
    · simp [hmax, triggeredJobs]

/-- The bottom half triggers no job. -/
theorem bottomHalfScan_triggered (queue : List AipuJob) :
    triggeredJobs (bottomHalfScan queue).2.2 = [] := by
  induction queue with
  | nil => rfl
  | cons curr rest ih =>
    unfold bottomHalfScan
    split
    · exact ih
    · split
      · rfl
      · simpa [triggeredJobs, JmEvent.triggers] using ih

/-- The steps other than a submission and an upper half leave the counter alone and trigger no
job. -/
theorem jmStep_not_triggered {a : JmAction} (hinv : JobQueueInv max tr s) (hbh : s.BhInv)
    (h : jmStep s a = some (s', es)) (ha : ∀ mem sub, a ≠ .submit mem sub)
    (ha' : ∀ mem flag, a ≠ .upperHalf mem flag) :
    s'.jm.schedNum = s.jm.schedNum ∧ triggeredJobs es = [] := by
  have hmoves := (jmStep_moves hinv hbh h).1
  cases a with
  | submit mem sub => exact absurd rfl (ha mem sub)
  | upperHalf mem flag => exact absurd rfl (ha' mem flag)
  | queueWork =>
    obtain ⟨-, rfl, rfl⟩ := jmStep_queueWork_cases h
    exact ⟨rfl, rfl⟩
  | bhStart =>
    obtain ⟨-, -, rfl, rfl⟩ := jmStep_bhStart_cases h
    exact ⟨rfl, bottomHalfScan_triggered _⟩
  | bhDone =>
    obtain ⟨curr, next, -, rfl, rfl⟩ := jmStep_bhDone_cases h
    exact ⟨rfl, rfl⟩
  | bhResume =>
    obtain ⟨curr, next, -, rfl, rfl⟩ := jmStep_bhResume_cases h
    obtain ⟨-, hnum, -⟩ := bottomHalfFrom_same (s.jm.listDel curr.id) next
    refine ⟨hnum, ?_⟩
    cases next with
    | none => rfl
    | some pos => exact bottomHalfScan_triggered _
  | kill mem tid jobId =>
    rcases jmStep_kill_cases hinv h with
      ⟨c, -, rfl, rfl⟩ | ⟨-, ⟨c, -, -, rfl, rfl⟩ | ⟨-, rfl, rfl⟩⟩ <;> exact ⟨rfl, rfl⟩
  | cancel mem session =>
    have hjm := jmStep_cancel_eq hinv h
    refine ⟨by rw [hjm], List.eq_nil_of_length_eq_zero ?_⟩
    -- as many jobs are scheduled and retired as before, so as many were triggered
    have hbefore := hinv.triggered.length_eq
    have hafter := (hinv.moves hmoves).triggered.length_eq
    have hretired : retiredJobs es = [] := by
      cases hcancel : aipuJobManagerCancelSessionJobs mem session s.jm with
      | mk jm es₁ =>
      simp only [jmStep, hcancel] at h
      obtain ⟨-, rfl⟩ := Prod.mk.inj (Option.some.inj h)
      exact List.filterMap_eq_nil_iff.mpr (aipuJobManagerCancelSessionJobs_events hcancel)
    have hqueue : s'.jm.scheduledQueue.length = s.jm.scheduledQueue.length := by
      rw [hjm]
      exact List.length_map ..
    simp only [triggeredJobs, retiredJobs, List.filterMap_append, List.length_append, jobIds,
      List.length_map] at hbefore hafter hretired ⊢
    rw [hqueue, hretired] at hafter
    simp only [List.length_nil] at hafter
    omega

/-- A submission counts the job that it triggers. -/
theorem jmStep_submit_triggered {sub : Submission}
    (h : jmStep s (.submit mem sub) = some (s', es)) :
    s'.jm.schedNum = s.jm.schedNum + (triggeredJobs es).length ∧
      (triggeredJobs es ≠ [] → s.jm.SchedulesIn (.submit mem sub)) := by
  obtain ⟨rfl, rfl⟩ := Prod.mk.inj (Option.some.inj h)
  obtain ⟨hnum, htrig⟩ := aipuSchedulePendingJobNoLock_triggered mem
    { s.jm with pendingQueue := s.jm.pendingQueue ++ [newJob s.nextJob sub] }
  exact ⟨hnum, fun hne => (htrig hne).2⟩

/-- The record of an end counts the end and the job that it triggers. -/
theorem aipuJobManagerUpdateJobStateIrq_triggered {flag : ℤ} (hinv : JobQueueInv max tr s)
    (hpos : 0 < s.jm.schedNum) :
    (aipuJobManagerUpdateJobStateIrq mem flag s.jm).1.schedNum + 1 = s.jm.schedNum +
        (triggeredJobs (aipuJobManagerUpdateJobStateIrq mem flag s.jm).2).length ∧
      (triggeredJobs (aipuJobManagerUpdateJobStateIrq mem flag s.jm).2 ≠ [] →
        s.jm.SchedulesIn (.upperHalf mem flag)) := by
  unfold aipuJobManagerUpdateJobStateIrq
  split
  · rename_i hseek
    have hnone : s.jm.schedNum = 0 := by
      rw [hinv.schedNum, List.countP_eq_zero.mpr]
      · rfl
      · simpa using seek_eq_none.mp hseek
    omega
  · rename_i c hseek
    have hne : s.jm.schedNum ≠ 0 := by omega
    obtain ⟨hnum, htrig⟩ := aipuSchedulePendingJobNoLock_triggered mem { s.jm with
      scheduledQueue :=
        c.before ++ { c.entry with state := .finished, exceptionFlag := flag } :: c.after
      schedNum := if s.jm.schedNum ≠ 0 then s.jm.schedNum - 1 else s.jm.schedNum }
    have hreads : triggeredJobs (endReads mem
        { c.entry with state := .finished, exceptionFlag := flag }) = [] :=
      triggeredJobs_notes endReads_isNote
    have hes : ∀ more, triggeredJobs (.ended c.entry.id c.entry.sessionJob flag c.entry.validFlag ::
        endReads mem { c.entry with state := .finished, exceptionFlag := flag } ++ more) =
          triggeredJobs more := by
      intro more
      simp only [triggeredJobs, List.cons_append, List.filterMap_cons, List.filterMap_append,
        JmEvent.triggers] at hreads ⊢
      rw [hreads, List.nil_append]
    simp only [if_pos hne] at hnum htrig ⊢
    rw [hes]
    refine ⟨?_, htrig⟩
    rw [hnum]
    omega

/-- An upper half with a running job counts the end and the job that it triggers. -/
theorem jmStep_upperHalf_triggered {flag : ℤ} (hinv : JobQueueInv max tr s)
    (hpos : 0 < s.jm.schedNum) (h : jmStep s (.upperHalf mem flag) = some (s', es)) :
    s'.jm.schedNum + 1 = s.jm.schedNum + (triggeredJobs es).length ∧
      (triggeredJobs es ≠ [] → s.jm.SchedulesIn (.upperHalf mem flag)) := by
  obtain ⟨rfl, rfl⟩ := Prod.mk.inj (Option.some.inj h)
  exact aipuJobManagerUpdateJobStateIrq_triggered hinv hpos

end Steps

/-! ## Runs -/

/-- What holds after every run: the queues are in order, every scheduled job is executed by the
hardware or waits for its interrupt to be handled, and jobs were triggered while both flags were
clear. -/
structure PowerInv (max : ℤ) (tr : List PowerEvent) (s : PowerState) : Prop where
  queues : JobQueueInv max (tr.map PowerEvent.event) s.js
  bh : s.js.BhInv
  counted : s.js.jm.schedNum = s.running + s.raised
  clear : ∀ e ∈ tr, e.event.triggers ≠ none → e.isReset = false ∧ e.isSuspend = false

namespace PowerInv

variable {max : ℤ} {tr : List PowerEvent} {s : PowerState}

/-- A step that leaves the job manager and the sum of the hardware's jobs alone keeps the
invariant. -/
theorem of_same {s' : PowerState} (h : PowerInv max tr s) (hjs : s'.js = s.js)
    (hsum : s'.running + s'.raised = s.running + s.raised) : PowerInv max tr s' := by
  refine ⟨hjs ▸ h.queues, hjs ▸ h.bh, ?_, h.clear⟩
  have := h.counted
  rw [hjs]
  omega

/-- The store of `clock_gating` polls the hardware at most. -/
theorem clockGatingStore (h : PowerInv max tr s) (buf : List Char) :
    PowerInv max tr (sysfsAipuClockGatingStore s buf) := by
  unfold sysfsAipuClockGatingStore
  dsimp only
  split
  · have hpoll : JobQueueInv max (tr.map PowerEvent.event ++ [])
        { s.js with jm := { s.js.jm with idle := s.js.jm.idle.next.2 } } :=
      h.queues.move (.control rfl rfl)
    rw [List.append_nil] at hpoll
    split <;> exact ⟨hpoll, h.bh, h.counted, h.clear⟩
  · split
    · exact h.of_same rfl rfl
    · exact h

/-- The store of `reset` changes nothing but what is left to do. -/
theorem resetStore (h : PowerInv max tr s) (buf : List Char) :
    PowerInv max tr (sysfsAipuResetStore s buf) := by
  unfold sysfsAipuResetStore
  dsimp only
  split_ifs
  · exact h.of_same rfl rfl
  · exact h.of_same rfl rfl
  · exact h

/-- A store that goes on forgets no job, when reset is asserted only while none is executed. -/
theorem sysfsOp (h : PowerInv max tr s) {op : SysfsOp} (hC : Coherent s (.sysfs op))
    (ops : List SysfsOp) : PowerInv max tr { (op.run s).1 with ops := ops } := by
  cases op with
  | logicReset =>
    have hidle : s.running = 0 := hC
    refine h.of_same rfl ?_
    simp [SysfsOp.run, hidle]
  | _ => exact h.of_same rfl rfl

/-- A step of the job manager that counts what it triggers, and an end for each interrupt handled,
keeps the invariant, when it triggers nothing while a flag is set. -/
theorem runJm (h : PowerInv max tr s) {a : JmAction} {js : JmState} {jes : List JmEvent}
    {raised : ℕ} (hjm : jmStep s.js a = some (js, jes))
    (hnum : js.jm.schedNum + s.raised = s.js.jm.schedNum + raised + (triggeredJobs jes).length)
    (hclear : triggeredJobs jes ≠ [] → s.isReset = false ∧ s.isSuspend = false) :
    PowerInv max (tr ++ jes.map fun e => ⟨e, s.isReset, s.isSuspend⟩)
      { s with js := js, running := s.running + (triggeredJobs jes).length, raised := raised } := by
  obtain ⟨hmoves, hbh⟩ := jmStep_moves h.queues h.bh hjm
  refine ⟨?_, hbh, ?_, ?_⟩
  · rw [List.map_append, List.map_map]
    exact (List.map_id jes).symm ▸ h.queues.moves hmoves
  · have := h.counted
    push_cast
    omega
  · refine List.forall_mem_append.mpr ⟨h.clear, fun e he htrig => ?_⟩
    obtain ⟨je, hje, rfl⟩ := List.mem_map.mp he
    refine hclear fun hnil => htrig ?_
    exact List.filterMap_eq_nil_iff.mp hnil je hje

/-- Every step that meets the condition keeps the invariant. -/
theorem step (h : PowerInv max tr s) {a : PowerAction} {s' : PowerState} {es : List PowerEvent}
    (hC : Coherent s a) (hst : powerStep s a = some (s', es)) : PowerInv max (tr ++ es) s' := by
  cases a with
  | clockGatingStore buf =>
    obtain ⟨rfl, rfl⟩ := Prod.mk.inj (Option.some.inj hst)
    rw [List.append_nil]
    exact h.clockGatingStore buf
  | resetStore buf =>
    obtain ⟨rfl, rfl⟩ := Prod.mk.inj (Option.some.inj hst)
    rw [List.append_nil]
    exact h.resetStore buf
  | sysfs op =>
    simp only [powerStep] at hst
    split at hst
    case isFalse => cases hst
    case isTrue =>
      obtain ⟨rfl, rfl⟩ := Prod.mk.inj (Option.some.inj hst)
      rw [List.append_nil]
      exact h.sysfsOp hC _
  | jobEnd =>
    simp only [powerStep] at hst
    split at hst
    · cases hst
    · obtain ⟨rfl, rfl⟩ := Prod.mk.inj (Option.some.inj hst)
      rw [List.append_nil]
      refine h.of_same rfl ?_
      dsimp only
      omega
  | jm a =>
    have hquiet : s.js.jm.SchedulesIn a → s.isReset = false ∧ s.isSuspend = false := by
      intro hsched
      simpa using fun hflag => hC hflag hsched
    cases a with
    | upperHalf mem flag =>
      simp only [powerStep] at hst
      split at hst
      case isTrue => cases hst
      case isFalse hraised =>
        obtain ⟨js, jes, hjm, rfl, rfl⟩ := PowerState.runJm_cases hst
        have hpos : 0 < s.js.jm.schedNum := by
          have := h.counted
          omega
        obtain ⟨hnum, htrig⟩ := jmStep_upperHalf_triggered h.queues hpos hjm
        refine h.runJm hjm ?_ fun hne => hquiet (htrig hne)
        dsimp only
        omega
    | submit mem sub =>
      rw [powerStep_jm (by rintro _ _ ⟨⟩)] at hst
      obtain ⟨js, jes, hjm, rfl, rfl⟩ := PowerState.runJm_cases hst
      obtain ⟨hnum, htrig⟩ := jmStep_submit_triggered hjm
      exact h.runJm hjm (by omega) fun hne => hquiet (htrig hne)
    | _ =>
      rw [powerStep_jm (by rintro _ _ ⟨⟩)] at hst
      obtain ⟨js, jes, hjm, rfl, rfl⟩ := PowerState.runJm_cases hst
      obtain ⟨hnum, htrig⟩ :=
        jmStep_not_triggered h.queues h.bh hjm (by rintro _ _ ⟨⟩) (by rintro _ _ ⟨⟩)
      exact h.runJm hjm (by simp [hnum, htrig]) fun hne => absurd htrig hne

end PowerInv

/-- **Reset and clock gating.**  In every run in which reset is asserted only while the hardware
executes nothing, and no pending job comes up for scheduling while a flag is set: jobs are triggered
while both flags are clear; the counter of scheduled jobs is the number of jobs that the hardware
executes or whose interrupt is not handled yet; and while it is not zero, the hardware can end a job
or an upper half can handle an interrupt. -/
theorem power_coherent {max : ℤ} (hmax : 0 ≤ max) {tr : List PowerEvent} {s : PowerState}
    (h : (powerSystem max).Run Coherent tr s) :
    (∀ job isReset isSuspend, ⟨.triggered job, isReset, isSuspend⟩ ∈ tr →
      isReset = false ∧ isSuspend = false) ∧
    s.js.jm.schedNum = s.running + s.raised ∧
    (s.js.jm.schedNum ≠ 0 → (powerSystem max).step s .jobEnd ≠ none ∨
      ∀ mem flag, (powerSystem max).step s (.jm (.upperHalf mem flag)) ≠ none) := by
  have hinv : PowerInv max tr s := by
    refine h.invariant (I := PowerInv max) ?_ fun _ _ _ _ _ hI hC hst => hI.step hC hst
    rintro s ⟨idle, rfl⟩
    refine ⟨.init hmax idle, ?_, rfl, by simp⟩
    rintro curr ⟨⟩
  refine ⟨fun job isReset isSuspend he => hinv.clear _ he (by simp [JmEvent.triggers]),
    hinv.counted, fun hne => ?_⟩
  have hcounted := hinv.counted
  by_cases hrunning : s.running = 0
  · right
    intro mem flag
    have hraised : s.raised ≠ 0 := by omega
    simp [powerSystem, powerStep, hraised, PowerState.runJm, jmStep]
  · left
    simp [powerSystem, powerStep, hrunning]

/-- Two jobs run one after the other, then the hardware is reset and released, and a third job
runs. -/
theorem power_coherent_sample : ∃ tr s, (powerSystem 1).Run Coherent tr s ∧
    triggeredJobs (tr.map PowerEvent.event) = [0, 1, 2] ∧
      s.js.jm.schedNum = s.running + s.raised := by
  obtain ⟨tr, s, hexec, htrig⟩ : ∃ tr s, (powerSystem 1).exec Coherent
      ⟨.initial 1 false [], false, false, [], 0, 0⟩
      [.jm (.submit sampleMem ⟨7, { jobId := 1 }, 0, 0⟩),
        .jm (.submit sampleMem ⟨7, { jobId := 2 }, 0, 1⟩),
        .jobEnd, .jm (.upperHalf sampleMem 0), .jobEnd, .jm (.upperHalf sampleMem 0),
        .resetStore ['0'], .sysfs .logicReset, .sysfs (.setReset true),
        .resetStore ['1'], .sysfs .logicRelease, .sysfs (.setReset false),
        .jm (.submit sampleMem ⟨7, { jobId := 3 }, 0, 2⟩)] = some (s, tr) ∧
      triggeredJobs (tr.map PowerEvent.event) = [0, 1, 2] := ⟨_, _, rfl, rfl⟩
  have hrun : (powerSystem 1).Run Coherent tr s := System.run_of_exec ⟨[], rfl⟩ hexec
  exact ⟨tr, s, hrun, htrig, (power_coherent (by decide) hrun).2.1⟩

/-- A reset while a job runs: the counter stays at one although the hardware executes nothing, and a
job submitted after the release waits for ever.  A job submitted while the clock is gated is
triggered. -/
theorem power_incoherent :
    (∃ tr s, (powerSystem 1).Run anyStep tr s ∧ s.isReset = false ∧ s.js.jm.pendingQueue ≠ [] ∧
      s.js.jm.schedNum = 1 ∧ s.running = 0 ∧ s.raised = 0) ∧
    ∃ tr s, (powerSystem 1).Run anyStep tr s ∧ ⟨.triggered 0, false, true⟩ ∈ tr := by
  refine ⟨?_, ?_⟩
  · have hexec : ∃ s tr, (powerSystem 1).exec anyStep ⟨.initial 1 false [], false, false, [], 0, 0⟩
        [.jm (.submit sampleMem ⟨7, { jobId := 1 }, 0, 0⟩),
          .resetStore ['0'], .sysfs .logicReset, .sysfs (.setReset true),
          .resetStore ['1'], .sysfs .logicRelease, .sysfs (.setReset false),
          .jm (.submit sampleMem ⟨7, { jobId := 2 }, 0, 1⟩)] = some (s, tr) ∧
        s.isReset = false ∧ s.js.jm.pendingQueue ≠ [] ∧ s.js.jm.schedNum = 1 ∧ s.running = 0 ∧
        s.raised = 0 := ⟨_, _, rfl, rfl, by decide, rfl, rfl, rfl⟩
    obtain ⟨s, tr, hexec, hstuck⟩ := hexec
    exact ⟨tr, s, System.run_of_exec ⟨[], rfl⟩ hexec, hstuck⟩
  · have hexec : ∃ s tr, (powerSystem 1).exec anyStep ⟨.initial 1 false [], false, false, [], 0, 0⟩
        [.clockGatingStore ['1'], .sysfs .enableClkGating, .sysfs (.setSuspend true),
          .jm (.submit sampleMem ⟨7, { jobId := 1 }, 0, 0⟩)] = some (s, tr) ∧
        ⟨.triggered 0, false, true⟩ ∈ tr := ⟨_, _, rfl, by decide⟩
    obtain ⟨s, tr, hexec, htrig⟩ := hexec
    exact ⟨tr, s, System.run_of_exec ⟨[], rfl⟩ hexec, htrig⟩

end Aipu
