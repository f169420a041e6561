import AipuDriver.Kmd.BottomHalf
import AipuDriver.Kmd.Power

/-!
# One run of the upper half (`zhouyi_v1_upper_half`, `zhouyi_v2_upper_half`)

The upper half reads the status register once and calls `aipu_job_manager_update_job_state_irq` for
the DONE bit and again for the EXCEP bit.  A call records the end of the first job that is SCHED,
and then schedules the next pending job.  So the second call may find a job that the first one has
just started: when both bits are set while fewer than two jobs are SCHED, the exception is charged
to a job that was not running when the register was read, and that job is recorded as ended while
the hardware works on it.

`upper_half_attribution` says that this is the only way for a run of the upper half to end a job
that it should not end, from every state of the job manager.
-/

namespace Aipu

open ListSearch Transition

/-! ## The handlers -/

/-- `ZHOUYI_IRQ_QEMPTY` -/
def zhouyiIrqQempty : ℕ := 0x1

/-- `ZHOUYI_IRQ_DONE` -/
def zhouyiIrqDone : ℕ := 0x2

/-- `ZHOUYI_IRQ_EXCEP` -/
def zhouyiIrqExcep : ℕ := 0x4

/-- `ZHOUYI_IRQ_FAULT` -/
def zhouyiIrqFault : ℕ := 0x8

/-- What an upper half does. -/
inductive IrqOp
  | disableInterrupt
  | clearQemptyInterrupt
  | clearDoneInterrupt
  | clearExcepInterrupt
  | clearFaultInterrupt
  | enableInterrupt
  /-- `aipu_job_manager_update_job_state_irq` -/
  | updateJobStateIrq (exceptionFlag : ℤ)
  /-- `aipu_irq_schedulework` -/
  | schedulework
deriving DecidableEq, Repr

/-- The bit is set in the value read from the status register. -/
def IrqSet (status bit : ℕ) : Prop := status &&& bit ≠ 0

instance irqSetDecidable (status bit : ℕ) : Decidable (IrqSet status bit) :=
  inferInstanceAs (Decidable (status &&& bit ≠ 0))

/-- The common text of the two upper halves, on a core that exists: the flag of an exception and
whether the FAULT bit is looked at. -/
def zhouyiUpperHalf (exceptionFlag : ℤ) (fault : Bool) (status : ℕ) : List IrqOp :=
  [.disableInterrupt] ++
    (if IrqSet status zhouyiIrqQempty then [.clearQemptyInterrupt] else []) ++
    (if IrqSet status zhouyiIrqDone then
      [.clearDoneInterrupt, .updateJobStateIrq 0, .schedulework] else []) ++
    (if IrqSet status zhouyiIrqExcep then
      [.clearExcepInterrupt, .updateJobStateIrq exceptionFlag, .schedulework] else []) ++
    (if fault ∧ IrqSet status zhouyiIrqFault then [.clearFaultInterrupt] else []) ++
    [.enableInterrupt]

/-- `zhouyi_v1_upper_half`; the flag of an exception is the value of the register
`ZHOUYI_INTR_CAUSE_REG_OFFSET`. -/
def zhouyiV1UpperHalf (intrCause : ℤ) (status : ℕ) : List IrqOp :=
  zhouyiUpperHalf intrCause false status

/-- `zhouyi_v2_upper_half` -/
def zhouyiV2UpperHalf (status : ℕ) : List IrqOp := zhouyiUpperHalf 1 true status

/-- The core; a core of the first version has a register with the cause of an exception. -/
inductive ZhouyiCore
  | v1 (intrCause : ℤ)
  | v2
deriving DecidableEq, Repr

/-- The `upper_half` of the core's operations. -/
def ZhouyiCore.upperHalf : ZhouyiCore → ℕ → List IrqOp
  | .v1 intrCause => zhouyiV1UpperHalf intrCause
  | .v2 => zhouyiV2UpperHalf

/-- The step of the job manager that an operation is. -/
def IrqOp.action (mem : SessionMem) : IrqOp → Option JmAction
  | .updateJobStateIrq flag => some (.upperHalf mem flag)
  | .schedulework => some .queueWork
  | _ => none

/-- What one run of the upper half does to the job manager, for a value of the status register. -/
def ZhouyiCore.upperHalfActions (core : ZhouyiCore) (mem : SessionMem) (status : ℕ) :
    List JmAction :=
  (core.upperHalf status).filterMap (IrqOp.action mem)

/-! ## What a run should do -/

/-- The jobs in the state SCHED, oldest first. -/
def AipuJobManager.schedJobs (jm : AipuJobManager) : List ℕ :=
  jobIds (jm.scheduledQueue.filter fun job => job.state = .sched)

/-- The bits of the status register that report the end of a job. -/
def irqEndBits (status : ℕ) : ℕ :=
  (if IrqSet status zhouyiIrqDone then 1 else 0) + if IrqSet status zhouyiIrqExcep then 1 else 0

/-- Interrupts are attributed to jobs that were running: a run of the upper half from `jm` to `jm'`
ends the oldest jobs that were SCHED when it started, at most one for each bit, and a job that it
triggers is SCHED when it returns. -/
structure AttributesEnds (status : ℕ) (jm jm' : AipuJobManager) (es : List JmEvent) : Prop where
  wasSched : ∀ i ∈ endedJobs es, i ∈ jm.schedJobs
  onePerBit : (endedJobs es).length ≤ irqEndBits status
  oldest : endedJobs es <+: jm.schedJobs
  stillSched : ∀ i ∈ triggeredJobs es, i ∈ jm'.schedJobs

/-- Recording an end triggers the first pending job: there is one, the hardware is idle, and fewer
jobs are scheduled than may be once the end is counted. -/
def AipuJobManager.TriggersNext (jm : AipuJobManager) : Prop :=
  jm.pendingQueue ≠ [] ∧
    (if jm.schedJobs = [] ∨ jm.schedNum = 0 then jm.schedNum else jm.schedNum - 1) <
      jm.maxSchedNum ∧
    jm.idle.next.1 = true

instance triggersNextDecidable (jm : AipuJobManager) : Decidable jm.TriggersNext := by
  unfold AipuJobManager.TriggersNext
  infer_instance

/-! ## One call -/

section Calls

variable (mem : SessionMem) (flag : ℤ) (jm : AipuJobManager)

/-- Notes end no job. -/
theorem endedJobs_notes {es : List JmEvent} (h : ∀ e ∈ es, e.isNote = true) :
    endedJobs es = [] := by
  refine List.filterMap_eq_nil_iff.mpr fun e he => ?_
  have hnote := h e he
  cases e <;> simp_all [JmEvent.isNote, JmEvent.ends]

/-- Scheduling ends no job, and what it triggers becomes the last of the SCHED jobs; it triggers a
job if one is pending, the hardware is idle and fewer are scheduled than may be. -/
theorem aipuSchedulePendingJobNoLock_schedJobs :
    endedJobs (aipuSchedulePendingJobNoLock mem jm).2 = [] ∧
      (aipuSchedulePendingJobNoLock mem jm).1.schedJobs =
        jm.schedJobs ++ triggeredJobs (aipuSchedulePendingJobNoLock mem jm).2 ∧
      (triggeredJobs (aipuSchedulePendingJobNoLock mem jm).2 ≠ [] ↔
        jm.pendingQueue ≠ [] ∧ jm.schedNum < jm.maxSchedNum ∧ jm.idle.next.1 = true) := by
  unfold aipuSchedulePendingJobNoLock
  split
  · rename_i hpending
    simp [hpending, endedJobs, triggeredJobs]
  · rename_i curr rest hpending
    by_cases hmax : jm.schedNum < jm.maxSchedNum
    · by_cases hidle : jm.idle.next.1 = true
      · have hevents : endedJobs (aipuJobManagerTriggerJobSched mem curr) = [] ∧
            triggeredJobs (aipuJobManagerTriggerJobSched mem curr) = [curr.id] := by
          unfold aipuJobManagerTriggerJobSched
          split <;> exact ⟨rfl, rfl⟩
        simp [hpending, hmax, hidle, hevents, AipuJobManager.schedJobs]
      · simp [hmax, hidle, endedJobs, triggeredJobs, AipuJobManager.schedJobs]
    · simp [hmax, endedJobs, triggeredJobs]

/-- A call ends the oldest SCHED job, if there is one; what it triggers becomes the last of them. -/
theorem aipuJobManagerUpdateJobStateIrq_schedJobs :
    endedJobs (aipuJobManagerUpdateJobStateIrq mem flag jm).2 = jm.schedJobs.take 1 ∧
      (aipuJobManagerUpdateJobStateIrq mem flag jm).1.schedJobs =
        jm.schedJobs.drop 1 ++ triggeredJobs (aipuJobManagerUpdateJobStateIrq mem flag jm).2 ∧
      (triggeredJobs (aipuJobManagerUpdateJobStateIrq mem flag jm).2 ≠ [] ↔ jm.TriggersNext) := by
  unfold aipuJobManagerUpdateJobStateIrq
  split
  · rename_i hseek
    have hnone : jm.schedJobs = [] := by
      unfold AipuJobManager.schedJobs
      rw [List.filter_eq_nil_iff.mpr (by simpa using seek_eq_none.mp hseek), jobIds_nil]
    obtain ⟨hended, hsched, htrig⟩ := aipuSchedulePendingJobNoLock_schedJobs mem jm
    refine ⟨by rw [hended, hnone]; rfl, by rw [hsched, hnone]; rfl, ?_⟩
    rw [htrig, AipuJobManager.TriggersNext, if_pos (.inl hnone)]
  · rename_i c hseek
    obtain ⟨hqueue, hstate, hbefore⟩ := seek_eq_some hseek
    have hstate : c.entry.state = .sched := by simpa using hstate
    have hnone : c.before.filter (fun job => job.state = .sched) = [] :=
      List.filter_eq_nil_iff.mpr fun job hjob => by simpa using hbefore job hjob
    have hjobs : jm.schedJobs =
        c.entry.id :: jobIds (c.after.filter fun job => job.state = .sched) := by
      rw [AipuJobManager.schedJobs, hqueue, Cursor.toList, List.filter_append, hnone,
        List.nil_append, List.filter_cons_of_pos (by simpa using hstate), jobIds_cons]
    obtain ⟨hended, hsched, htrig⟩ := aipuSchedulePendingJobNoLock_schedJobs mem { jm with
      scheduledQueue :=
        c.before ++ { c.entry with state := .finished, exceptionFlag := flag } :: c.after
      schedNum := if jm.schedNum ≠ 0 then jm.schedNum - 1 else jm.schedNum }
    have hreads : ∀ e ∈ endReads mem { c.entry with state := .finished, exceptionFlag := flag },
        e.isNote = true := endReads_isNote
    dsimp only at hended hsched htrig ⊢
    rw [endedJobs_append, triggeredJobs_append, hended]
    have hcons : ∀ i j f v, endedJobs (.ended i j f v :: endReads mem
        { c.entry with state := .finished, exceptionFlag := flag }) = [i] ∧
        triggeredJobs (.ended i j f v :: endReads mem
          { c.entry with state := .finished, exceptionFlag := flag }) = [] := by
      intro i j f v
      have hended := endedJobs_notes hreads
      have htrig := triggeredJobs_notes hreads
      simp only [endedJobs, triggeredJobs, List.filterMap_cons, JmEvent.ends, JmEvent.triggers]
        at hended htrig ⊢
      rw [hended, htrig]
      exact ⟨rfl, rfl⟩
    rw [(hcons _ _ _ _).1, (hcons _ _ _ _).2, hjobs]
    refine ⟨rfl, ?_, ?_⟩
    · rw [hsched]
      simp [AipuJobManager.schedJobs, hnone]
    · rw [List.nil_append, htrig, AipuJobManager.TriggersNext, hjobs]
      simp only [reduceCtorEq, false_or, ne_eq, ite_not]

end Calls

/-! ## A run -/

section Attribution

variable (mem : SessionMem) (flag : ℤ) (status : ℕ) (jm : AipuJobManager)

/-- Without a call nothing ends. -/
theorem attributesEnds_nil : AttributesEnds status jm jm [] := by
  constructor <;> simp [endedJobs, triggeredJobs]

/-- A single call ends a job that was running, and what it triggers runs on. -/
theorem attributesEnds_one (hbits : 1 ≤ irqEndBits status) :
    AttributesEnds status jm (aipuJobManagerUpdateJobStateIrq mem flag jm).1
      (aipuJobManagerUpdateJobStateIrq mem flag jm).2 := by
  obtain ⟨hended, hsched, -⟩ := aipuJobManagerUpdateJobStateIrq_schedJobs mem flag jm
  refine ⟨?_, ?_, ?_, ?_⟩
  · rw [hended]
    exact fun i hi => List.mem_of_mem_take hi
  · rw [hended]
    exact Nat.le_trans (List.length_take_le ..) hbits
  · rw [hended]
    exact List.take_prefix ..
  · rw [hsched]
    exact fun i hi => List.mem_append_right _ hi

/-- Two calls end the two oldest of the jobs that were SCHED and the one that the first call has
triggered. -/
theorem attributesEnds_two (hdone : IrqSet status zhouyiIrqDone)
    (hexcep : IrqSet status zhouyiIrqExcep) :
    AttributesEnds status jm
        (aipuJobManagerUpdateJobStateIrq mem flag (aipuJobManagerUpdateJobStateIrq mem 0 jm).1).1
        ((aipuJobManagerUpdateJobStateIrq mem 0 jm).2 ++
          (aipuJobManagerUpdateJobStateIrq mem flag
            (aipuJobManagerUpdateJobStateIrq mem 0 jm).1).2) ↔
      ¬(jm.schedJobs.length < 2 ∧ jm.TriggersNext) := by
  obtain ⟨hended₁, hsched₁, htrig⟩ := aipuJobManagerUpdateJobStateIrq_schedJobs mem 0 jm
  obtain ⟨hended₂, hsched₂, -⟩ := aipuJobManagerUpdateJobStateIrq_schedJobs mem flag
    (aipuJobManagerUpdateJobStateIrq mem 0 jm).1
  rw [← htrig]
  generalize aipuJobManagerUpdateJobStateIrq mem 0 jm = r₁ at *
  generalize aipuJobManagerUpdateJobStateIrq mem flag r₁.1 = r₂ at *
  rw [hsched₁] at hended₂ hsched₂
  have hended : endedJobs (r₁.2 ++ r₂.2) =
      jm.schedJobs.take 1 ++ (jm.schedJobs.drop 1 ++ triggeredJobs r₁.2).take 1 := by
    rw [endedJobs_append, hended₁, hended₂]
  constructor
  · -- the second call ends what the first one has triggered, beyond the jobs that were SCHED
    rintro hattr ⟨hfew, hne⟩
    have hle := hattr.oldest.length_le
    have hpos := List.length_pos_iff.mpr hne
    rw [hended] at hle
    simp only [List.length_append, List.length_take, List.length_drop] at hle
    omega
  · intro hcond
    have hended' : endedJobs (r₁.2 ++ r₂.2) = jm.schedJobs.take 2 ∧
        ∀ i ∈ triggeredJobs r₁.2, i ∈ r₂.1.schedJobs := by
      rw [hended, hsched₂]
      by_cases hne : triggeredJobs r₁.2 = []
      · rw [hne, List.append_nil]
        refine ⟨?_, by simp⟩
        rcases jm.schedJobs with _ | ⟨i, _ | ⟨j, l⟩⟩ <;> rfl
      · have hmany : ¬jm.schedJobs.length < 2 := fun hfew => hcond ⟨hfew, hne⟩
        rcases hjobs : jm.schedJobs with _ | ⟨i, _ | ⟨j, l⟩⟩
        · simp [hjobs] at hmany
        · simp [hjobs] at hmany
        · refine ⟨rfl, fun k hk => ?_⟩
          exact List.mem_append_left _ (List.mem_append_right _ hk)
    refine ⟨?_, ?_, ?_, ?_⟩
    · rw [hended'.1]
      exact fun i hi => List.mem_of_mem_take hi
    · rw [hended'.1]
      refine Nat.le_trans (List.length_take_le ..) ?_
      simp [irqEndBits, hdone, hexcep]
    · rw [hended'.1]
      exact List.take_prefix ..
    · intro i hi
      rw [triggeredJobs_append] at hi
      rcases List.mem_append.mp hi with hi | hi
      · exact hended'.2 i hi
      · rw [hsched₂]
        exact List.mem_append_right _ hi

end Attribution

section Runs

variable {max : ℤ} {reset : Bool} {mem : SessionMem} {flag : ℤ}

/-- The state after a call and the work that is queued after it. -/
def JmState.afterUpdate (s : JmState) (mem : SessionMem) (flag : ℤ) : JmState :=
  { s with jm := (aipuJobManagerUpdateJobStateIrq mem flag s.jm).1, workPending := true }

/-- A call and the work queued after it come before the rest of a run. -/
theorem exec_update {s s' : JmState} {as : List JmAction} {es : List JmEvent}
    (h : (jmSystem max reset).exec anyStep (s.afterUpdate mem flag) as = some (s', es)) :
    (jmSystem max reset).exec anyStep s (.upperHalf mem flag :: .queueWork :: as) =
      some (s', (aipuJobManagerUpdateJobStateIrq mem flag s.jm).2 ++ es) := by
  have hwork : jmStep { s with
      jm := (aipuJobManagerUpdateJobStateIrq mem flag s.jm).1
      handlers := s.handlers + 1 } .queueWork = some (s.afterUpdate mem flag, []) := by
    rw [jmStep, if_neg (Nat.succ_ne_zero s.handlers)]
    rfl
  refine System.exec_cons trivial rfl ?_
  rw [← List.nil_append es]
  exact System.exec_cons trivial hwork h

/-- The steps of a run are those of its calls. -/
theorem upperHalfActions_eq (core : ZhouyiCore) (mem : SessionMem) (status : ℕ) :
    ∃ flag, core.upperHalfActions mem status =
      (if IrqSet status zhouyiIrqDone then [.upperHalf mem 0, .queueWork] else []) ++
        if IrqSet status zhouyiIrqExcep then [.upperHalf mem flag, .queueWork] else [] := by
  have hops : ∀ flag fault, (zhouyiUpperHalf flag fault status).filterMap (IrqOp.action mem) =
      (if IrqSet status zhouyiIrqDone then [.upperHalf mem 0, .queueWork] else []) ++
        if IrqSet status zhouyiIrqExcep then [.upperHalf mem flag, .queueWork] else [] := by
    intro flag fault
    unfold zhouyiUpperHalf
    split_ifs <;> rfl
  cases core with
  | v1 intrCause => exact ⟨intrCause, hops intrCause false⟩
  | v2 => exact ⟨1, hops 1 true⟩

/-- **The attribution of interrupts.**  For every value of the status register, either version of
the hardware and any state of the job manager: one run of the upper half ends the oldest jobs that
were SCHED when it started, at most one for each bit, and leaves the jobs that it triggers SCHED,
exactly if it is not the case that DONE and EXCEP are both set, fewer than two jobs are SCHED, and
the first call finds a job to trigger. -/
theorem upper_half_attribution (max : ℤ) (reset : Bool) (mem : SessionMem) (core : ZhouyiCore)
    (status : ℕ) (s : JmState) :
    ∃ s' es, (jmSystem max reset).exec anyStep s (core.upperHalfActions mem status) =
      some (s', es) ∧
      (AttributesEnds status s.jm s'.jm es ↔
        ¬(IrqSet status zhouyiIrqDone ∧ IrqSet status zhouyiIrqExcep ∧
          s.jm.schedJobs.length < 2 ∧ s.jm.TriggersNext)) := by
  obtain ⟨flag, hactions⟩ := upperHalfActions_eq core mem status
  rw [hactions]
  by_cases hdone : IrqSet status zhouyiIrqDone
  · rw [if_pos hdone]
    by_cases hexcep : IrqSet status zhouyiIrqExcep
    · rw [if_pos hexcep]
      refine ⟨_, _, exec_update (exec_update rfl), ?_⟩
      rw [List.append_nil]
      refine (attributesEnds_two mem flag status s.jm hdone hexcep).trans ?_
      simp only [hdone, hexcep, true_and]
    · rw [if_neg hexcep]
      refine ⟨_, _, exec_update rfl, iff_of_true ?_ fun h => hexcep h.2.1⟩
      rw [List.append_nil]
      exact attributesEnds_one mem 0 status s.jm (by simp [irqEndBits, hdone])
  · rw [if_neg hdone]
    by_cases hexcep : IrqSet status zhouyiIrqExcep
    · rw [if_pos hexcep]
      refine ⟨_, _, exec_update rfl, iff_of_true ?_ fun h => hdone h.1⟩
      rw [List.append_nil]
      exact attributesEnds_one mem flag status s.jm (by simp [irqEndBits, hexcep])
    · rw [if_neg hexcep]
      exact ⟨_, _, rfl, iff_of_true (attributesEnds_nil status s.jm) fun h => hdone h.1⟩

end Runs

/-- One job runs and another one is pending when DONE and EXCEP are read together: the first call
ends the running job and triggers the other one, which the second call ends at once, with an
exception. -/
theorem upper_half_misattribution : ∃ tr s s' es,
    (jmSystem 1 false).Run anyStep tr s ∧
    (jmSystem 1 false).exec anyStep s
      (ZhouyiCore.v2.upperHalfActions sampleMem (zhouyiIrqDone ||| zhouyiIrqExcep)) =
        some (s', es) ∧
    s.jm.schedJobs = [0] ∧ endedJobs es = [0, 1] ∧ triggeredJobs es = [1] ∧ s'.jm.schedJobs = [] ∧
    ¬AttributesEnds (zhouyiIrqDone ||| zhouyiIrqExcep) s.jm s'.jm es := by
  obtain ⟨s, tr, hexec, hsched, s', es, hirq, hended, htrig, hsched'⟩ : ∃ s tr,
      (jmSystem 1 false).exec anyStep (.initial 1 false [])
        [.submit sampleMem ⟨7, { jobId := 1 }, 0, 0⟩,
          .submit sampleMem ⟨7, { jobId := 2 }, 0, 1⟩] = some (s, tr) ∧
      s.jm.schedJobs = [0] ∧ ∃ s' es, (jmSystem 1 false).exec anyStep s
        (ZhouyiCore.v2.upperHalfActions sampleMem (zhouyiIrqDone ||| zhouyiIrqExcep)) =
          some (s', es) ∧
      endedJobs es = [0, 1] ∧ triggeredJobs es = [1] ∧ s'.jm.schedJobs = [] :=
    ⟨_, _, rfl, rfl, _, _, rfl, rfl, rfl, rfl⟩
  refine ⟨tr, s, s', es, System.run_of_exec ⟨[], rfl⟩ hexec, hirq, hsched, hended, htrig, hsched',
    fun hattr => ?_⟩
  have hmem := hattr.wasSched 1 (by simp [hended])
  simp [hsched] at hmem

end Aipu
