import AipuDriver.Lib.Progress
import AipuDriver.Kmd.Busy
import AipuDriver.Kmd.JobServer
import AipuDriver.Kmd.ListAgreement
import AipuDriver.Kmd.StatusQueries

/-!
# The driver drains

Once user space submits nothing more, what is left to do are the interrupts of the running jobs, the
queueing of the bottom half, and its steps.  Each of these steps decreases `JmState.work`, so they
come to an end in whatever order they are made, and they end only when both queues are empty and no
handler is left.  Every job submitted was then removed or retired, and the session jobs of the open
sessions have all ended, so that a batch query reports each of them.
-/

namespace Aipu

open ListSearch Transition

/-! ## What is left to do -/

/-- How many steps the bottom half makes before it goes on to the next job or comes to rest. -/
def BottomHalf.work : BottomHalf → ℕ
  | .rest => 0
  | .calling _ _ => 2
  | .returned _ _ => 1

/-- The work left: each job that has not ended brings an interrupt, a handler that queues the work,
and a visit of the bottom half. -/
def JmState.work (s : JmState) : ℕ :=
  8 * (s.jm.pendingQueue.length + s.jm.schedJobs.length) +
    3 * (finishedIds s.jm.scheduledQueue).length + 4 * s.handlers +
    (if s.workPending then 3 else 0) + s.bh.work

/-- The hardware works off a job, or the driver handles that. -/
def JmAction.Services (s : JmState) : JmAction → Prop
  | .upperHalf _ _ => s.jm.schedJobs ≠ []
  | .queueWork | .bhStart | .bhDone | .bhResume => True
  | _ => False

section Work

variable {max : ℤ} {tr : List JmEvent} {s s' : JmState} {a : JmAction} {es : List JmEvent}

/-- Scheduling does not change how many jobs have not ended, nor which have. -/
theorem aipuSchedulePendingJobNoLock_work (mem : SessionMem) (jm : AipuJobManager) :
    (aipuSchedulePendingJobNoLock mem jm).1.pendingQueue.length +
        (aipuSchedulePendingJobNoLock mem jm).1.schedJobs.length =
      jm.pendingQueue.length + jm.schedJobs.length ∧
    finishedIds (aipuSchedulePendingJobNoLock mem jm).1.scheduledQueue =
      finishedIds jm.scheduledQueue := by
  unfold aipuSchedulePendingJobNoLock
  split
  · exact ⟨rfl, rfl⟩
  · rename_i curr rest hpending
    dsimp only
    split_ifs
    · constructor
      · simp only [AipuJobManager.schedJobs, hpending, List.length_cons]
        simp [jobIds]
        omega
      · simp [finishedIds]
    · exact ⟨rfl, rfl⟩
    · exact ⟨rfl, rfl⟩

/-- The scan of the bottom half takes only jobs away that have ended. -/
theorem bottomHalfScan_work (queue : List AipuJob) :
    ((bottomHalfScan queue).1.filter fun j => j.state = .sched) =
        (queue.filter fun j => j.state = .sched) ∧
      (finishedIds (bottomHalfScan queue).1).length ≤ (finishedIds queue).length ∧
      (bottomHalfScan queue).2.1.work ≤ 2 := by
  induction queue with
  | nil => simp [bottomHalfScan, BottomHalf.work]
  | cons curr rest ih =>
    obtain ⟨hsched, hfinished, hwork⟩ := ih
    unfold bottomHalfScan
    split
    · rename_i hstate
      refine ⟨?_, ?_, hwork⟩
      · simp only [List.filter_cons, hsched]
      · simpa [hstate] using hfinished
    · rename_i hstate
      have hended : curr.state = .finished := by simpa using hstate
      split
      · exact ⟨rfl, Nat.le_refl _, Nat.le_refl _⟩
      · refine ⟨by simpa [hended] using hsched, ?_, hwork⟩
        apply Nat.le_trans hfinished
        rw [finishedIds_cons, if_pos hended, List.length_cons]
        omega

/-- Where the bottom half takes the lock again, the same holds of the whole queue. -/
theorem bottomHalfFrom_work (jm : AipuJobManager) (next : Option ℕ) :
    (bottomHalfFrom jm next).1.pendingQueue = jm.pendingQueue ∧
      (bottomHalfFrom jm next).1.schedJobs = jm.schedJobs ∧
      (finishedIds (bottomHalfFrom jm next).1.scheduledQueue).length ≤
        (finishedIds jm.scheduledQueue).length ∧
      (bottomHalfFrom jm next).2.1.work ≤ 2 := by
  cases next with
  | none => exact ⟨rfl, rfl, Nat.le_refl _, Nat.zero_le _⟩
  | some pos =>
    obtain ⟨hsched, hfinished, hwork⟩ :=
      bottomHalfScan_work (jm.scheduledQueue.dropWhile (·.id ≠ pos))
    have hcut := List.takeWhile_append_dropWhile (p := (·.id ≠ pos)) (l := jm.scheduledQueue)
    refine ⟨rfl, ?_, ?_, hwork⟩
    · rw [AipuJobManager.schedJobs, AipuJobManager.schedJobs]
      conv_rhs => rw [← hcut]
      rw [bottomHalfFrom, List.filter_append, hsched, ← List.filter_append]
    · conv_rhs => rw [← hcut]
      rw [bottomHalfFrom, finishedIds_append, finishedIds_append, List.length_append,
        List.length_append]
      omega

/-- The record of an end leaves one job less that has not ended. -/
theorem aipuJobManagerUpdateJobStateIrq_work {mem : SessionMem} {flag : ℤ} {jm : AipuJobManager}
    (hsched : jm.schedJobs ≠ []) :
    (aipuJobManagerUpdateJobStateIrq mem flag jm).1.pendingQueue.length +
        (aipuJobManagerUpdateJobStateIrq mem flag jm).1.schedJobs.length + 1 =
      jm.pendingQueue.length + jm.schedJobs.length ∧
    (finishedIds (aipuJobManagerUpdateJobStateIrq mem flag jm).1.scheduledQueue).length =
      (finishedIds jm.scheduledQueue).length + 1 := by
  unfold aipuJobManagerUpdateJobStateIrq
  split
  · rename_i hseek
    have hnone : jm.schedJobs = [] := by
      rw [AipuJobManager.schedJobs,
        List.filter_eq_nil_iff.mpr (by simpa using seek_eq_none.mp hseek), jobIds_nil]
    exact absurd hnone hsched
  · rename_i c hseek
    obtain ⟨hqueue, hstate, -⟩ := seek_eq_some hseek
    have hstate : c.entry.state = .sched := by simpa using hstate
    obtain ⟨hopen, hfinished⟩ := aipuSchedulePendingJobNoLock_work mem { jm with
      scheduledQueue :=
        c.before ++ { c.entry with state := .finished, exceptionFlag := flag } :: c.after
      schedNum := if jm.schedNum ≠ 0 then jm.schedNum - 1 else jm.schedNum }
    dsimp only at hopen hfinished ⊢
    rw [hopen, hfinished, schedJobs_at hqueue hstate, hqueue]
    constructor
    · simp [AipuJobManager.schedJobs, jobIds]
      omega
    · simp [Cursor.toList, hstate]
      omega

/-- **Each of these steps leaves less to do.** -/
theorem jmStep_work (hinv : JobQueueInv max tr s) (hbh : s.BhInv) (ha : a.Services s)
    (h : jmStep s a = some (s', es)) : s'.work < s.work := by
  cases a with
  | submit | kill | cancel => exact ha.elim
  | upperHalf mem flag =>
    obtain ⟨rfl, -⟩ := Prod.mk.inj (Option.some.inj h)
    have hjm := @aipuJobManagerUpdateJobStateIrq_work mem flag s.jm ha
    change JmState.work { s with
      jm := (aipuJobManagerUpdateJobStateIrq mem flag s.jm).1, handlers := s.handlers + 1 } < s.work
    simp only [JmState.work]
    omega
  | queueWork =>
    obtain ⟨hhandlers, rfl, -⟩ := jmStep_queueWork_cases h
    simp only [JmState.work, if_true]
    omega
  | bhStart =>
    obtain ⟨hrest, hpending, rfl, -⟩ := jmStep_bhStart_cases h
    obtain ⟨hsched, hfinished, hwork⟩ := bottomHalfScan_work s.jm.scheduledQueue
    simp only [JmState.work, AipuJobManager.schedJobs, hsched, hpending, if_true]
    simp only [Bool.false_eq_true, if_false]
    omega
  | bhDone =>
    obtain ⟨curr, next, hcalling, rfl, -⟩ := jmStep_bhDone_cases h
    simp only [JmState.work, hcalling, BottomHalf.work]
    omega
  | bhResume =>
    obtain ⟨curr, next, hreturned, rfl, -⟩ := jmStep_bhResume_cases h
    obtain ⟨hmem, hstate, -⟩ := hbh curr (by rw [hreturned]; rfl)
    obtain ⟨hpending, hsched, hfinished, hwork⟩ := bottomHalfFrom_work (s.jm.listDel curr.id) next
    -- the job that is taken off the queue has ended
    obtain ⟨before, after, hqueue⟩ := List.append_of_mem hmem
    have hdel := hinv.nodup.listDel_sched_at hqueue
    have hopen : (s.jm.listDel curr.id).schedJobs = s.jm.schedJobs := by
      simp [AipuJobManager.schedJobs, hdel, hqueue, hstate]
    have hended : (finishedIds (s.jm.listDel curr.id).scheduledQueue).length + 1 =
        (finishedIds s.jm.scheduledQueue).length := by
      rw [hdel, hqueue]
      simp [hstate]
      omega
    have hwait : (s.jm.listDel curr.id).pendingQueue = s.jm.pendingQueue := by rw [hdel]
    have hone : s.bh.work = 1 := by rw [hreturned, BottomHalf.work]
    simp only [JmState.work, hpending, hsched, hopen, hwait]
    omega

end Work

/-! ## Service steps of the driver -/

/-- An interrupt of a running job, or a step that handles one. -/
def ServiceStep (k : Kmd) : KmdAction → Prop
  | .upperHalf _ _ => k.js.jm.schedJobs ≠ []
  | .queueWork | .bhStart | .bhDone | .bhResume => True
  | _ => False

instance : DecidableRel ServiceStep := fun k a => by
  rcases a <;> unfold ServiceStep <;> infer_instance

/-- The hardware is idle whenever a step of the driver asks. -/
def KmdHardwareIdle (k : Kmd) (_ : KmdAction) : Prop := k.js.jm.idle.next.1 = true

instance : DecidableRel KmdHardwareIdle := fun _ _ => inferInstanceAs (Decidable (_ = _))

/-- Nothing is queued, and no handler is left. -/
structure Kmd.Drained (k : Kmd) : Prop where
  pending : k.js.jm.pendingQueue = []
  scheduled : k.js.jm.scheduledQueue = []
  atRest : k.js.bh = .rest
  quiet : k.js.Quiet

/-- The hardware will be idle whenever it is asked. -/
def Kmd.StaysIdle (k : Kmd) : Prop := ∀ b ∈ k.js.jm.idle, b = true

/-- What the service steps rely on: the invariants of the job manager, and that the hardware is not
left idle while jobs are pending. -/
structure Kmd.Serviced (max : ℤ) (k : Kmd) : Prop where
  queues : ∃ jtr, JobQueueInv max jtr k.js
  bh : k.js.BhInv
  covered : k.js.Covered
  busy : k.js.jm.Busy
  idle : k.StaysIdle

section Drain

variable {version : AipuVersion} {map : MemoryMap} {max : ℤ} {tr : List KmdEvent} {k k' : Kmd}
  {a : KmdAction} {as : List KmdAction} {es : List KmdEvent}

/-- A service step is one of the job manager's. -/
theorem ServiceStep.jmAction (ha : ServiceStep k a) :
    ∃ b, a.jmAction k = some b ∧ b.Services k.js := by
  cases a <;> first | exact ha.elim | exact ⟨_, rfl, ha⟩

/-- A service step leaves less to do, whatever the hardware answers. -/
theorem kmdStep_work (hq : ∃ jtr, JobQueueInv max jtr k.js) (hbh : k.js.BhInv)
    (ha : ServiceStep k a) (h : kmdStep k a = some (k', es)) :
    ((∃ jtr, JobQueueInv max jtr k'.js) ∧ k'.js.BhInv) ∧ k'.js.work < k.js.work := by
  obtain ⟨jtr, hinv⟩ := hq
  obtain ⟨b, hb, hserves⟩ := ha.jmAction
  rcases kmdStep_jm h with ⟨hnone, -⟩ | ⟨b', jes, hb', hst, -⟩
  · simp [hb] at hnone
  · obtain rfl : b = b' := Option.some.inj (hb.symm.trans hb')
    obtain ⟨hmoves, hbh'⟩ := jmStep_moves hinv hbh hst
    exact ⟨⟨⟨_, hinv.moves hmoves⟩, hbh'⟩, jmStep_work hinv hbh hserves hst⟩

/-- The answers still to come are a part of those that were. -/
theorem aipuSchedulePendingJobNoLock_idle (mem : SessionMem) (jm : AipuJobManager) :
    (aipuSchedulePendingJobNoLock mem jm).1.idle ⊆ jm.idle := by
  have hnext : jm.idle.next.2 ⊆ jm.idle := by
    cases jm.idle with
    | nil => exact List.Subset.refl _
    | cons b rest => exact List.subset_cons_self b rest
  unfold aipuSchedulePendingJobNoLock
  split
  · exact List.Subset.refl _
  · dsimp only
    split_ifs
    · exact hnext
    · exact hnext
    · exact List.Subset.refl _

/-- A service step takes answers of the hardware away at most. -/
theorem jmStep_idle {s s' : JmState} {b : JmAction} {jes : List JmEvent} (hb : b.Services s)
    (h : jmStep s b = some (s', jes)) : s'.jm.idle ⊆ s.jm.idle := by
  cases b with
  | submit | kill | cancel => exact hb.elim
  | upperHalf mem flag =>
    obtain ⟨rfl, -⟩ := Prod.mk.inj (Option.some.inj h)
    change (aipuJobManagerUpdateJobStateIrq mem flag s.jm).1.idle ⊆ s.jm.idle
    unfold aipuJobManagerUpdateJobStateIrq
    split <;> exact aipuSchedulePendingJobNoLock_idle mem _
  | queueWork =>
    obtain ⟨-, rfl, -⟩ := jmStep_queueWork_cases h
    exact List.Subset.refl _
  | bhStart =>
    obtain ⟨-, -, rfl, -⟩ := jmStep_bhStart_cases h
    exact List.Subset.refl _
  | bhDone =>
    obtain ⟨curr, next, -, rfl, -⟩ := jmStep_bhDone_cases h
    exact List.Subset.refl _
  | bhResume =>
    obtain ⟨curr, next, -, rfl, -⟩ := jmStep_bhResume_cases h
    cases next <;> exact List.Subset.refl _

/-- The next answer is that the hardware is idle. -/
theorem Kmd.StaysIdle.next (h : k.StaysIdle) : k.js.jm.idle.next.1 = true := by
  unfold Kmd.StaysIdle at h
  cases hidle : k.js.jm.idle with
  | nil => rfl
  | cons b rest => exact h b (hidle ▸ List.mem_cons_self)

/-- **Service steps.**  They keep what they rely on and leave less to do. -/
theorem Kmd.Serviced.step (hmax : 1 ≤ max) (hs : k.Serviced max) (ha : ServiceStep k a)
    (h : kmdStep k a = some (k', es)) : k'.Serviced max ∧ k'.js.work < k.js.work := by
  obtain ⟨⟨hq', hbh'⟩, hwork⟩ := kmdStep_work hs.queues hs.bh ha h
  obtain ⟨jtr, hinv⟩ := hs.queues
  obtain ⟨b, hb, hserves⟩ := ha.jmAction
  rcases kmdStep_jm h with ⟨hnone, -⟩ | ⟨b', jes, hb', hst, -⟩
  · simp [hb] at hnone
  · obtain rfl : b = b' := Option.some.inj (hb.symm.trans hb')
    refine ⟨⟨hq', hbh', hs.covered.step hinv hs.bh hst, ?_, ?_⟩, hwork⟩
    · exact jmStep_busy hmax hinv hs.busy hs.idle.next hst
    · exact fun i hi => hs.idle i (jmStep_idle hserves hst hi)

/-- When no service step can be made, the driver is drained. -/
theorem Kmd.Serviced.drained (hmax : 1 ≤ max) (hs : k.Serviced max)
    (hnone : ∀ a, ServiceStep k a → kmdStep k a = none) : k.Drained := by
  obtain ⟨jtr, hinv⟩ := hs.queues
  -- no job is running, so none is pending
  have hsched : k.js.jm.schedJobs = [] := by
    by_contra hrunning
    have hstep := hnone (.upperHalf 0 ⟨fun _ => 0, fun _ => 0⟩) hrunning
    simp [kmdStep, Kmd.runJm, jmStep] at hstep
  have hzero : k.js.jm.schedNum = 0 := by
    rw [← hinv.length_schedJobs, hsched]
    rfl
  have hpending : k.js.jm.pendingQueue = [] := by
    by_contra hpending
    have hfull := hs.busy hpending
    have hmaxSched := hinv.maxSchedNum
    omega
  have hhandlers : k.js.handlers = 0 := by
    by_contra hhandlers
    have hstep := hnone .queueWork trivial
    simp [kmdStep, Kmd.runJm, jmStep, hhandlers] at hstep
  -- the bottom half is at rest and has no work
  have hrest : k.js.bh = .rest := by
    cases hbh : k.js.bh with
    | rest => rfl
    | calling curr next =>
      have hstep := hnone .bhDone trivial
      simp only [kmdStep, bottomHalfDone, Kmd.runJm, jmStep, hbh] at hstep
      split at hstep <;> cases hstep
    | returned curr next =>
      have hstep := hnone .bhResume trivial
      simp [kmdStep, Kmd.runJm, jmStep, hbh] at hstep
  have hwork : k.js.workPending = false := by
    cases hwork : k.js.workPending with
    | false => rfl
    | true =>
      have hstep := hnone .bhStart trivial
      simp [kmdStep, Kmd.runJm, jmStep, hrest, hwork] at hstep
  refine ⟨hpending, ?_, hrest, hhandlers, hwork⟩
  apply List.eq_nil_iff_forall_not_mem.mpr
  intro j hj
  rcases hinv.schedState j hj with hstate | hstate
  · have hmem : j.id ∈ k.js.jm.schedJobs :=
      mem_jobIds (List.mem_filter.mpr ⟨hj, by simpa using hstate⟩)
    simp [hsched] at hmem
  · exact hs.covered.atRest hrest ⟨hhandlers, hwork⟩ j hj hstate

/-- In a run whose hardware is idle whenever it is asked, nothing that is to be done is left
without a step that does it. -/
theorem kmdSystem_serviced (hmax : 1 ≤ max) {C : Kmd → KmdAction → Prop}
    (hC : ∀ k a, C k a → KmdHardwareIdle k a) (h : (kmdSystem version map max).Run C tr k)
    (hidle : k.StaysIdle) : k.Serviced max := by
  obtain ⟨hinv, hbh⟩ := kmdSystem_jm (Int.le_of_lt hmax) h
  have hboth : k.js.Covered ∧ k.js.jm.Busy := by
    clear hidle hinv hbh
    induction h with
    | start hs =>
      obtain ⟨-, ⟨idle, hjs⟩, -⟩ := hs
      rw [hjs]
      refine ⟨⟨?_, ?_⟩, fun hpending => absurd rfl hpending⟩
      · rintro curr next ⟨⟩
      · rintro - - j ⟨⟩
    | next hrun hCa hst ih =>
      obtain ⟨hinv, hbh⟩ := kmdSystem_jm (Int.le_of_lt hmax) hrun
      obtain ⟨hcov, hbusy⟩ := ih
      rcases kmdStep_jm hst with ⟨-, hjs, -⟩ | ⟨b, jes, -, hb, -⟩
      · rw [hjs]
        exact ⟨hcov, hbusy⟩
      · exact ⟨hcov.step hinv hbh hb, jmStep_busy hmax hinv hbusy (hC _ _ hCa) hb⟩
  exact ⟨⟨_, hinv⟩, hbh, hboth.1, hboth.2, hidle⟩

/-- In a drained state no service step can be made. -/
theorem Kmd.Drained.rest (h : k.Drained) : ∀ a, ServiceStep k a → kmdStep k a = none := by
  obtain ⟨-, hscheduled, hbh, hhandlers, hwork⟩ := h
  intro a ha
  cases a with
  | upperHalf flag stale =>
    rw [ServiceStep, AipuJobManager.schedJobs, hscheduled] at ha
    exact absurd rfl ha
  | queueWork => simp [kmdStep, Kmd.runJm, jmStep, hhandlers]
  | bhStart => simp [kmdStep, Kmd.runJm, jmStep, hbh, hwork]
  | bhDone => simp [kmdStep, bottomHalfDone, hbh]
  | bhResume => simp [kmdStep, Kmd.runJm, jmStep, hbh]
  | _ => exact ha.elim

/-- Wherever the driver is not drained, a service step can be made. -/
theorem Kmd.Serviced.enabled (hmax : 1 ≤ max) (hs : k.Serviced max) (hopen : ¬k.Drained) :
    ∃ a, ServiceStep k a ∧ (kmdStep k a).isSome := by
  by_contra hnone
  refine hopen (hs.drained hmax fun a ha => ?_)
  cases hst : kmdStep k a with
  | none => rfl
  | some r => exact absurd ⟨a, ha, by simp [hst]⟩ hnone

/-- Once nothing is queued, every submitted job was removed or retired. -/
theorem JobQueueInv.drained {jtr : List JmEvent} (hinv : JobQueueInv max jtr k.js)
    (hdrained : k.Drained) : (submittedJobs jtr).Perm (removedJobs jtr ++ retiredJobs jtr) := by
  have hpart := hinv.partition
  rw [hdrained.pending, hdrained.scheduled] at hpart
  rw [hinv.submitted]
  simpa using hpart

/-- **The driver drains.**  After any run of the driver whose hardware was idle whenever it was
asked, and will be: service steps can be made only so often, in whatever order; when no more of them
can be made, nothing is queued, the bottom half is at rest, no handler is left, and every job that
was submitted was retired by the bottom half or removed by a kill or a cancel; and there are service
steps that lead there. -/
theorem service_drains (version : AipuVersion) (map : MemoryMap) (hmax : 1 ≤ max)
    (h : (kmdSystem version map max).Run KmdHardwareIdle tr k) (hidle : k.StaysIdle) :
    (∀ as k' es, (kmdSystem version map max).exec ServiceStep k as = some (k', es) →
      as.length + k'.js.work ≤ k.js.work ∧
        ((∀ a, ServiceStep k' a → kmdStep k' a = none) →
          k'.Drained ∧ (submittedJobs ((tr ++ es).filterMap KmdEvent.jm)).Perm
            (removedJobs ((tr ++ es).filterMap KmdEvent.jm) ++
              retiredJobs ((tr ++ es).filterMap KmdEvent.jm)))) ∧
      ∃ as k' es, (kmdSystem version map max).exec ServiceStep k as = some (k', es) ∧
        k'.Drained := by
  have hs := kmdSystem_serviced hmax (fun _ _ h => h) h hidle
  have hstep : ∀ k a k' es, k.Serviced max → ServiceStep k a →
      (kmdSystem version map max).step k a = some (k', es) →
      k'.Serviced max ∧ k'.js.work < k.js.work :=
    fun _ _ _ _ hs ha hst => hs.step hmax ha hst
  constructor
  · intro as k' es hexec
    obtain ⟨hs', hle⟩ := System.length_le_of_exec hstep hs hexec
    refine ⟨hle, fun hnone => ?_⟩
    have hrun : (kmdSystem version map max).Run anyStep (tr ++ es) k' :=
      (h.mono fun _ _ _ => trivial).steps
        ((System.steps_of_exec hexec).mono fun _ _ _ => trivial)
    have hdrained := hs'.drained hmax hnone
    exact ⟨hdrained, (kmdSystem_jm (Int.le_of_lt hmax) hrun).1.drained hdrained⟩
  · obtain ⟨as, k', es, hexec, -, hdrained⟩ :=
      System.exists_exec_done hstep (fun _ hs hopen => hs.enabled hmax hopen) hs
    exact ⟨as, k', es, hexec, hdrained⟩

/-- One job runs and one is pending: there is service to be done, and it can be done. -/
theorem service_drains_sample :
    ∃ tr k, (kmdSystem .zhouyiV2 sampleMap 1).Run KmdHardwareIdle tr k ∧
      jobIds k.js.jm.pendingQueue = [1] ∧ k.js.work = 16 ∧
      ∃ as k' es, (kmdSystem .zhouyiV2 sampleMap 1).exec ServiceStep k as = some (k', es) ∧
        k'.Drained := by
  obtain ⟨k, tr, hexec, hpending, hwork, hidle⟩ : ∃ k tr,
      (kmdSystem .zhouyiV2 sampleMap 1).exec KmdHardwareIdle sampleKmd oneRunningOnePending =
        some (k, tr) ∧
      jobIds k.js.jm.pendingQueue = [1] ∧ k.js.work = 16 ∧ k.js.jm.idle = [] :=
    ⟨_, _, rfl, rfl, rfl, rfl⟩
  have hrun := System.run_of_exec sampleKmd_init hexec
  refine ⟨tr, k, hrun, hpending, hwork, ?_⟩
  refine (service_drains .zhouyiV2 sampleMap (by decide) hrun ?_).2
  rw [Kmd.StaysIdle, hidle]
  exact List.forall_mem_nil _

end Drain

/-! ## Every job is reported -/

/-- The files and the session jobs in their lists. -/
def Kmd.listings (k : Kmd) : List (ℕ × ReleasePhase × List ℕ) :=
  k.files.map fun f => (f.id, f.phase, f.session.jobList.map (·.id))

section Reports

variable {version : AipuVersion} {map : MemoryMap} {max : ℤ} {tr : List KmdEvent} {k k' : Kmd}
  {a : KmdAction} {as : List KmdAction} {es : List KmdEvent}

/-- The service steps take no session job off a list, and leave the calls alone. -/
theorem ServiceStep.listings (ha : ServiceStep k a) (h : kmdStep k a = some (k', es)) :
    k'.listings = k.listings ∧ k'.ops = k.ops := by
  have hrun : ∀ ja, k.runJm ja = some (k', es) → k'.listings = k.listings ∧ k'.ops = k.ops := by
    intro ja h
    obtain ⟨js, jes, -, rfl, -⟩ := Kmd.runJm_cases h
    exact ⟨rfl, rfl⟩
  cases a with
  | upperHalf flag stale => exact hrun (.upperHalf (k.mem stale) flag) h
  | queueWork => exact hrun .queueWork h
  | bhStart => exact hrun .bhStart h
  | bhResume => exact hrun .bhResume h
  | bhDone =>
    obtain ⟨curr, next, woken, -, -, ⟨c, d, hc, hd, rfl, -⟩ | ⟨-, rfl⟩⟩ := bottomHalfDone_cases h
    · refine ⟨?_, rfl⟩
      rw [Kmd.listings, Kmd.listings, (seek_eq_some hc).1]
      simp [Kmd.setFile, Cursor.toList, (seek_eq_some hd).1, SessionJob.done]
    · exact ⟨rfl, rfl⟩
  | _ => exact ha.elim

/-- A run whose steps keep the agreement of the lists and the queues. -/
theorem kmdSystem_listsAgree (hmax : 0 ≤ max)
    (h : (kmdSystem version map max).Run KeepsAgreement tr k) : k.ListsAgree := by
  induction h with
  | start hs =>
    obtain ⟨-, -, hfiles, -⟩ := hs
    intro f hf
    simp [hfiles] at hf
  | next hrun hC hst ih =>
    have hrun' := hrun.next hC hst
    obtain ⟨hq, hbh⟩ := kmdSystem_jm hmax hrun
    obtain ⟨hq', -⟩ := kmdSystem_jm hmax hrun'
    obtain ⟨hP, hR⟩ := kmdSystem_placed hmax hrun
    exact ih.step (kmdSystem_jobs hmax hrun) hP hR (kmdSystem_jobs hmax hrun') hq hq' hbh hC hst

/-- A batch query with room for them reports all jobs of a list that have ended, and empties it. -/
theorem query_reports_all {f : KmdFile} {query : JobStatusQuery} (hfresh : k.FilesFresh)
    (hf : f ∈ k.files) (hphase : f.phase = .opened)
    (hended : ∀ sj ∈ f.session.jobList, sj.state = .finished) (hne : f.session.jobList ≠ [])
    (hbatch : query.getSingleJob = false) (hroom : f.session.jobList.length ≤ query.maxCnt) :
    ∃ k', kmdStep k (.query f.id query true 0 0) = some (k',
        f.session.jobList.map (fun sj => .reported f.id sj.id (f.session.statusOf sj)) ++
          [.returned f.id 0]) ∧
      ∀ f' ∈ k'.files, f'.id = f.id → f'.session.jobList = [] := by
  have hcnt : 1 ≤ query.maxCnt := by
    have := List.length_pos_iff.mpr hne
    omega
  -- the query finds the file, and takes the whole list
  obtain ⟨c, hc⟩ := exists_seek (p := fun g : KmdFile => g.id = f.id ∧ g.phase = .opened) hf
    (by simpa using hphase)
  obtain ⟨hl, hid, -⟩ := Kmd.inPhase_eq_some hc
  obtain rfl : c.entry = f := hfresh.eq_of_id (hl ▸ c.entry_mem) hf hid
  have hfilter : c.entry.session.jobList.filter query.matches = c.entry.session.jobList := by
    refine List.filter_eq_self.mpr fun sj hsj => ?_
    simp [JobStatusQuery.matches, hbatch, hended sj hsj]
  have hloop : collectStatus query 0 c.entry.session.jobList = ([], c.entry.session.jobList) := by
    have heq := @collectStatus_eq query query.maxCnt 0 c.entry.session.jobList (by simp [hbatch])
    rw [hfilter, List.take_of_length_le hroom] at heq
    have hdiff : ∀ l : List SessionJob, l.diff l = [] := by
      intro l
      induction l with
      | nil => rfl
      | cons sj rest ih => rw [List.diff_cons, List.erase_cons_head, ih]
    rw [heq, hdiff]
  have hquery := aipuSessionGetJobStatus_eq hcnt hloop
  rw [if_neg hne] at hquery
  refine ⟨k.setFile c { c.entry with session := { c.entry.session with jobList := [] } }, ?_, ?_⟩
  · rw [kmdStep, queryStatus, Kmd.inPhase, hc]
    simp only [hquery]
    rfl
  · intro f' hf' hid'
    have hnodup := hfresh.nodup
    rw [hl, Cursor.toList, List.map_append, List.map_cons] at hnodup
    obtain ⟨hnew, -⟩ := List.nodup_cons.mp (List.nodup_middle.mp hnodup)
    rcases List.mem_append.mp hf' with hf' | hf'
    · exact absurd (hid' ▸ List.mem_append_left _ (List.mem_map_of_mem hf')) hnew
    · rcases List.mem_cons.mp hf' with rfl | hf'
      · rfl
      · exact absurd (hid' ▸ List.mem_append_right _ (List.mem_map_of_mem hf')) hnew

/-- **Every job is reported.**  Take any run of the driver that keeps the lists of the sessions and
the queues in agreement and whose hardware was, and will be, idle whenever it is asked.  When no
RUNJOB call is between its two steps and service steps are made until no more of them can be made,
the session jobs that were in the lists are still there, all those of open files have ended, and a
batch query with room for them reports each of them once, in the order of the list. -/
theorem every_job_reported (version : AipuVersion) (map : MemoryMap) (hmax : 1 ≤ max)
    (h : (kmdSystem version map max).Run (fun k a => KeepsAgreement k a ∧ KmdHardwareIdle k a) tr k)
    (hidle : k.StaysIdle) (hcalls : k.runJobs = [])
    (hexec : (kmdSystem version map max).exec ServiceStep k as = some (k', es))
    (hrest : ∀ a, ServiceStep k' a → kmdStep k' a = none) :
    k'.listings = k.listings ∧
      ∀ f ∈ k'.files, f.phase = .opened →
        (∀ sj ∈ f.session.jobList, sj.state = .finished) ∧
          ∀ query : JobStatusQuery, query.getSingleJob = false → f.session.jobList ≠ [] →
            f.session.jobList.length ≤ query.maxCnt →
              ∃ k'', kmdStep k' (.query f.id query true 0 0) = some (k'',
                  f.session.jobList.map
                      (fun sj => .reported f.id sj.id (f.session.statusOf sj)) ++
                    [.returned f.id 0]) ∧
                ∀ f' ∈ k''.files, f'.id = f.id → f'.session.jobList = [] := by
  have hsteps := System.steps_of_exec hexec
  obtain ⟨hlistings, hops⟩ : k'.listings = k.listings ∧ k'.ops = k.ops := by
    clear hrest hexec
    induction hsteps with
    | refl => exact ⟨rfl, rfl⟩
    | tail _ ha hst ih =>
      obtain ⟨hlistings, hops⟩ := ha.listings hst
      exact ⟨hlistings.trans ih.1, hops.trans ih.2⟩
  -- the agreement goes on, and nothing is queued in the end
  have hrun : (kmdSystem version map max).Run KeepsAgreement (tr ++ es) k' :=
    (h.mono fun _ _ hC => hC.1).steps (hsteps.mono fun k a ha => by
      cases a <;> first | exact ha.elim | exact trivial)
  have hA := kmdSystem_listsAgree (Int.le_of_lt hmax) hrun
  have hI := kmdSystem_jobs (Int.le_of_lt hmax) hrun
  have hs := kmdSystem_serviced hmax (fun _ _ hC => hC.2) h hidle
  have hdrained : k'.Drained :=
    (System.length_le_of_exec (fun _ _ _ _ hs ha hst => hs.step hmax ha hst) hs hexec).1.drained
      hmax hrest
  refine ⟨hlistings, fun f hf hphase => ?_⟩
  have hended : ∀ sj ∈ f.session.jobList, sj.state = .finished := by
    intro sj hsj
    rcases hA f hf hphase sj hsj with hended | ⟨j, ⟨hj, -⟩, -⟩ | hcall
    · exact hended
    · simp [AipuJobManager.jobs, hdrained.pending, hdrained.scheduled] at hj
    · rw [Kmd.runJobs, hops, ← Kmd.runJobs, hcalls] at hcall
      cases hcall
  exact ⟨hended, fun query hbatch hne hroom =>
    query_reports_all hI.files hf hphase hended hne hbatch hroom⟩

/-- Two jobs of one session end while the bottom half is late; one query then reports both. -/
theorem every_job_reported_sample :
    ∃ k k' es, k'.listings = k.listings ∧ k.listings = [(0, .opened, [1, 0])] ∧
      (kmdSystem .zhouyiV2 sampleMap 1).exec ServiceStep k
        [.upperHalf 0 sampleMem, .queueWork, .upperHalf 0 sampleMem, .bhStart, .bhDone, .queueWork,
          .bhResume, .bhDone, .bhResume, .bhStart] = some (k', es) ∧
      ∀ f ∈ k'.files, f.phase = .opened → ∀ sj ∈ f.session.jobList, sj.state = .finished := by
  obtain ⟨k, tr, k', es, hexec, hlist, hcalls, hidle, hservice, hp, hs, hbh, hquiet⟩ :
      ∃ k tr k' es,
        (kmdSystem .zhouyiV2 sampleMap 1).exec (fun k a => KeepsAgreement k a ∧ KmdHardwareIdle k a)
          sampleKmd oneRunningOnePending = some (k, tr) ∧
        k.listings = [(0, .opened, [1, 0])] ∧ k.runJobs = [] ∧ k.js.jm.idle = [] ∧
        (kmdSystem .zhouyiV2 sampleMap 1).exec ServiceStep k
          [.upperHalf 0 sampleMem, .queueWork, .upperHalf 0 sampleMem, .bhStart, .bhDone,
            .queueWork, .bhResume, .bhDone, .bhResume, .bhStart] = some (k', es) ∧
        k'.js.jm.pendingQueue = [] ∧ k'.js.jm.scheduledQueue = [] ∧ k'.js.bh = .rest ∧
        k'.js.Quiet :=
    ⟨_, _, _, _, rfl, rfl, rfl, rfl, rfl, rfl, rfl, rfl, rfl, rfl⟩
  have hstays : k.StaysIdle := by
    rw [Kmd.StaysIdle, hidle]
    exact List.forall_mem_nil _
  have hdrained : k'.Drained := ⟨hp, hs, hbh, hquiet⟩
  obtain ⟨hsame, hended⟩ := every_job_reported .zhouyiV2 sampleMap (by decide)
    (System.run_of_exec sampleKmd_init hexec) hstays hcalls hservice hdrained.rest
  exact ⟨k, k', es, hsame, hlist, hservice, fun f hf hphase => (hended f hf hphase).1⟩

end Reports

end Aipu
