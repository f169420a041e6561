import AipuDriver.Kmd.JobEffects

/-!
# The scheduler does not idle

Each operation of the job manager schedules at most one pending job, and some schedule none.  It is
enough: a job becomes pending, or a running one ends, one at a time.  So, when the hardware is idle
whenever it is asked, jobs are pending only while as many jobs run as may.
-/

namespace Aipu

open ListSearch Transition

/-- The hardware answers that it is idle when a step asks.  A step asks once at most, and only while
fewer jobs are scheduled than may be. -/
def HardwareIdle (s : JmState) (_ : JmAction) : Prop := s.jm.idle.next.1 = true

instance : DecidableRel HardwareIdle := fun _ _ => inferInstanceAs (Decidable (_ = _))

/-- Jobs are pending only while the capacity of the hardware is used up. -/
def AipuJobManager.Busy (jm : AipuJobManager) : Prop :=
  jm.pendingQueue ≠ [] → jm.schedNum = jm.maxSchedNum

/-- With at most one job pending, or at most one place free, scheduling leaves the hardware busy. -/
theorem aipuSchedulePendingJobNoLock_busy {mem : SessionMem} {jm : AipuJobManager}
    (hidle : jm.idle.next.1 = true) (hle : jm.schedNum ≤ jm.maxSchedNum)
    (hone : jm.pendingQueue.length ≤ 1 ∨ jm.maxSchedNum ≤ jm.schedNum + 1) :
    (aipuSchedulePendingJobNoLock mem jm).1.Busy := by
  unfold aipuSchedulePendingJobNoLock
  split
  · rename_i hnil
    intro hpending
    exact absurd hnil hpending
  · rename_i curr rest hcons
    by_cases hmax : jm.schedNum < jm.maxSchedNum
    · rw [if_pos hmax]
      dsimp only
      rw [if_pos hidle]
      intro hpending
      rcases hone with hone | hone
      · have hrest : rest = [] := by simpa [hcons] using hone
        exact absurd hrest hpending
      · have hfull : jm.schedNum + 1 = jm.maxSchedNum := by omega
        exact hfull
    · rw [if_neg hmax]
      intro _
      have hfull : jm.schedNum = jm.maxSchedNum := by omega
      exact hfull

section Steps

variable {max : ℤ} {tr : List JmEvent} {s s' : JmState} {a : JmAction} {es : List JmEvent}

/-- Taking pending jobs away leaves the hardware busy. -/
theorem AipuJobManager.Busy.of_sublist {jm jm' : AipuJobManager} (h : jm.Busy)
    (hsub : jm'.pendingQueue.Sublist jm.pendingQueue) (hnum : jm'.schedNum = jm.schedNum)
    (hmax : jm'.maxSchedNum = jm.maxSchedNum) : jm'.Busy := by
  intro hpending
  rw [hnum, hmax]
  apply h
  intro hnil
  rw [hnil] at hsub
  exact hpending (List.sublist_nil.mp hsub)

/-- Submitting a job leaves the hardware busy. -/
theorem aipuJobManagerScheduleNewJob_busy {mem : SessionMem} {sub : Submission}
    (hinv : JobQueueInv max tr s) (hidle : s.jm.idle.next.1 = true) (h : s.jm.Busy) :
    (aipuJobManagerScheduleNewJob mem s.nextJob sub s.jm).1.Busy := by
  have hle : s.jm.schedNum ≤ s.jm.maxSchedNum := hinv.maxSchedNum ▸ hinv.schedNum_le
  refine aipuSchedulePendingJobNoLock_busy hidle hle ?_
  by_cases hnil : s.jm.pendingQueue = []
  · left
    simp [hnil]
  · right
    have hfull := h hnil
    dsimp only
    omega

/-- The record of an end leaves the hardware busy, also when no job was running. -/
theorem aipuJobManagerUpdateJobStateIrq_busy {mem : SessionMem} {flag : ℤ} (hmax : 1 ≤ max)
    (hinv : JobQueueInv max tr s) (hidle : s.jm.idle.next.1 = true) (h : s.jm.Busy) :
    (aipuJobManagerUpdateJobStateIrq mem flag s.jm).1.Busy := by
  have hle : s.jm.schedNum ≤ s.jm.maxSchedNum := hinv.maxSchedNum ▸ hinv.schedNum_le
  have hcount := hinv.schedNum
  unfold aipuJobManagerUpdateJobStateIrq
  split
  · rename_i hseek
    refine aipuSchedulePendingJobNoLock_busy hidle hle (.inl ?_)
    -- nothing is running, so nothing is pending
    have hnone : s.jm.schedNum = 0 := by
      rw [hcount, List.countP_eq_zero.mpr]
      · rfl
      · simpa using seek_eq_none.mp hseek
    by_contra hlen
    have hfull := h (by rintro hnil; simp [hnil] at hlen)
    have hmaxSched := hinv.maxSchedNum
    omega
  · rename_i c hseek
    obtain ⟨hl, hstate, -⟩ := seek_eq_some hseek
    have hpos : 0 < s.jm.schedNum := by
      have hmem : c.entry ∈ s.jm.scheduledQueue := hl ▸ c.entry_mem
      have hrunning : 0 < s.jm.scheduledQueue.countP fun j => j.state = .sched :=
        List.countP_pos_iff.mpr ⟨c.entry, hmem, hstate⟩
      omega
    refine aipuSchedulePendingJobNoLock_busy hidle ?_ ?_
    · dsimp only
      split <;> omega
    · by_cases hnil : s.jm.pendingQueue = []
      · left
        simp [hnil]
      · right
        have hfull := h hnil
        dsimp only
        split <;> omega

/-- The bottom half neither submits nor schedules. -/
theorem bottomHalfFrom_same (jm : AipuJobManager) (next : Option ℕ) :
    (bottomHalfFrom jm next).1.pendingQueue = jm.pendingQueue ∧
      (bottomHalfFrom jm next).1.schedNum = jm.schedNum ∧
      (bottomHalfFrom jm next).1.maxSchedNum = jm.maxSchedNum := by
  cases next <;> exact ⟨rfl, rfl, rfl⟩

/-- Every step leaves the hardware busy. -/
theorem jmStep_busy (hmax : 1 ≤ max) (hinv : JobQueueInv max tr s) (h : s.jm.Busy)
    (hidle : HardwareIdle s a) (hst : jmStep s a = some (s', es)) : s'.jm.Busy := by
  cases a with
  | submit mem sub =>
    obtain ⟨rfl, -⟩ := Prod.mk.inj (Option.some.inj hst)
    exact aipuJobManagerScheduleNewJob_busy hinv hidle h
  | upperHalf mem flag =>
    obtain ⟨rfl, -⟩ := Prod.mk.inj (Option.some.inj hst)
    exact aipuJobManagerUpdateJobStateIrq_busy hmax hinv hidle h
  | queueWork =>
    obtain ⟨-, rfl, -⟩ := jmStep_queueWork_cases hst
    exact h
  | bhStart =>
    obtain ⟨-, -, rfl, -⟩ := jmStep_bhStart_cases hst
    exact h
  | bhDone =>
    obtain ⟨curr, next, -, rfl, -⟩ := jmStep_bhDone_cases hst
    exact h
  | bhResume =>
    obtain ⟨curr, next, -, rfl, -⟩ := jmStep_bhResume_cases hst
    obtain ⟨hpending, hnum, hmaxSched⟩ := bottomHalfFrom_same (s.jm.listDel curr.id) next
    refine h.of_sublist ?_ hnum hmaxSched
    exact hpending ▸ List.filter_sublist
  | kill mem tid jobId =>
    obtain ⟨c, hseek, rfl, -⟩ | ⟨-, ⟨c, -, -, rfl, -⟩ | ⟨-, rfl, -⟩⟩ := jmStep_kill_cases hinv hst
    · refine h.of_sublist ?_ rfl rfl
      rw [(seek_eq_some hseek).1]
      exact (List.Sublist.refl _).append (List.sublist_cons_self _ _)
    · exact h
    · exact h
  | cancel mem session =>
    rw [jmStep_cancel_eq hinv hst]
    exact h.of_sublist List.filter_sublist rfl rfl

end Steps

/-- **The scheduler does not idle.**  In every run on a platform without logic reset whose hardware
is idle whenever it is asked, jobs are pending only while as many jobs are scheduled as may be. -/
theorem scheduler_not_idle {max : ℤ} (hmax : 1 ≤ max) {tr : List JmEvent} {s : JmState}
    (h : (jmSystem max false).Run HardwareIdle tr s) (hpending : s.jm.pendingQueue ≠ []) :
    s.jm.schedNum = max := by
  have hinv : ∀ {tr s}, (jmSystem max false).Run HardwareIdle tr s → JobQueueInv max tr s :=
    fun h => (jmSystem_inv (Int.le_of_lt hmax) h).1
  have hbusy : s.jm.Busy := by
    clear hpending
    induction h with
    | start hs =>
      obtain ⟨idle, rfl⟩ := hs
      exact fun hpending => absurd rfl hpending
    | next hrun hidle hst ih => exact jmStep_busy hmax (hinv hrun) ih hidle hst
  rw [hbusy hpending, (hinv h).maxSchedNum]

/-- One job runs and two are pending; then the running one ends, and one of the two is killed. -/
theorem scheduler_not_idle_sample :
    ∃ tr s, (jmSystem 1 false).Run HardwareIdle tr s ∧ jobIds s.jm.pendingQueue = [3] ∧
      s.jm.schedNum = 1 := by
  obtain ⟨tr, s, hexec, hpending⟩ : ∃ tr s, (jmSystem 1 false).exec HardwareIdle
      (.initial 1 false [])
      [.submit sampleMem ⟨7, { jobId := 1 }, 0, 0⟩,
        .submit sampleMem ⟨7, { jobId := 2 }, 0, 1⟩,
        .submit sampleMem ⟨7, { jobId := 3 }, 0, 2⟩,
        .upperHalf sampleMem 0, .submit sampleMem ⟨7, { jobId := 4 }, 0, 3⟩,
        .kill sampleMem 7 3] = some (s, tr) ∧ jobIds s.jm.pendingQueue = [3] :=
    ⟨_, _, rfl, rfl⟩
  have hrun : (jmSystem 1 false).Run HardwareIdle tr s := System.run_of_exec ⟨[], rfl⟩ hexec
  refine ⟨tr, s, hrun, hpending, scheduler_not_idle (by decide) hrun ?_⟩
  intro hnil
  simp [hnil] at hpending

end Aipu
