import AipuDriver.Kmd.KillFinal

/-!
# Ended session jobs

A session job ends because the bottom half reports the end of a job that refers to it.  The trace
shows that this job was triggered, and that its end was recorded while it was valid.
-/

namespace Aipu

open ListSearch Transition

/-- The ends of the scheduled jobs that have ended are in the trace. -/
def JmState.EndsRecorded (jtr : List JmEvent) (s : JmState) : Prop :=
  ∀ j ∈ s.jm.scheduledQueue, j.state = .finished →
    ∃ flag, .ended j.id j.sessionJob flag j.validFlag ∈ jtr

/-- A job that referred to the session job was triggered, and it ended while it was valid. -/
def Ran (jtr : List JmEvent) (sessionJob : ℕ) : Prop :=
  ∃ job flag, .triggered job ∈ jtr ∧ .ended job sessionJob flag true ∈ jtr

/-- Every session job that has ended has run. -/
def Kmd.EndsRan (jtr : List JmEvent) (k : Kmd) : Prop :=
  ∀ f ∈ k.files, ∀ sj ∈ f.session.jobList, sj.state = .finished → Ran jtr sj.id

/-- What has run once has run. -/
theorem Ran.append {jtr : List JmEvent} {sessionJob : ℕ} (h : Ran jtr sessionJob)
    (jes : List JmEvent) : Ran (jtr ++ jes) sessionJob := by
  obtain ⟨job, flag, htrig, hend⟩ := h
  exact ⟨job, flag, List.mem_append_left _ htrig, List.mem_append_left _ hend⟩

section Ends

variable {max : ℤ} {jtr jes : List JmEvent} {s s' : JmState}

/-- A move records the end that it brings about. -/
theorem JmMove.endsRecorded (hinv : JobQueueInv max jtr s) (h : JmMove s jes s')
    (hends : s.EndsRecorded jtr) : s'.EndsRecorded (jtr ++ jes) := by
  have hold : ∀ j ∈ s.jm.scheduledQueue, j.state = .finished →
      ∃ flag, .ended j.id j.sessionJob flag j.validFlag ∈ jtr ++ jes := by
    intro j hj hstate
    obtain ⟨flag, hend⟩ := hends j hj hstate
    exact ⟨flag, List.mem_append_left _ hend⟩
  intro j' hj' hstate'
  cases h with
  | control hjm =>
    rw [hjm] at hj'
    exact hold j' hj' hstate'
  | note | enqueue => exact hold j' hj' hstate'
  | trigger =>
    rcases List.mem_append.mp hj' with hj' | hj'
    · exact hold j' hj' hstate'
    · obtain rfl := List.mem_singleton.mp hj'
      cases hstate'
  | @finish c flag hqueue hstate =>
    rw [hqueue] at hold
    rcases List.mem_append.mp hj' with hj' | hj'
    · exact hold j' (Cursor.mem_toList.mpr (.inl hj')) hstate'
    rcases List.mem_cons.mp hj' with rfl | hj'
    · exact ⟨flag, List.mem_append_right _ (List.mem_singleton.mpr rfl)⟩
    · exact hold j' (Cursor.mem_toList.mpr (.inr (.inr hj'))) hstate'
  | @invalidate job hjob hstate =>
    obtain ⟨j, hj, rfl⟩ := List.mem_map.mp hj'
    split_ifs at hstate' ⊢ with hid
    · obtain rfl := eq_of_id_eq hinv.nodup.sched hj hjob hid
      rw [hstate] at hstate'
      cases hstate'
    · exact hold j hj hstate'
  | remove | retire => exact hold j' (List.mem_filter.mp hj').1 hstate'

/-- A scheduled job was triggered. -/
theorem JobQueueInv.scheduled_triggered (hinv : JobQueueInv max jtr s) {j : AipuJob}
    (hj : j ∈ s.jm.scheduledQueue) : .triggered j.id ∈ jtr := by
  have hmem : j.id ∈ triggeredJobs jtr :=
    hinv.triggered.mem_iff.mpr (List.mem_append_left _ (List.mem_map_of_mem hj))
  obtain ⟨e, he, htrig⟩ := List.mem_filterMap.mp hmem
  cases e with
  | triggered job =>
    obtain rfl := Option.some.inj htrig
    exact he
  | _ => cases htrig

end Ends

/-- Every step reports only session jobs that have run. -/
theorem Kmd.EndsRan.step {k k' : Kmd} {a : KmdAction} {es : List KmdEvent} {max : ℤ}
    {jtr : List JmEvent} (hran : k.EndsRan jtr) (hq : JobQueueInv max jtr k.js) (hbh : k.js.BhInv)
    (hends : k.js.EndsRecorded jtr) (h : kmdStep k a = some (k', es)) :
    k'.EndsRan (jtr ++ es.filterMap KmdEvent.jm) := by
  intro f' hf' sj' hsj' hstate'
  rcases kmdStep_jobLists h f' hf' with hnil | ⟨f, hf, -, hstep⟩
  · simp [hnil] at hsj'
  cases hstep with
  | taken hsub => exact (hran f hf sj' (hsub.subset hsj') hstate').append _
  | added tid desc _ _ hlist =>
    rw [hlist, List.mem_cons] at hsj'
    rcases hsj' with rfl | hsj'
    · cases hstate'
    · exact (hran f hf sj' hsj' hstate').append _
  | reported c ha hlist hlist' =>
    have hold : ∀ sj ∈ c.toList, sj.state = .finished → Ran jtr sj.id :=
      fun sj hsj => hran f hf sj (hlist ▸ hsj)
    rw [hlist', List.mem_append, List.mem_cons] at hsj'
    rcases hsj' with hsj' | rfl | hsj'
    · exact (hold sj' (Cursor.mem_toList.mpr (.inl hsj')) hstate').append _
    · obtain ⟨-, curr, hcurr, hsj⟩ := ha
      obtain ⟨hmem, hended, hvalid⟩ := hbh curr (BottomHalf.curr?_of_callingJob hcurr)
      obtain ⟨flag, hend⟩ := hends curr hmem hended
      rw [hvalid, hsj] at hend
      exact Ran.append ⟨curr.id, flag, hq.scheduled_triggered hmem, hend⟩ _
    · exact (hold sj' (Cursor.mem_toList.mpr (.inr (.inr hsj'))) hstate').append _

/-- **Ended session jobs.**  In every run, a session job that has ended has run. -/
theorem kmdSystem_endsRan {version : AipuVersion} {map : MemoryMap} {maxSchedNum : ℤ}
    (hmax : 0 ≤ maxSchedNum) {C : Kmd → KmdAction → Prop} {tr : List KmdEvent} {k : Kmd}
    (h : (kmdSystem version map maxSchedNum).Run C tr k) :
    k.EndsRan (tr.filterMap KmdEvent.jm) := by
  suffices hboth : k.js.EndsRecorded (tr.filterMap KmdEvent.jm) ∧
      k.EndsRan (tr.filterMap KmdEvent.jm) from hboth.2
  induction h with
  | start hs =>
    obtain ⟨-, ⟨idle, hjs⟩, hfiles, -⟩ := hs
    refine ⟨?_, by simp [Kmd.EndsRan, hfiles]⟩
    simp [JmState.EndsRecorded, hjs, JmState.initial, aipuInitJobManager]
  | next hrun _ hst ih =>
    obtain ⟨hq, hbh⟩ := kmdSystem_jm hmax hrun
    rw [List.filterMap_append]
    refine ⟨?_, ih.2.step hq hbh ih.1 hst⟩
    rcases kmdStep_jm hst with ⟨-, hjs, hes⟩ | ⟨b, jes, -, hb, hes⟩
    · rw [hjs, hes.1, List.append_nil]
      exact ih.1
    · rw [hes.1]
      exact (jmStep_moves hq hbh hb).1.invariant (I := fun jtr s => s.EndsRecorded jtr)
        JmMove.endsRecorded hq ih.1

end Aipu
