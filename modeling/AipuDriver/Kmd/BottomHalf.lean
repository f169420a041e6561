import AipuDriver.Kmd.JobEffects

/-!
# The traversal of the bottom half

The loop of `aipu_job_manager_update_job_queue_done_irq` saves the successor of the job that it
works on and drops the lock around `aipu_session_job_done`.  The runs of this module also log what
the bottom half examines and which jobs it notifies.

The scheduled queue only grows at its end while the lock is dropped, and its jobs keep their places
(`jmStep_scheduled`), so the saved successor stays the next job.  Jobs that end behind the back of
the loop are covered by the work that their interrupt queues (`JmState.Covered`).
-/

namespace Aipu

open ListSearch Transition

/-! ## What the bottom half logs -/

/-- An event of the job manager, or a note of what the bottom half does. -/
inductive BhEvent
  | job (e : JmEvent)
  /-- The bottom half examined a job that has ended; `valid` is its valid flag then. -/
  | examined (job : ℕ) (valid : Bool)
  /-- `aipu_session_job_done` was called for the job. -/
  | notified (job : ℕ)
deriving DecidableEq, Repr

/-- The jobs that `bottomHalfScan` examines, with their valid flags. -/
def bottomHalfExamined : List AipuJob → List (ℕ × Bool)
  | [] => []
  | curr :: rest =>
    if curr.state ≠ .finished then bottomHalfExamined rest
    else if curr.validFlag then [(curr.id, true)]
    else (curr.id, false) :: bottomHalfExamined rest

/-- What the bottom half examines and notifies in a step. -/
def bottomHalfNotes (s : JmState) : JmAction → List BhEvent
  | .bhStart => (bottomHalfExamined s.jm.scheduledQueue).map fun p => .examined p.1 p.2
  | .bhDone => s.bh.callingJob.toList.map fun curr => .notified curr.id
  | .bhResume =>
    match s.bh with
    | .returned curr (some pos) =>
      (bottomHalfExamined ((s.jm.listDel curr.id).scheduledQueue.dropWhile (·.id ≠ pos))).map
        fun p => .examined p.1 p.2
    | _ => []
  | _ => []

/-- The runs of the job manager without logic reset, with the notes of the bottom half. -/
def bhSystem (maxSchedNum : ℤ) : System JmState JmAction BhEvent where
  init s := ∃ idle, s = .initial maxSchedNum false idle
  step s a := (jmStep s a).map fun r => (r.1, r.2.map .job ++ bottomHalfNotes s a)

/-- The event of the job manager. -/
def BhEvent.jm : BhEvent → Option JmEvent
  | .job e => some e
  | _ => none

/-- The job that is examined, with its valid flag. -/
def BhEvent.examines : BhEvent → Option (ℕ × Bool)
  | .examined i valid => some (i, valid)
  | _ => none

/-- The job that is notified. -/
def BhEvent.notifies : BhEvent → Option ℕ
  | .notified i => some i
  | _ => none

/-- The job that becomes END. -/
def JmEvent.ends : JmEvent → Option ℕ
  | .ended i _ _ _ => some i
  | _ => none

/-- The events of the job manager in a trace. -/
def jmEvents (tr : List BhEvent) : List JmEvent := tr.filterMap BhEvent.jm

/-- The jobs that became END in a trace. -/
def endedJobs (tr : List JmEvent) : List ℕ := tr.filterMap JmEvent.ends

theorem endedJobs_append (tr tr' : List JmEvent) :
    endedJobs (tr ++ tr') = endedJobs tr ++ endedJobs tr' := List.filterMap_append

/-- The jobs examined in a trace, with their valid flags. -/
def examinedJobs (tr : List BhEvent) : List (ℕ × Bool) := tr.filterMap BhEvent.examines

/-- The jobs notified in a trace. -/
def notifiedJobs (tr : List BhEvent) : List ℕ := tr.filterMap BhEvent.notifies

/-- The job at which the bottom half stands, and the successor that it has saved. -/
def BottomHalf.saved : BottomHalf → Option (AipuJob × Option ℕ)
  | .rest => none
  | .calling curr next | .returned curr next => some (curr, next)

/-- The notes of a step hold no event of the job manager. -/
theorem bottomHalfNotes_jm (s : JmState) (a : JmAction) : jmEvents (bottomHalfNotes s a) = [] := by
  refine List.filterMap_eq_nil_iff.mpr fun e he => ?_
  unfold bottomHalfNotes at he
  split at he
  · obtain ⟨p, -, rfl⟩ := List.mem_map.mp he
    rfl
  · obtain ⟨curr, -, rfl⟩ := List.mem_map.mp he
    rfl
  · split at he
    · obtain ⟨p, -, rfl⟩ := List.mem_map.mp he
      rfl
    · cases he
  · cases he

/-- A step of the bottom half's runs is a step of the job manager. -/
theorem bhSystem_step {max : ℤ} {s s' : JmState} {a : JmAction} {es : List BhEvent}
    (h : (bhSystem max).step s a = some (s', es)) :
    ∃ jes, jmStep s a = some (s', jes) ∧ es = jes.map .job ++ bottomHalfNotes s a := by
  obtain ⟨⟨s₁, jes⟩, hst, heq⟩ := Option.map_eq_some_iff.mp h
  obtain ⟨rfl, rfl⟩ := Prod.mk.inj heq
  exact ⟨jes, hst, rfl⟩

/-- Of the events of a step, those of the job manager. -/
theorem jmEvents_step (s : JmState) (a : JmAction) (jes : List JmEvent) :
    jmEvents (jes.map .job ++ bottomHalfNotes s a) = jes := by
  have hmap : jmEvents (jes.map .job) = jes := by
    rw [jmEvents, List.filterMap_map]
    exact List.filterMap_some
  have hnotes := bottomHalfNotes_jm s a
  rw [jmEvents] at hmap hnotes ⊢
  rw [List.filterMap_append, hmap, hnotes, List.append_nil]

/-- The invariants of the job manager hold in the runs of the bottom half. -/
theorem bhSystem_jm {max : ℤ} (hmax : 0 ≤ max) {C : JmState → JmAction → Prop}
    {tr : List BhEvent} {s : JmState} (h : (bhSystem max).Run C tr s) :
    JobQueueInv max (jmEvents tr) s ∧ s.BhInv := by
  have hjm : (jmSystem max false).Run anyStep (jmEvents tr) s := by
    refine h.map id BhEvent.jm (fun s hs => hs) ?_
    intro s a s' es _ hst
    obtain ⟨jes, hjm, rfl⟩ := bhSystem_step hst
    exact .inr ⟨a, trivial, by rw [← jmEvents, jmEvents_step]; exact hjm⟩
  exact jmSystem_inv hmax hjm

/-! ## The scheduled queue outside the bottom half -/

/-- The step is the upper half's record of an end. -/
def JmAction.isUpperHalf : JmAction → Bool
  | .upperHalf .. => true
  | _ => false

/-- The step is one of the bottom half. -/
def JmAction.isBottomHalf : JmAction → Bool
  | .bhStart | .bhDone | .bhResume => true
  | _ => false

/-- What a step may make of a scheduled job in its place. -/
structure SchedStep (a : JmAction) (j j' : AipuJob) : Prop where
  id : j'.id = j.id
  finished : j.state = .finished → j' = j
  ends : j'.state = .finished → j.state = .finished ∨ a.isUpperHalf = true

theorem SchedStep.refl (a : JmAction) (j : AipuJob) : SchedStep a j j := ⟨rfl, fun _ => rfl, .inl⟩

/-- A step that leaves the queue alone makes nothing of its jobs. -/
theorem schedStep_same (a : JmAction) (l : List AipuJob) : List.Forall₂ (SchedStep a) l l :=
  List.forall₂_same.mpr fun j _ => .refl a j

/-- A step that changes one job of the queue in its place. -/
theorem schedStep_at {a : JmAction} {c : Cursor AipuJob} {j' : AipuJob}
    (h : SchedStep a c.entry j') :
    List.Forall₂ (SchedStep a) c.toList (c.before ++ j' :: c.after) :=
  List.rel_append (schedStep_same a c.before) (.cons h (schedStep_same a c.after))

/-- Scheduling appends at most one job, which runs. -/
theorem aipuSchedulePendingJobNoLock_scheduled (mem : SessionMem) (jm : AipuJobManager) :
    ∃ suffix, (aipuSchedulePendingJobNoLock mem jm).1.scheduledQueue = jm.scheduledQueue ++ suffix ∧
      ∀ j ∈ suffix, j.state = .sched := by
  have hsame : ∃ suffix, jm.scheduledQueue = jm.scheduledQueue ++ suffix ∧
      ∀ j ∈ suffix, j.state = .sched := ⟨[], by simp, by simp⟩
  unfold aipuSchedulePendingJobNoLock
  split
  · exact hsame
  · rename_i curr rest hpending
    dsimp only
    split_ifs
    · exact ⟨[{ curr with state := .sched }], rfl, by simp⟩
    · exact hsame
    · exact hsame

/-- Outside the bottom half, the scheduled jobs keep their places, those that have ended do not
change, and jobs that run are appended; only an upper half lets a job end. -/
theorem jmStep_scheduled {max : ℤ} {tr : List JmEvent} {s s' : JmState} {a : JmAction}
    {es : List JmEvent} (hinv : JobQueueInv max tr s) (h : jmStep s a = some (s', es))
    (ha : a.isBottomHalf = false) :
    s'.bh = s.bh ∧ ∃ queue suffix, s'.jm.scheduledQueue = queue ++ suffix ∧
      List.Forall₂ (SchedStep a) s.jm.scheduledQueue queue ∧ ∀ j ∈ suffix, j.state = .sched := by
  have hsame : ∃ queue suffix, s.jm.scheduledQueue = queue ++ suffix ∧
      List.Forall₂ (SchedStep a) s.jm.scheduledQueue queue ∧ ∀ j ∈ suffix, j.state = .sched :=
    ⟨s.jm.scheduledQueue, [], by simp, schedStep_same a _, by simp⟩
  cases a with
  | submit mem sub =>
    obtain ⟨rfl, -⟩ := Prod.mk.inj (Option.some.inj h)
    obtain ⟨suffix, hqueue, hstate⟩ := aipuSchedulePendingJobNoLock_scheduled mem
      { s.jm with pendingQueue := s.jm.pendingQueue ++ [newJob s.nextJob sub] }
    exact ⟨rfl, s.jm.scheduledQueue, suffix, hqueue, schedStep_same _ _, hstate⟩
  | upperHalf mem flag =>
    cases hirq : aipuJobManagerUpdateJobStateIrq mem flag s.jm with
    | mk jm es₁ =>
    simp only [jmStep, hirq] at h
    obtain ⟨rfl, -⟩ := Prod.mk.inj (Option.some.inj h)
    refine ⟨rfl, ?_⟩
    obtain rfl : (aipuJobManagerUpdateJobStateIrq mem flag s.jm).1 = jm := by rw [hirq]
    unfold aipuJobManagerUpdateJobStateIrq
    split
    · obtain ⟨suffix, hqueue, hstate⟩ := aipuSchedulePendingJobNoLock_scheduled mem s.jm
      exact ⟨s.jm.scheduledQueue, suffix, hqueue, schedStep_same _ _, hstate⟩
    · rename_i c hseek
      obtain ⟨hl, hsched, -⟩ := seek_eq_some hseek
      have hsched : c.entry.state = .sched := by simpa using hsched
      obtain ⟨suffix, hqueue, hstate⟩ := aipuSchedulePendingJobNoLock_scheduled mem { s.jm with
        scheduledQueue :=
          c.before ++ { c.entry with state := .finished, exceptionFlag := flag } :: c.after
        schedNum := if s.jm.schedNum ≠ 0 then s.jm.schedNum - 1 else s.jm.schedNum }
      refine ⟨_, suffix, hqueue, ?_, hstate⟩
      rw [hl]
      exact schedStep_at ⟨rfl, by simp [hsched], fun _ => .inr rfl⟩
  | queueWork =>
    obtain ⟨-, rfl, -⟩ := jmStep_queueWork_cases h
    exact ⟨rfl, hsame⟩
  | kill mem tid jobId =>
    cases hkill : aipuInvalidateTimeoutJob mem tid jobId s.jm with
    | mk ret r =>
    obtain ⟨jm, es₁⟩ := r
    simp only [jmStep, hkill] at h
    obtain ⟨rfl, -⟩ := Prod.mk.inj (Option.some.inj h)
    refine ⟨rfl, ?_⟩
    obtain rfl : (aipuInvalidateTimeoutJob mem tid jobId s.jm).2.1 = jm := by rw [hkill]
    rw [aipuInvalidateTimeoutJob_eq hinv]
    split
    · exact hsame
    · split
      · exact hsame
      · rename_i c hseek
        obtain ⟨hl, -, -⟩ := seek_eq_some hseek
        split
        case isFalse => exact hsame
        case isTrue hsched =>
          refine ⟨c.before ++ { c.entry with validFlag := false } :: c.after, [], by simp, ?_,
            by simp⟩
          rw [hl]
          exact schedStep_at ⟨rfl, by simp [hsched], .inl⟩
  | cancel mem session =>
    cases hcancel : aipuJobManagerCancelSessionJobs mem session s.jm with
    | mk jm es₁ =>
    simp only [jmStep, hcancel] at h
    obtain ⟨rfl, -⟩ := Prod.mk.inj (Option.some.inj h)
    obtain rfl : (aipuJobManagerCancelSessionJobs mem session s.jm).1 = jm := by rw [hcancel]
    rw [aipuJobManagerCancelSessionJobs_eq hinv]
    refine ⟨rfl, s.jm.scheduledQueue.map (mem.cancel session), [], by simp, ?_, by simp⟩
    refine List.forall₂_map_right_iff.mpr (List.forall₂_same.mpr fun j _ => ?_)
    unfold SessionMem.cancel
    split
    · rename_i hcancel
      exact ⟨rfl, by simp [hcancel.2], .inl⟩
    · exact .refl _ j
  | bhStart | bhDone | bhResume => cases ha

/-! ## The position of the loop -/

/-- No bottom half is queued, and no interrupt handler is about to queue one. -/
def JmState.Quiet (s : JmState) : Prop := s.handlers = 0 ∧ s.workPending = false

/-- Where the bottom half stands, and which jobs that have ended it will still come to. -/
structure JmState.Covered (s : JmState) : Prop where
  /-- The saved successor is the next job of the queue.  When no other bottom half is going to run,
  the jobs that have ended are the current one and jobs from the saved successor on. -/
  linked : ∀ curr next, s.bh.saved = some (curr, next) → ∃ c : Cursor AipuJob,
    s.jm.scheduledQueue = c.toList ∧ c.entry = curr ∧
    (∀ pos, next = some pos → c.after.head?.map (·.id) = some pos) ∧
    (s.Quiet → (∀ j ∈ c.before, j.state ≠ .finished) ∧
      (next = none → ∀ j ∈ c.after, j.state ≠ .finished))
  atRest : s.bh = .rest → s.Quiet → ∀ j ∈ s.jm.scheduledQueue, j.state ≠ .finished

section Covering

variable {max : ℤ} {tr : List JmEvent} {s s' : JmState} {a : JmAction} {es : List JmEvent}

/-- The scan runs to the end of the queue and leaves no job that has ended, or it stops at the first
one that is valid and saves its successor. -/
theorem bottomHalfScan_spec {queue queue' : List AipuJob} {bh : BottomHalf} {es : List JmEvent}
    (h : bottomHalfScan queue = (queue', bh, es)) :
    (bh = .rest ∧ ∀ j ∈ queue', j.state ≠ .finished) ∨
      ∃ c : Cursor AipuJob, queue' = c.toList ∧
        bh = .calling c.entry (c.after.head?.map (·.id)) ∧ ∀ j ∈ c.before, j.state ≠ .finished := by
  induction queue generalizing queue' bh es with
  | nil =>
    simp only [bottomHalfScan, Prod.mk.injEq] at h
    obtain ⟨rfl, rfl, -⟩ := h
    exact .inl ⟨rfl, by simp⟩
  | cons curr rest ih =>
    rw [bottomHalfScan] at h
    split at h
    · -- a job that has not ended stays before the position
      rename_i hstate
      simp only [Prod.mk.injEq] at h
      obtain ⟨rfl, rfl, -⟩ := h
      rcases ih rfl with ⟨hbh, hrest⟩ | ⟨c, hqueue, hbh, hbefore⟩
      · exact .inl ⟨hbh, List.forall_mem_cons.mpr ⟨hstate, hrest⟩⟩
      · refine .inr ⟨⟨curr :: c.before, c.entry, c.after⟩, ?_, hbh, ?_⟩
        · rw [hqueue]
          rfl
        · exact List.forall_mem_cons.mpr ⟨hstate, hbefore⟩
    · split at h
      · simp only [Prod.mk.injEq] at h
        obtain ⟨rfl, rfl, -⟩ := h
        exact .inr ⟨⟨[], curr, rest⟩, rfl, rfl, by simp⟩
      · simp only [Prod.mk.injEq] at h
        obtain ⟨rfl, rfl, -⟩ := h
        exact ih rfl

/-- A scan of the end of the queue behind jobs that have not ended leaves the bottom half
covered. -/
theorem covered_of_scan {before queue queue' : List AipuJob} {bh : BottomHalf}
    (hscan : bottomHalfScan queue = (queue', bh, es)) (hbh : s'.bh = bh)
    (hqueue : s'.jm.scheduledQueue = before ++ queue')
    (hbefore : s'.Quiet → ∀ j ∈ before, j.state ≠ .finished) : s'.Covered := by
  rcases bottomHalfScan_spec hscan with ⟨rfl, hrest⟩ | ⟨c, rfl, rfl, hskipped⟩
  · constructor
    · intro curr next hsaved
      rw [hbh] at hsaved
      cases hsaved
    · intro _ hquiet j hj
      rw [hqueue] at hj
      rcases List.mem_append.mp hj with hj | hj
      · exact hbefore hquiet j hj
      · exact hrest j hj
  · constructor
    · intro curr next hsaved
      rw [hbh] at hsaved
      obtain ⟨rfl, rfl⟩ := Prod.mk.inj (Option.some.inj hsaved)
      refine ⟨⟨before ++ c.before, c.entry, c.after⟩, ?_, rfl, fun _ h => h, fun hquiet => ?_⟩
      · rw [hqueue]
        simp [Cursor.toList]
      · refine ⟨List.forall_mem_append.mpr ⟨hbefore hquiet, hskipped⟩, fun hnone => ?_⟩
        have hnil : c.after = [] := by simpa using hnone
        simp [hnil]
    · intro hrest
      rw [hbh] at hrest
      cases hrest

/-- After a step outside the bottom half that leaves everything quiet, everything was quiet before,
and no job has ended. -/
theorem quiet_of_step (h : jmStep s a = some (s', es)) (ha : a.isBottomHalf = false)
    (hquiet : s'.Quiet) : s.Quiet ∧ a.isUpperHalf = false := by
  cases a with
  | submit | kill | cancel =>
    obtain ⟨rfl, -⟩ := Prod.mk.inj (Option.some.inj h)
    exact ⟨hquiet, rfl⟩
  | upperHalf mem flag =>
    obtain ⟨rfl, -⟩ := Prod.mk.inj (Option.some.inj h)
    exact absurd hquiet.1 (Nat.succ_ne_zero _)
  | queueWork =>
    obtain ⟨-, rfl, -⟩ := jmStep_queueWork_cases h
    exact absurd hquiet.2 (by simp)
  | bhStart | bhDone | bhResume => cases ha

/-- Jobs that a quiet step makes of jobs that have not ended have not ended. -/
theorem not_finished_of_schedStep {l l' : List AipuJob} (h : List.Forall₂ (SchedStep a) l l')
    (ha : a.isUpperHalf = false) (hl : ∀ j ∈ l, j.state ≠ .finished) :
    ∀ j ∈ l', j.state ≠ .finished := by
  induction h with
  | nil => simp
  | cons hstep _ ih =>
    obtain ⟨hj, hl⟩ := List.forall_mem_cons.mp hl
    refine List.forall_mem_cons.mpr ⟨fun hstate => ?_, ih hl⟩
    rcases hstep.ends hstate with hended | hupper
    · exact hj hended
    · simp [ha] at hupper

/-- Steps outside the bottom half keep what it still has to do covered. -/
theorem JmState.Covered.other (hcov : s.Covered) (hinv : JobQueueInv max tr s) (hbh : s.BhInv)
    (h : jmStep s a = some (s', es)) (ha : a.isBottomHalf = false) : s'.Covered := by
  obtain ⟨hsame, queue, suffix, hqueue, hforall, hsuffix⟩ := jmStep_scheduled hinv h ha
  have hsuffix : ∀ j ∈ suffix, j.state ≠ .finished := fun j hj => by simp [hsuffix j hj]
  constructor
  · intro curr next hsaved
    rw [hsame] at hsaved
    obtain ⟨c, hl, rfl, hnext, hquiet⟩ := hcov.linked curr next hsaved
    have hended : c.entry.state = .finished := by
      refine (hbh c.entry ?_).2.1
      cases hb : s.bh <;> simp_all [BottomHalf.saved, BottomHalf.curr?]
    rw [hl] at hforall
    obtain ⟨d, rfl, hbefore, hentry, hafter⟩ := Cursor.transfer hforall
    refine ⟨⟨d.before, d.entry, d.after ++ suffix⟩, ?_, hentry.finished hended, ?_, ?_⟩
    · rw [hqueue]
      simp [Cursor.toList]
    · intro pos hpos
      have hhead := hnext pos hpos
      rcases hc : c.after with _ | ⟨j, rest⟩
      · simp [hc] at hhead
      · rw [hc] at hafter
        obtain ⟨j', rest', hj', -, hd⟩ := List.forall₂_cons_left_iff.mp hafter
        simpa [hd, hc, hj'.id] using hhead
    · intro hq
      obtain ⟨hq₀, hupper⟩ := quiet_of_step h ha hq
      obtain ⟨hbefore₀, hafter₀⟩ := hquiet hq₀
      refine ⟨not_finished_of_schedStep hbefore hupper hbefore₀, fun hnone => ?_⟩
      exact List.forall_mem_append.mpr
        ⟨not_finished_of_schedStep hafter hupper (hafter₀ hnone), hsuffix⟩
  · intro hrest hq
    obtain ⟨hq₀, hupper⟩ := quiet_of_step h ha hq
    rw [hsame] at hrest
    rw [hqueue]
    exact List.forall_mem_append.mpr
      ⟨not_finished_of_schedStep hforall hupper (hcov.atRest hrest hq₀), hsuffix⟩

/-- The loop takes the lock again at the saved successor. -/
theorem bottomHalfFrom_eq {c : Cursor AipuJob} {jm : AipuJobManager} {j : AipuJob}
    {rest : List AipuJob} (hnodup : jm.IdsNodup) (hqueue : jm.scheduledQueue = c.toList)
    (hafter : c.after = j :: rest) :
    (jm.listDel c.entry.id).scheduledQueue = c.before ++ j :: rest ∧
      (c.before ++ j :: rest).takeWhile (·.id ≠ j.id) = c.before ∧
      (c.before ++ j :: rest).dropWhile (·.id ≠ j.id) = j :: rest := by
  have hdel := hnodup.listDel_sched_at hqueue
  have hids := (hnodup.listDel c.entry.id).sched
  rw [hdel, hafter] at hids
  have hne : ∀ i ∈ c.before, (decide (i.id ≠ j.id)) = true := by
    intro i hi
    rw [jobIds_append, jobIds_cons] at hids
    have hdisj := (List.nodup_append.mp hids).2.2 _ (mem_jobIds hi) j.id List.mem_cons_self
    simpa using hdisj
  refine ⟨by rw [hdel, hafter], ?_, ?_⟩
  · rw [List.takeWhile_append_of_pos hne]
    simp
  · rw [List.dropWhile_append_of_pos hne]
    simp

/-- Every step keeps what the bottom half still has to do covered. -/
theorem JmState.Covered.step (hcov : s.Covered) (hinv : JobQueueInv max tr s) (hbh : s.BhInv)
    (h : jmStep s a = some (s', es)) : s'.Covered := by
  cases a with
  | submit | upperHalf | queueWork | kill | cancel => exact hcov.other hinv hbh h rfl
  | bhStart =>
    obtain ⟨-, -, rfl, -⟩ := jmStep_bhStart_cases h
    exact covered_of_scan rfl rfl (List.nil_append _).symm (by simp)
  | bhDone =>
    obtain ⟨curr, next, hcalling, rfl, -⟩ := jmStep_bhDone_cases h
    refine ⟨fun curr' next' hsaved => hcov.linked curr' next' ?_, fun hrest => by cases hrest⟩
    rw [hcalling]
    exact hsaved
  | bhResume =>
    obtain ⟨curr, next, hreturned, rfl, -⟩ := jmStep_bhResume_cases h
    obtain ⟨c, hl, rfl, hnext, hquiet⟩ := hcov.linked curr next (by rw [hreturned]; rfl)
    cases next with
    | none =>
      constructor
      · rintro curr' next' ⟨⟩
      · intro _ hq
        obtain ⟨hbefore, hafter⟩ := hquiet hq
        have hdel := hinv.nodup.listDel_sched_at hl
        simp only [bottomHalfFrom, hdel]
        exact List.forall_mem_append.mpr ⟨hbefore, hafter rfl⟩
    | some pos =>
      obtain ⟨j, hj, rfl⟩ := Option.map_eq_some_iff.mp (hnext pos rfl)
      obtain ⟨rest, hafter⟩ := List.head?_eq_some_iff.mp hj
      obtain ⟨hdel, htake, hdrop⟩ := bottomHalfFrom_eq hinv.nodup hl hafter
      refine covered_of_scan rfl rfl rfl fun hq => ?_
      rw [hdel, htake]
      exact (hquiet hq).1

end Covering

/-! ## The accounts of the bottom half -/

/-- The jobs of a queue that have ended. -/
def finishedIds (l : List AipuJob) : List ℕ := jobIds (l.filter fun j => j.state = .finished)

@[simp] theorem finishedIds_append (l l' : List AipuJob) :
    finishedIds (l ++ l') = finishedIds l ++ finishedIds l' := by
  simp [finishedIds]

@[simp] theorem finishedIds_cons (j : AipuJob) (l : List AipuJob) :
    finishedIds (j :: l) = if j.state = .finished then j.id :: finishedIds l
      else finishedIds l := by
  by_cases h : j.state = .finished <;> simp [finishedIds, h]

section Accounts

variable {max : ℤ} {jtr : List JmEvent} {tr es : List BhEvent} {s s' : JmState} {a : JmAction}
  {jes : List JmEvent}

/-- The jobs that became END are those that wait for the bottom half and those it has retired. -/
def JmState.EndsAccounted (jtr : List JmEvent) (s : JmState) : Prop :=
  (endedJobs jtr).Perm (finishedIds s.jm.scheduledQueue ++ retiredJobs jtr)

@[simp] theorem endedJobs_snoc (e : JmEvent) :
    endedJobs (jtr ++ [e]) = endedJobs jtr ++ e.ends.toList := by
  cases e <;> simp [endedJobs, JmEvent.ends]

/-- A move keeps the account of the ends. -/
theorem JmMove.endsAccounted (hinv : JobQueueInv max jtr s) (h : JmMove s jes s')
    (hends : s.EndsAccounted jtr) : s'.EndsAccounted (jtr ++ jes) := by
  unfold JmState.EndsAccounted at hends ⊢
  cases h with
  | control hjm => simpa [hjm] using hends
  | @note e he =>
    have hnone : e.ends = none ∧ e.retires = none := by
      cases e <;> simp_all [JmEvent.isNote, JmEvent.ends, JmEvent.retires]
    simpa [hnone.1, hnone.2] using hends
  | enqueue => simpa [JmEvent.ends, JmEvent.retires] using hends
  | trigger => simpa [JmEvent.ends, JmEvent.retires, finishedIds] using hends
  | @finish c flag hqueue hstate =>
    rw [hqueue, Cursor.toList] at hends
    rw [List.perm_iff_count] at hends ⊢
    intro i
    have hcount := hends i
    simp only [finishedIds_append, finishedIds_cons, hstate, reduceCtorEq, if_false,
      List.count_append] at hcount
    simp only [endedJobs_snoc, retiredJobs_snoc, JmEvent.retires, JmEvent.ends, Option.toList,
      List.append_nil, finishedIds_append, finishedIds_cons, if_true, List.count_append,
      List.count_cons, List.count_nil]
    omega
  | @invalidate job hjob hstate =>
    obtain ⟨before, rest, hqueue⟩ := List.append_of_mem hjob
    rw [hinv.nodup.clearValid_at hqueue]
    simpa [hqueue, hstate, JmEvent.ends, JmEvent.retires] using hends
  | @remove job hjob =>
    rw [hinv.nodup.listDel_pending hjob]
    simpa [JmEvent.ends, JmEvent.retires] using hends
  | @retire job hjob hstate =>
    obtain ⟨before, rest, hqueue⟩ := List.append_of_mem hjob
    rw [hinv.nodup.listDel_sched_at hqueue]
    rw [hqueue, List.perm_iff_count] at hends
    rw [List.perm_iff_count]
    intro i
    have hcount := hends i
    simp only [finishedIds_append, finishedIds_cons, hstate, if_true, List.count_append,
      List.count_cons] at hcount
    simp only [endedJobs_snoc, retiredJobs_snoc, JmEvent.retires, JmEvent.ends, Option.toList,
      List.append_nil, finishedIds_append, List.count_append, List.count_cons, List.count_nil]
    omega

/-- The jobs that the bottom half has examined and notified, in a trace that leads to the state. -/
structure JmState.NotesAccounted (tr : List BhEvent) (s : JmState) : Prop where
  /-- The jobs examined are those retired and the current one. -/
  examined : ((examinedJobs tr).map Prod.fst).Perm
    (retiredJobs (jmEvents tr) ++ s.bh.curr?.toList.map (·.id))
  /-- The jobs examined and valid are those notified and the one to be notified next. -/
  notified : (((examinedJobs tr).filter Prod.snd).map Prod.fst).Perm
    (notifiedJobs tr ++ s.bh.callingJob.toList.map (·.id))

/-- What a scan examines, it retires or stops at. -/
theorem bottomHalfScan_examined {queue queue' : List AipuJob} {bh : BottomHalf}
    (h : bottomHalfScan queue = (queue', bh, jes)) :
    (bottomHalfExamined queue).map Prod.fst = retiredJobs jes ++ bh.curr?.toList.map (·.id) ∧
      ((bottomHalfExamined queue).filter Prod.snd).map Prod.fst =
        bh.callingJob.toList.map (·.id) := by
  induction queue generalizing queue' bh jes with
  | nil =>
    simp only [bottomHalfScan, Prod.mk.injEq] at h
    obtain ⟨-, rfl, rfl⟩ := h
    exact ⟨rfl, rfl⟩
  | cons curr rest ih =>
    rw [bottomHalfScan] at h
    rw [bottomHalfExamined]
    split at h
    · rename_i hstate
      simp only [Prod.mk.injEq] at h
      obtain ⟨-, rfl, rfl⟩ := h
      rw [if_pos hstate]
      exact ih rfl
    · rename_i hstate
      rw [if_neg hstate]
      split at h
      · rename_i hvalid
        simp only [Prod.mk.injEq] at h
        obtain ⟨-, rfl, rfl⟩ := h
        rw [if_pos hvalid]
        exact ⟨rfl, rfl⟩
      · rename_i hvalid
        simp only [Prod.mk.injEq] at h
        obtain ⟨-, rfl, rfl⟩ := h
        rw [if_neg hvalid]
        obtain ⟨hall, hvalids⟩ := ih rfl
        refine ⟨?_, by simpa using hvalids⟩
        simp [hall, retiredJobs, JmEvent.retires]

/-- Notes of a scan: what they examine, and that they notify nobody. -/
theorem examinedJobs_notes (l : List (ℕ × Bool)) :
    examinedJobs (l.map fun p => .examined p.1 p.2) = l ∧
      notifiedJobs (l.map fun p => .examined p.1 p.2) = [] := by
  constructor
  · rw [examinedJobs, List.filterMap_map]
    exact List.filterMap_some
  · refine List.filterMap_eq_nil_iff.mpr fun e he => ?_
    obtain ⟨p, -, rfl⟩ := List.mem_map.mp he
    rfl

/-- Only the bottom half retires jobs. -/
theorem jmStep_retires (h : jmStep s a = some (s', jes)) (ha : a.isBottomHalf = false) :
    retiredJobs jes = [] := by
  refine List.filterMap_eq_nil_iff.mpr ?_
  cases a with
  | submit mem sub =>
    obtain ⟨-, rfl⟩ := Prod.mk.inj (Option.some.inj h)
    exact fun e he => (aipuJobManagerScheduleNewJob_events rfl e he).1
  | upperHalf mem flag =>
    obtain ⟨-, rfl⟩ := Prod.mk.inj (Option.some.inj h)
    exact fun e he => (aipuJobManagerUpdateJobStateIrq_events rfl e he).1
  | queueWork =>
    obtain ⟨-, -, rfl⟩ := jmStep_queueWork_cases h
    simp
  | kill mem tid jobId =>
    obtain ⟨-, rfl⟩ := Prod.mk.inj (Option.some.inj h)
    exact List.forall_mem_append.mpr
      ⟨aipuInvalidateTimeoutJob_events rfl, by simp [JmEvent.retires]⟩
  | cancel mem session =>
    obtain ⟨-, rfl⟩ := Prod.mk.inj (Option.some.inj h)
    exact aipuJobManagerCancelSessionJobs_events rfl
  | bhStart | bhDone | bhResume => cases ha

/-- A step extends the accounts by what it retires and by its notes. -/
theorem JmState.NotesAccounted.extend {examined : List (ℕ × Bool)} {notified : List ℕ}
    (hnotes : s.NotesAccounted tr) (hex : examinedJobs (bottomHalfNotes s a) = examined)
    (hno : notifiedJobs (bottomHalfNotes s a) = notified)
    (hcurr : (s.bh.curr?.toList.map (·.id) ++ examined.map Prod.fst).Perm
      (retiredJobs jes ++ s'.bh.curr?.toList.map (·.id)))
    (hcalling : (s.bh.callingJob.toList.map (·.id) ++ (examined.filter Prod.snd).map Prod.fst).Perm
      (notified ++ s'.bh.callingJob.toList.map (·.id))) :
    s'.NotesAccounted (tr ++ (jes.map .job ++ bottomHalfNotes s a)) := by
  have hjobs : examinedJobs (jes.map .job) = [] ∧ notifiedJobs (jes.map .job) = [] := by
    constructor <;> refine List.filterMap_eq_nil_iff.mpr fun e he => ?_
    all_goals
      obtain ⟨je, -, rfl⟩ := List.mem_map.mp he
      rfl
  have hexamined : examinedJobs (tr ++ (jes.map .job ++ bottomHalfNotes s a)) =
      examinedJobs tr ++ examined := by
    rw [← hex, ← List.nil_append (examinedJobs (bottomHalfNotes s a)), ← hjobs.1]
    simp [examinedJobs]
  have hnotified : notifiedJobs (tr ++ (jes.map .job ++ bottomHalfNotes s a)) =
      notifiedJobs tr ++ notified := by
    rw [← hno, ← List.nil_append (notifiedJobs (bottomHalfNotes s a)), ← hjobs.2]
    simp [notifiedJobs]
  have hretired : retiredJobs (jmEvents (tr ++ (jes.map .job ++ bottomHalfNotes s a))) =
      retiredJobs (jmEvents tr) ++ retiredJobs jes := by
    conv_rhs => rw [← jmEvents_step s a jes]
    simp [retiredJobs, jmEvents]
  constructor
  · rw [hexamined, hretired, List.map_append, List.append_assoc]
    refine (hnotes.examined.append_right _).trans ?_
    rw [List.append_assoc]
    exact hcurr.append_left _
  · rw [hexamined, hnotified, List.filter_append, List.map_append, List.append_assoc]
    refine (hnotes.notified.append_right _).trans ?_
    rw [List.append_assoc]
    exact hcalling.append_left _

/-- Every step keeps the accounts of the bottom half. -/
theorem JmState.NotesAccounted.step (hnotes : s.NotesAccounted tr) (hinv : JobQueueInv max jtr s)
    (h : jmStep s a = some (s', jes)) :
    s'.NotesAccounted (tr ++ (jes.map .job ++ bottomHalfNotes s a)) := by
  have hother : a.isBottomHalf = false → bottomHalfNotes s a = [] →
      s'.NotesAccounted (tr ++ (jes.map .job ++ bottomHalfNotes s a)) := by
    intro ha hnil
    obtain ⟨hsame, -⟩ := jmStep_scheduled hinv h ha
    have hex : examinedJobs (bottomHalfNotes s a) = [] := by simp [hnil, examinedJobs]
    have hno : notifiedJobs (bottomHalfNotes s a) = [] := by simp [hnil, notifiedJobs]
    refine hnotes.extend hex hno ?_ ?_
    · rw [jmStep_retires h ha, hsame]
      simp
    · rw [hsame]
      simp
  cases a with
  | submit | upperHalf | queueWork | kill | cancel => exact hother rfl rfl
  | bhStart =>
    obtain ⟨hrest, -, rfl, rfl⟩ := jmStep_bhStart_cases h
    obtain ⟨hex, hno⟩ := examinedJobs_notes (bottomHalfExamined s.jm.scheduledQueue)
    obtain ⟨hall, hvalid⟩ := bottomHalfScan_examined
      (rfl : bottomHalfScan s.jm.scheduledQueue = (_, _, _))
    refine hnotes.extend hex hno ?_ ?_
    · rw [hall, hrest]
      exact .refl _
    · rw [hvalid, hrest]
      exact .refl _
  | bhDone =>
    obtain ⟨curr, next, hcalling, rfl, rfl⟩ := jmStep_bhDone_cases h
    have hex : examinedJobs (bottomHalfNotes s .bhDone) = [] := by
      rw [bottomHalfNotes, hcalling]
      rfl
    have hno : notifiedJobs (bottomHalfNotes s .bhDone) = [curr.id] := by
      rw [bottomHalfNotes, hcalling]
      rfl
    refine hnotes.extend hex hno ?_ ?_
    · rw [hcalling]
      exact .refl _
    · rw [hcalling]
      exact .refl _
  | bhResume =>
    obtain ⟨curr, next, hreturned, rfl, rfl⟩ := jmStep_bhResume_cases h
    cases next with
    | none =>
      have hnil : bottomHalfNotes s .bhResume = [] := by rw [bottomHalfNotes, hreturned]
      have hex : examinedJobs (bottomHalfNotes s .bhResume) = [] := by simp [hnil, examinedJobs]
      have hno : notifiedJobs (bottomHalfNotes s .bhResume) = [] := by simp [hnil, notifiedJobs]
      refine hnotes.extend hex hno ?_ ?_
      · rw [hreturned]
        exact .refl _
      · rw [hreturned]
        exact .refl _
    | some pos =>
      have hnote : bottomHalfNotes s .bhResume = (bottomHalfExamined
          ((s.jm.listDel curr.id).scheduledQueue.dropWhile (·.id ≠ pos))).map
            fun p => .examined p.1 p.2 := by
        rw [bottomHalfNotes, hreturned]
      obtain ⟨hex, hno⟩ := examinedJobs_notes
        (bottomHalfExamined ((s.jm.listDel curr.id).scheduledQueue.dropWhile (·.id ≠ pos)))
      obtain ⟨hall, hvalid⟩ := bottomHalfScan_examined (rfl : bottomHalfScan
        ((s.jm.listDel curr.id).scheduledQueue.dropWhile (·.id ≠ pos)) = (_, _, _))
      rw [← hnote] at hex hno
      refine hnotes.extend hex hno ?_ ?_
      · rw [hall, hreturned]
        exact .refl _
      · rw [hvalid, hreturned]
        exact .refl _

end Accounts

/-! ## The theorem -/

/-- What holds in every run of the bottom half. -/
structure BottomHalfInv (tr : List BhEvent) (s : JmState) : Prop where
  covered : s.Covered
  ends : s.EndsAccounted (jmEvents tr)
  notes : s.NotesAccounted tr

/-- The invariants of the bottom half hold in every run. -/
theorem bhSystem_inv {max : ℤ} (hmax : 0 ≤ max) {C : JmState → JmAction → Prop}
    {tr : List BhEvent} {s : JmState} (h : (bhSystem max).Run C tr s) : BottomHalfInv tr s := by
  induction h with
  | start hs =>
    obtain ⟨idle, rfl⟩ := hs
    refine ⟨⟨?_, ?_⟩, .refl _, ⟨.refl _, .refl _⟩⟩
    · rintro curr next ⟨⟩
    · rintro - - j hj
      cases hj
  | next hrun _ hst ih =>
    obtain ⟨hinv, hbh⟩ := bhSystem_jm hmax hrun
    obtain ⟨jes, hjm, rfl⟩ := bhSystem_step hst
    obtain ⟨hmoves, -⟩ := jmStep_moves hinv hbh hjm
    refine ⟨ih.covered.step hinv hbh hjm, ?_, ih.notes.step hinv hjm⟩
    rw [jmEvents, List.filterMap_append, ← jmEvents, ← jmEvents, jmEvents_step]
    exact hmoves.invariant (I := fun jtr s => s.EndsAccounted jtr) JmMove.endsAccounted hinv ih.ends

section Counting

variable {max : ℤ} {tr : List BhEvent} {s : JmState}

/-- No job is queued and retired, or queued twice, or retired twice. -/
theorem JobQueueInv.queued_retired_nodup {jtr : List JmEvent} (hinv : JobQueueInv max jtr s) :
    (jobIds s.jm.jobs ++ retiredJobs jtr).Nodup := by
  have hall := hinv.partition.nodup_iff.mp List.nodup_range
  rw [List.append_assoc, List.append_assoc, ← List.append_assoc] at hall
  rw [AipuJobManager.jobs, jobIds_append]
  exact hall.sublist ((List.Sublist.refl _).append (List.sublist_append_right _ _))

/-- Jobs that have ended are scheduled jobs. -/
theorem finishedIds_sublist (l : List AipuJob) : (finishedIds l).Sublist (jobIds l) :=
  List.filter_sublist.map _

/-- The jobs at the end of a list without repetition are not among those before. -/
theorem count_of_nodup_append {l l' : List ℕ} (h : (l ++ l').Nodup) {i : ℕ} :
    (i ∈ l → l'.count i = 0) ∧ (i ∈ l' → i ∉ l ∧ l'.count i = 1) := by
  obtain ⟨-, hl', hdisj⟩ := List.nodup_append.mp h
  constructor
  · intro hi
    exact List.count_eq_zero.mpr fun hi' => hdisj i hi i hi' rfl
  · intro hi
    exact ⟨fun hi' => hdisj i hi' i hi rfl, List.count_eq_one_of_mem hl' hi⟩

/-- A job that has become END waits in the scheduled queue, or it was retired exactly once. -/
theorem BottomHalfInv.retired_once (hI : BottomHalfInv tr s)
    (hinv : JobQueueInv max (jmEvents tr) s) {i : ℕ} (hi : i ∈ endedJobs (jmEvents tr)) :
    ((∃ j ∈ s.jm.scheduledQueue, j.id = i ∧ j.state = .finished) ∧
        (retiredJobs (jmEvents tr)).count i = 0) ∨
      (i ∉ jobIds s.jm.jobs ∧ (retiredJobs (jmEvents tr)).count i = 1) := by
  have hcount := count_of_nodup_append hinv.queued_retired_nodup (i := i)
  rcases List.mem_append.mp (hI.ends.mem_iff.mp hi) with hi | hi
  · obtain ⟨j, hj, rfl⟩ := List.mem_map.mp hi
    obtain ⟨hj, hstate⟩ := List.mem_filter.mp hj
    have hmem : j.id ∈ jobIds s.jm.jobs := mem_jobIds (List.mem_append_right _ hj)
    exact .inl ⟨⟨j, hj, rfl, by simpa using hstate⟩, hcount.1 hmem⟩
  · exact .inr (hcount.2 hi)

/-- No job is examined twice. -/
theorem BottomHalfInv.examined_nodup (hI : BottomHalfInv tr s)
    (hinv : JobQueueInv max (jmEvents tr) s) (hbh : s.BhInv) :
    ((examinedJobs tr).map Prod.fst).Nodup := by
  rw [hI.notes.examined.nodup_iff]
  have hnodup := List.nodup_append_comm.mp hinv.queued_retired_nodup
  cases hcurr : s.bh.curr? with
  | none => simpa using (List.nodup_append.mp hnodup).1
  | some curr =>
    have hmem : curr.id ∈ jobIds s.jm.jobs :=
      mem_jobIds (List.mem_append_right _ (hbh curr hcurr).1)
    exact hnodup.sublist ((List.Sublist.refl _).append (List.singleton_sublist.mpr hmem))

/-- A job is notified exactly once if it was examined and valid, as soon as the call is made. -/
theorem BottomHalfInv.notified_once (hI : BottomHalfInv tr s)
    (hnodup : ((examinedJobs tr).map Prod.fst).Nodup) (i : ℕ) :
    (notifiedJobs tr).count i =
      if (i, true) ∈ examinedJobs tr ∧ s.bh.callingJob.map (·.id) ≠ some i then 1 else 0 := by
  have hperm := hI.notes.notified
  have hvalids : (((examinedJobs tr).filter Prod.snd).map Prod.fst).Nodup :=
    hnodup.sublist (List.filter_sublist.map _)
  have hmem : i ∈ ((examinedJobs tr).filter Prod.snd).map Prod.fst ↔
      (i, true) ∈ examinedJobs tr := by
    constructor
    · intro h
      obtain ⟨⟨i', valid⟩, hp, rfl⟩ := List.mem_map.mp h
      obtain ⟨hp, hvalid⟩ := List.mem_filter.mp hp
      obtain rfl : valid = true := hvalid
      exact hp
    · intro h
      exact List.mem_map.mpr ⟨(i, true), List.mem_filter.mpr ⟨h, rfl⟩, rfl⟩
  have hcalling : i ∈ s.bh.callingJob.toList.map (·.id) ↔
      s.bh.callingJob.map (·.id) = some i := by
    cases s.bh.callingJob <;> simp [eq_comm]
  obtain ⟨hnotified, -, hdisj⟩ := List.nodup_append.mp (hperm.nodup_iff.mp hvalids)
  have hcases := hperm.mem_iff (a := i)
  rw [hmem, List.mem_append, hcalling] at hcases
  split
  case isTrue h =>
    have hin := (hcases.mp h.1).resolve_right h.2
    exact List.count_eq_one_of_mem hnotified hin
  case isFalse h =>
    refine List.count_eq_zero.mpr fun hin => h ⟨hcases.mpr (.inl hin), fun hcall => ?_⟩
    exact hdisj i hin i (hcalling.mpr hcall) rfl

end Counting

/-- **The bottom half.**  In every run, with any steps in the window in which the bottom half has
dropped the lock: the saved successor is a job of the scheduled queue that is still there when the
current one is taken off; a job becomes END at most once, and then waits in the scheduled queue
until it is unlinked and freed exactly once, and no other job is; a job is examined at most once,
before it is freed, and notified exactly once if it was valid then and never otherwise; and when no
bottom half is queued or running and no interrupt handler is about to queue one, no END job is left
in the scheduled queue. -/
theorem bottom_half_traversal {max : ℤ} (hmax : 0 ≤ max) {tr : List BhEvent} {s : JmState}
    (h : (bhSystem max).Run anyStep tr s) :
    (∀ curr pos, s.bh.saved = some (curr, some pos) →
      pos ∈ jobIds (s.jm.listDel curr.id).scheduledQueue) ∧
    (endedJobs (jmEvents tr)).Nodup ∧
    (∀ i ∈ retiredJobs (jmEvents tr), i ∈ endedJobs (jmEvents tr)) ∧
    (∀ i ∈ endedJobs (jmEvents tr),
      ((∃ j ∈ s.jm.scheduledQueue, j.id = i ∧ j.state = .finished) ∧
          (retiredJobs (jmEvents tr)).count i = 0) ∨
        (i ∉ jobIds s.jm.jobs ∧ (retiredJobs (jmEvents tr)).count i = 1)) ∧
    ((examinedJobs tr).map Prod.fst).Nodup ∧
    (∀ i ∈ retiredJobs (jmEvents tr), ∃ valid, (i, valid) ∈ examinedJobs tr) ∧
    (∀ i, (notifiedJobs tr).count i =
      if (i, true) ∈ examinedJobs tr ∧ s.bh.callingJob.map (·.id) ≠ some i then 1 else 0) ∧
    (s.bh = .rest → s.workPending = false → s.handlers = 0 →
      ∀ j ∈ s.jm.scheduledQueue, j.state ≠ .finished) := by
  obtain ⟨hinv, hbh⟩ := bhSystem_jm hmax h
  have hI := bhSystem_inv hmax h
  have hexamined := hI.examined_nodup hinv hbh
  refine ⟨?_, ?_, ?_, fun i hi => hI.retired_once hinv hi, hexamined, ?_,
    hI.notified_once hexamined, fun hrest hwork hhandlers => ?_⟩
  · intro curr pos hsaved
    obtain ⟨c, hl, rfl, hnext, -⟩ := hI.covered.linked curr (some pos) hsaved
    obtain ⟨j, hj, rfl⟩ := Option.map_eq_some_iff.mp (hnext pos rfl)
    rw [hinv.nodup.listDel_sched_at hl]
    exact mem_jobIds (List.mem_append_right _ (List.mem_of_mem_head? hj))
  · rw [hI.ends.nodup_iff]
    have hsub : (finishedIds s.jm.scheduledQueue).Sublist (jobIds s.jm.jobs) := by
      rw [AipuJobManager.jobs, jobIds_append]
      exact (finishedIds_sublist _).trans (List.sublist_append_right _ _)
    exact hinv.queued_retired_nodup.sublist (hsub.append (List.Sublist.refl _))
  · intro i hi
    exact hI.ends.mem_iff.mpr (List.mem_append_right _ hi)
  · intro i hi
    obtain ⟨⟨i', valid⟩, hp, rfl⟩ :=
      List.mem_map.mp (hI.notes.examined.mem_iff.mpr (List.mem_append_left _ hi))
    exact ⟨valid, hp⟩
  · exact hI.covered.atRest hrest ⟨hhandlers, hwork⟩

/-- While the bottom half reports the first job, another one ends, a third one is submitted, and
a kill of the second one is refused; the same bottom half retires both. -/
theorem bottom_half_traversal_sample :
    ∃ tr s, (bhSystem 1).Run anyStep tr s ∧ retiredJobs (jmEvents tr) = [0, 1] ∧
      notifiedJobs tr = [0, 1] ∧
      (s.bh = .rest → s.workPending = false → s.handlers = 0 →
        ∀ j ∈ s.jm.scheduledQueue, j.state ≠ .finished) := by
  obtain ⟨tr, s, hexec, hret, hnot⟩ : ∃ tr s, (bhSystem 1).exec anyStep (.initial 1 false [])
      [.submit sampleMem ⟨7, { jobId := 1 }, 0, 0⟩,
        .submit sampleMem ⟨7, { jobId := 2 }, 0, 1⟩,
        .upperHalf sampleMem 0, .queueWork, .bhStart,
        .upperHalf sampleMem 0, .queueWork, .submit sampleMem ⟨7, { jobId := 3 }, 0, 2⟩,
        .kill sampleMem 7 2, .bhDone, .bhResume, .bhDone, .bhResume] = some (s, tr) ∧
      retiredJobs (jmEvents tr) = [0, 1] ∧ notifiedJobs tr = [0, 1] :=
    ⟨_, _, rfl, rfl, rfl⟩
  have hrun : (bhSystem 1).Run anyStep tr s := System.run_of_exec ⟨[], rfl⟩ hexec
  exact ⟨tr, s, hrun, hret, hnot, (bottom_half_traversal (by decide) hrun).2.2.2.2.2.2.2⟩

end Aipu
