import Mathlib.Data.List.Count
import Mathlib.Data.List.Nodup
import AipuDriver.Kmd.JobManager

/-!
# The job queues: moves, and what holds in every run

Every step of the job manager is a sequence of elementary moves of single jobs (`JmMove`): a job is
put into the pending queue, triggered, marked as ended, invalidated, removed, or retired.  The
invariant `JobQueueInv` relates the queues to the events logged so far and is kept by every move.
It gives the theorem on the queues: no job is lost or duplicated, jobs are triggered at most once
and in the order of their submission, and the counter of scheduled jobs is exact.
-/

namespace Aipu

open ListSearch Transition

/-! ## Lists of jobs -/

/-- The addresses of the jobs of a queue. -/
def jobIds (l : List AipuJob) : List ℕ := l.map AipuJob.id

section Ids

variable {l l' : List AipuJob} {job : AipuJob} {i : ℕ}

@[simp] theorem jobIds_nil : jobIds [] = [] := rfl

@[simp] theorem jobIds_cons : jobIds (job :: l) = job.id :: jobIds l := rfl

@[simp] theorem jobIds_append : jobIds (l ++ l') = jobIds l ++ jobIds l' := List.map_append

theorem mem_jobIds (h : job ∈ l) : job.id ∈ jobIds l := List.mem_map_of_mem h

/-- Deleting an address that is not in a queue changes nothing. -/
theorem filter_ne_of_not_mem (h : i ∉ jobIds l) : l.filter (fun j => j.id ≠ i) = l := by
  refine List.filter_eq_self.mpr fun j hj => ?_
  simp only [ne_eq, decide_eq_true_eq]
  rintro rfl
  exact h (mem_jobIds hj)

/-- Deleting a job of a queue without repeated addresses takes exactly its address away. -/
theorem jobIds_perm_filter (hnodup : (jobIds l).Nodup) (hjob : job ∈ l) :
    (jobIds l).Perm (job.id :: jobIds (l.filter fun j => j.id ≠ job.id)) := by
  induction l with
  | nil => cases hjob
  | cons x xs ih =>
    obtain ⟨hx, hxs⟩ := List.nodup_cons.mp hnodup
    rcases List.mem_cons.mp hjob with rfl | hjob
    · rw [List.filter_cons_of_neg (by simp), filter_ne_of_not_mem hx]
      exact .refl _
    · have hne : x.id ≠ job.id := by
        intro heq
        exact hx (heq ▸ mem_jobIds hjob)
      rw [List.filter_cons_of_pos (by simpa using hne)]
      exact ((ih hxs hjob).cons _).trans (List.Perm.swap _ _ _)

/-- Two jobs of a queue without repeated addresses that have the same address are the same. -/
theorem eq_of_id_eq {job' : AipuJob} (hnodup : (jobIds l).Nodup) (h : job ∈ l) (h' : job' ∈ l)
    (hid : job.id = job'.id) : job = job' :=
  List.inj_on_of_nodup_map hnodup h h' hid

end Ids

/-! ## Addresses are not queued twice -/

/-- No address is queued twice. -/
def AipuJobManager.IdsNodup (jm : AipuJobManager) : Prop :=
  (jobIds jm.pendingQueue ++ jobIds jm.scheduledQueue).Nodup

/-- The job is queued in the queue that belongs to its state. -/
def AipuJobManager.Queued (jm : AipuJobManager) (job : AipuJob) : Prop :=
  (job ∈ jm.pendingQueue ∧ job.state = .pending) ∨
    (job ∈ jm.scheduledQueue ∧ (job.state = .sched ∨ job.state = .finished))

namespace AipuJobManager.IdsNodup

variable {jm : AipuJobManager} {job : AipuJob}

theorem pending (h : jm.IdsNodup) : (jobIds jm.pendingQueue).Nodup := (List.nodup_append.mp h).1

theorem sched (h : jm.IdsNodup) : (jobIds jm.scheduledQueue).Nodup := (List.nodup_append.mp h).2.1

/-- The address of a pending job is not in the scheduled queue. -/
theorem pending_not_sched (h : jm.IdsNodup) (hjob : job ∈ jm.pendingQueue) :
    job.id ∉ jobIds jm.scheduledQueue := fun hmem =>
  (List.nodup_append.mp h).2.2 _ (mem_jobIds hjob) _ hmem rfl

/-- The address of a scheduled job is not in the pending queue. -/
theorem sched_not_pending (h : jm.IdsNodup) (hjob : job ∈ jm.scheduledQueue) :
    job.id ∉ jobIds jm.pendingQueue := fun hmem =>
  (List.nodup_append.mp h).2.2 _ hmem _ (mem_jobIds hjob) rfl

/-- Deleting a pending job leaves the scheduled queue alone. -/
theorem listDel_pending (h : jm.IdsNodup) (hjob : job ∈ jm.pendingQueue) :
    jm.listDel job.id =
      { jm with pendingQueue := jm.pendingQueue.filter fun j => j.id ≠ job.id } := by
  rw [AipuJobManager.listDel, filter_ne_of_not_mem (h.pending_not_sched hjob)]

/-- Deleting a scheduled job leaves the pending queue alone. -/
theorem listDel_sched (h : jm.IdsNodup) (hjob : job ∈ jm.scheduledQueue) :
    jm.listDel job.id =
      { jm with scheduledQueue := jm.scheduledQueue.filter fun j => j.id ≠ job.id } := by
  rw [AipuJobManager.listDel, filter_ne_of_not_mem (h.sched_not_pending hjob)]

/-- Invalidating a scheduled job leaves the pending queue alone. -/
theorem clearValid_sched (h : jm.IdsNodup) (hjob : job ∈ jm.scheduledQueue) :
    jm.clearValid job.id =
      { jm with
        scheduledQueue := jm.scheduledQueue.map fun j =>
          if j.id = job.id then { j with validFlag := false } else j } := by
  have hsame : jm.pendingQueue.map
      (fun j => if j.id = job.id then { j with validFlag := false } else j) =
      jm.pendingQueue := by
    refine (List.map_congr_left fun j hj => ?_).trans (List.map_id _)
    rw [if_neg]
    · rfl
    · intro heq
      exact h.sched_not_pending hjob (heq ▸ mem_jobIds hj)
  rw [AipuJobManager.clearValid, hsame]

/-- The addresses of the jobs around a job of a list without repetition are different from its. -/
theorem not_mem_around {before rest l : List AipuJob} (hids : (jobIds l).Nodup)
    (hqueue : l = before ++ job :: rest) : job.id ∉ jobIds before ∧ job.id ∉ jobIds rest := by
  rw [hqueue, jobIds_append, jobIds_cons] at hids
  have hcurr := List.nodup_middle.mp hids
  rw [List.nodup_cons, List.mem_append, not_or] at hcurr
  exact hcurr.1

/-- Deleting the pending job at a position. -/
theorem listDel_pending_at (h : jm.IdsNodup) {before rest : List AipuJob}
    (hqueue : jm.pendingQueue = before ++ job :: rest) :
    jm.listDel job.id = { jm with pendingQueue := before ++ rest } := by
  obtain ⟨hb, hr⟩ := not_mem_around h.pending hqueue
  rw [h.listDel_pending (by simp [hqueue]), hqueue, List.filter_append,
    List.filter_cons_of_neg (by simp), filter_ne_of_not_mem hb, filter_ne_of_not_mem hr]

/-- Deleting the scheduled job at a position. -/
theorem listDel_sched_at (h : jm.IdsNodup) {before rest : List AipuJob}
    (hqueue : jm.scheduledQueue = before ++ job :: rest) :
    jm.listDel job.id = { jm with scheduledQueue := before ++ rest } := by
  obtain ⟨hb, hr⟩ := not_mem_around h.sched hqueue
  rw [h.listDel_sched (by simp [hqueue]), hqueue, List.filter_append,
    List.filter_cons_of_neg (by simp), filter_ne_of_not_mem hb, filter_ne_of_not_mem hr]

/-- Invalidating the scheduled job at a position. -/
theorem clearValid_at (h : jm.IdsNodup) {before rest : List AipuJob}
    (hqueue : jm.scheduledQueue = before ++ job :: rest) :
    jm.clearValid job.id =
      { jm with scheduledQueue := before ++ { job with validFlag := false } :: rest } := by
  obtain ⟨hb, hr⟩ := not_mem_around h.sched hqueue
  have hsame : ∀ l : List AipuJob, job.id ∉ jobIds l →
      l.map (fun j => if j.id = job.id then { j with validFlag := false } else j) = l := by
    intro l hl
    refine (List.map_congr_left fun j hj => ?_).trans (List.map_id _)
    rw [if_neg]
    · rfl
    · intro heq
      exact hl (heq ▸ mem_jobIds hj)
  rw [h.clearValid_sched (by simp [hqueue]), hqueue, List.map_append, List.map_cons, if_pos rfl,
    hsame _ hb, hsame _ hr]

/-- Deleting jobs repeats no address. -/
theorem listDel (h : jm.IdsNodup) (i : ℕ) : (jm.listDel i).IdsNodup :=
  List.Nodup.sublist
    ((List.Sublist.map _ List.filter_sublist).append (List.Sublist.map _ List.filter_sublist)) h

/-- Invalidating jobs changes no address. -/
theorem clearValid (h : jm.IdsNodup) (i : ℕ) : (jm.clearValid i).IdsNodup := by
  have hids : ∀ l : List AipuJob,
      jobIds (l.map fun j => if j.id = i then { j with validFlag := false } else j) =
        jobIds l := by
    intro l
    simp only [jobIds, List.map_map]
    refine List.map_congr_left fun j _ => ?_
    simp only [Function.comp]
    split <;> rfl
  unfold AipuJobManager.IdsNodup AipuJobManager.clearValid
  dsimp only
  rw [hids, hids]
  exact h

end AipuJobManager.IdsNodup

/-- Deleting one job leaves the others queued. -/
theorem AipuJobManager.Queued.listDel {jm : AipuJobManager} {job : AipuJob} {i : ℕ}
    (h : jm.Queued job) (hne : job.id ≠ i) : (jm.listDel i).Queued job := by
  rcases h with ⟨hjob, hstate⟩ | ⟨hjob, hstate⟩
  · exact .inl ⟨List.mem_filter.mpr ⟨hjob, by simpa using hne⟩, hstate⟩
  · exact .inr ⟨List.mem_filter.mpr ⟨hjob, by simpa using hne⟩, hstate⟩

/-- Invalidating one job leaves the others queued as they are. -/
theorem AipuJobManager.Queued.clearValid {jm : AipuJobManager} {job : AipuJob} {i : ℕ}
    (h : jm.Queued job) (hne : job.id ≠ i) : (jm.clearValid i).Queued job := by
  rcases h with ⟨hjob, hstate⟩ | ⟨hjob, hstate⟩
  · exact .inl ⟨List.mem_map.mpr ⟨job, hjob, if_neg hne⟩, hstate⟩
  · exact .inr ⟨List.mem_map.mpr ⟨job, hjob, if_neg hne⟩, hstate⟩

/-! ## Reading the trace -/

/-- The job that an event submits. -/
def JmEvent.submits : JmEvent → Option ℕ
  | .submitted j => some j
  | _ => none

/-- The job that an event triggers. -/
def JmEvent.triggers : JmEvent → Option ℕ
  | .triggered j => some j
  | _ => none

/-- The job that an event removes by a kill or a cancel. -/
def JmEvent.removes : JmEvent → Option ℕ
  | .removed j => some j
  | _ => none

/-- The job that an event retires. -/
def JmEvent.retires : JmEvent → Option ℕ
  | .retired j => some j
  | _ => none

/-- The jobs submitted in a trace. -/
def submittedJobs (tr : List JmEvent) : List ℕ := tr.filterMap JmEvent.submits

/-- The jobs triggered in a trace. -/
def triggeredJobs (tr : List JmEvent) : List ℕ := tr.filterMap JmEvent.triggers

/-- The jobs that a kill or a cancel removed in a trace. -/
def removedJobs (tr : List JmEvent) : List ℕ := tr.filterMap JmEvent.removes

/-- The jobs that the bottom half retired in a trace. -/
def retiredJobs (tr : List JmEvent) : List ℕ := tr.filterMap JmEvent.retires

section Snoc

variable (tr : List JmEvent) (e : JmEvent)

@[simp] theorem submittedJobs_snoc :
    submittedJobs (tr ++ [e]) = submittedJobs tr ++ e.submits.toList := by
  cases e <;> simp [submittedJobs, JmEvent.submits]

theorem triggeredJobs_append (tr' : List JmEvent) :
    triggeredJobs (tr ++ tr') = triggeredJobs tr ++ triggeredJobs tr' := List.filterMap_append

@[simp] theorem triggeredJobs_snoc :
    triggeredJobs (tr ++ [e]) = triggeredJobs tr ++ e.triggers.toList := by
  cases e <;> simp [triggeredJobs, JmEvent.triggers]

@[simp] theorem removedJobs_snoc :
    removedJobs (tr ++ [e]) = removedJobs tr ++ e.removes.toList := by
  cases e <;> simp [removedJobs, JmEvent.removes]

@[simp] theorem retiredJobs_snoc :
    retiredJobs (tr ++ [e]) = retiredJobs tr ++ e.retires.toList := by
  cases e <;> simp [retiredJobs, JmEvent.retires]

end Snoc

/-- Events that do not move a job: reads through pointers and return codes. -/
def JmEvent.isNote : JmEvent → Bool
  | .readSession _ | .readSessionJob _ | .killed _ => true
  | _ => false

/-! ## Moves -/

/-- An elementary move of the job manager with the events it logs. -/
inductive JmMove : JmState → List JmEvent → JmState → Prop
  /-- The bottom half or the interrupt bookkeeping moves on, or the hardware is polled. -/
  | control {s s' : JmState} {idle : Oracle} (hjm : s'.jm = { s.jm with idle := idle })
      (hnext : s'.nextJob = s.nextJob) : JmMove s [] s'
  | note {s : JmState} {e : JmEvent} (he : e.isNote = true) : JmMove s [e] s
  | enqueue {s : JmState} (sub : Submission) :
      JmMove s [.submitted s.nextJob]
        { s with
          jm := { s.jm with
            pendingQueue :=
              s.jm.pendingQueue ++ [{ initAipuJob s.nextJob sub with state := .pending }] }
          nextJob := s.nextJob + 1 }
  | trigger {s : JmState} {curr : AipuJob} {rest : List AipuJob}
      (hpending : s.jm.pendingQueue = curr :: rest) (hmax : s.jm.schedNum < s.jm.maxSchedNum) :
      JmMove s [.triggered curr.id]
        { s with
          jm := { s.jm with
            pendingQueue := rest
            scheduledQueue := s.jm.scheduledQueue ++ [{ curr with state := .sched }]
            schedNum := s.jm.schedNum + 1 } }
  | finish {s : JmState} {c : Cursor AipuJob} (flag : ℤ)
      (hqueue : s.jm.scheduledQueue = c.toList) (hstate : c.entry.state = .sched) :
      JmMove s [.ended c.entry.id c.entry.sessionJob flag c.entry.validFlag]
        { s with
          jm := { s.jm with
            scheduledQueue :=
              c.before ++ { c.entry with state := .finished, exceptionFlag := flag } :: c.after
            schedNum := if s.jm.schedNum ≠ 0 then s.jm.schedNum - 1 else s.jm.schedNum } }
  | invalidate {s : JmState} {job : AipuJob} (hjob : job ∈ s.jm.scheduledQueue)
      (hstate : job.state = .sched) :
      JmMove s [.invalidated job.id] { s with jm := s.jm.clearValid job.id }
  | remove {s : JmState} {job : AipuJob} (hjob : job ∈ s.jm.pendingQueue) :
      JmMove s [.removed job.id] { s with jm := s.jm.listDel job.id }
  | retire {s : JmState} {job : AipuJob} (hjob : job ∈ s.jm.scheduledQueue)
      (hstate : job.state = .finished) :
      JmMove s [.retired job.id] { s with jm := s.jm.listDel job.id }

/-- A sequence of moves. -/
inductive JmMoves : JmState → List JmEvent → JmState → Prop
  | refl {s : JmState} : JmMoves s [] s
  | tail {s s' s'' : JmState} {es es' : List JmEvent} :
      JmMoves s es s' → JmMove s' es' s'' → JmMoves s (es ++ es') s''

theorem JmMove.moves {s s' : JmState} {es : List JmEvent} (h : JmMove s es s') :
    JmMoves s es s' := JmMoves.refl.tail h

theorem JmMoves.trans {s s' s'' : JmState} {es es' : List JmEvent} (h : JmMoves s es s')
    (h' : JmMoves s' es' s'') : JmMoves s (es ++ es') s'' := by
  induction h' with
  | refl => simpa using h
  | tail _ hmove ih =>
    rw [← List.append_assoc]
    exact ih.tail hmove

/-- The bottom half and the interrupt bookkeeping may move on after a sequence of moves. -/
theorem JmMoves.control {s s' s'' : JmState} {es : List JmEvent} {idle : Oracle}
    (h : JmMoves s es s') (hjm : s''.jm = { s'.jm with idle := idle })
    (hnext : s''.nextJob = s'.nextJob) : JmMoves s es s'' := by
  simpa using h.tail (.control hjm hnext)

/-- A sequence of notes is a sequence of moves. -/
theorem JmMoves.notes {s : JmState} {es : List JmEvent} (h : ∀ e ∈ es, e.isNote = true) :
    JmMoves s es s := by
  induction es with
  | nil => exact .refl
  | cons e es ih =>
    have hrest := ih fun e' he' => h e' (List.mem_cons_of_mem e he')
    exact (JmMove.note (h e (by simp))).moves.trans hrest

/-! ## The invariant -/

/-- The queues against the trace, on a platform without logic reset. -/
structure JobQueueInv (max : ℤ) (tr : List JmEvent) (s : JmState) : Prop where
  noReset : s.jm.hasLogicReset = false
  /-- Jobs are numbered in the order of their submission. -/
  submitted : submittedJobs tr = List.range s.nextJob
  /-- A submitted job is pending, scheduled, removed or retired, and only one of these. -/
  partition : (List.range s.nextJob).Perm
    (jobIds s.jm.pendingQueue ++ jobIds s.jm.scheduledQueue ++ removedJobs tr ++ retiredJobs tr)
  /-- The jobs triggered are the scheduled and the retired ones. -/
  triggered : (triggeredJobs tr).Perm (jobIds s.jm.scheduledQueue ++ retiredJobs tr)
  /-- The jobs triggered and then the pending ones are in the order of submission. -/
  fifo : (triggeredJobs tr ++ jobIds s.jm.pendingQueue).Sublist (List.range s.nextJob)
  pendingState : ∀ j ∈ s.jm.pendingQueue, j.state = .pending
  schedState : ∀ j ∈ s.jm.scheduledQueue, j.state = .sched ∨ j.state = .finished
  maxSchedNum : s.jm.maxSchedNum = max
  schedNum : s.jm.schedNum = (s.jm.scheduledQueue.countP fun j => j.state = .sched)
  schedNum_le : s.jm.schedNum ≤ max

namespace JobQueueInv

variable {max : ℤ} {tr : List JmEvent} {s : JmState}

/-- No address is queued twice. -/
theorem nodup (h : JobQueueInv max tr s) : s.jm.IdsNodup := by
  have hall := h.partition.nodup_iff.mp List.nodup_range
  exact (List.nodup_append.mp (List.nodup_append.mp hall).1).1

/-- The invariant holds before the first step. -/
theorem init (hmax : 0 ≤ max) (idle : Oracle) :
    JobQueueInv max [] (.initial max false idle) :=
  ⟨rfl, rfl, .refl _, .refl _, .refl _, by simp [JmState.initial, aipuInitJobManager],
    by simp [JmState.initial, aipuInitJobManager], rfl, rfl, hmax⟩

/-! ### The moves keep the invariant -/

theorem enqueue (h : JobQueueInv max tr s) (sub : Submission) :
    JobQueueInv max (tr ++ [.submitted s.nextJob])
      { s with
        jm := { s.jm with
          pendingQueue :=
            s.jm.pendingQueue ++ [{ initAipuJob s.nextJob sub with state := .pending }] }
        nextJob := s.nextJob + 1 } := by
  refine ⟨h.noReset, ?_, ?_, ?_, ?_, ?_, h.schedState, h.maxSchedNum, h.schedNum, h.schedNum_le⟩
  · simp [h.submitted, List.range_succ, JmEvent.submits]
  · rw [List.perm_iff_count]
    intro a
    have hcount := (List.perm_iff_count.mp h.partition) a
    simp only [List.count_append] at hcount
    simp only [List.range_succ, jobIds_append, jobIds_cons, jobIds_nil, initAipuJob,
      removedJobs_snoc, retiredJobs_snoc, JmEvent.removes, JmEvent.retires, Option.toList,
      List.append_nil, List.count_append]
    omega
  · simpa [JmEvent.triggers, JmEvent.retires] using h.triggered
  · have hfifo := h.fifo.append (List.Sublist.refl [s.nextJob])
    simpa [List.range_succ, initAipuJob, JmEvent.triggers] using hfifo
  · intro j hj
    rcases List.mem_append.mp hj with hj | hj
    · exact h.pendingState j hj
    · rw [List.mem_singleton.mp hj]

theorem trigger (h : JobQueueInv max tr s) {curr : AipuJob} {rest : List AipuJob}
    (hpending : s.jm.pendingQueue = curr :: rest) (hmax : s.jm.schedNum < s.jm.maxSchedNum) :
    JobQueueInv max (tr ++ [.triggered curr.id])
      { s with
        jm := { s.jm with
          pendingQueue := rest
          scheduledQueue := s.jm.scheduledQueue ++ [{ curr with state := .sched }]
          schedNum := s.jm.schedNum + 1 } } := by
  have hpart := h.partition
  have hfifo := h.fifo
  rw [hpending] at hpart hfifo
  refine ⟨h.noReset, ?_, ?_, ?_, ?_, ?_, ?_, h.maxSchedNum, ?_, ?_⟩
  · simpa [JmEvent.submits] using h.submitted
  · rw [List.perm_iff_count] at hpart ⊢
    intro a
    have hcount := hpart a
    simp only [jobIds_cons, List.count_append, List.count_cons] at hcount
    simp only [jobIds_append, jobIds_cons, jobIds_nil, removedJobs_snoc, retiredJobs_snoc,
      JmEvent.removes, JmEvent.retires, Option.toList, List.append_nil, List.count_append,
      List.count_cons, List.count_nil]
    omega
  · rw [List.perm_iff_count]
    intro a
    have hcount := (List.perm_iff_count.mp h.triggered) a
    simp only [List.count_append] at hcount
    simp only [jobIds_append, jobIds_cons, jobIds_nil, triggeredJobs_snoc, retiredJobs_snoc,
      JmEvent.triggers, JmEvent.retires, Option.toList, List.append_nil, List.count_append]
    omega
  · simpa [JmEvent.triggers] using hfifo
  · intro j hj
    exact h.pendingState j (hpending ▸ List.mem_cons_of_mem curr hj)
  · intro j hj
    rcases List.mem_append.mp hj with hj | hj
    · exact h.schedState j hj
    · rw [List.mem_singleton.mp hj]
      exact .inl rfl
  · have := h.schedNum
    simp [List.countP_append, this]
  · have := h.maxSchedNum
    dsimp only
    omega

/-- Changing jobs of the scheduled queue in place, without their addresses, keeps what the
invariant says about the trace. -/
theorem inPlace (h : JobQueueInv max tr s) {queue : List AipuJob} {num : ℤ} {e : JmEvent}
    (hids : jobIds queue = jobIds s.jm.scheduledQueue)
    (he : e.submits = none ∧ e.triggers = none ∧ e.removes = none ∧ e.retires = none)
    (hstate : ∀ j ∈ queue, j.state = .sched ∨ j.state = .finished)
    (hnum : num = queue.countP fun j => j.state = .sched) (hle : num ≤ s.jm.schedNum) :
    JobQueueInv max (tr ++ [e])
      { s with jm := { s.jm with scheduledQueue := queue, schedNum := num } } := by
  obtain ⟨hsub, htrig, hrem, hret⟩ := he
  refine ⟨h.noReset, ?_, ?_, ?_, ?_, h.pendingState, hstate, h.maxSchedNum, hnum,
    Int.le_trans hle h.schedNum_le⟩
  · simpa [hsub] using h.submitted
  · simpa [hids, hrem, hret] using h.partition
  · simpa [hids, htrig, hret] using h.triggered
  · simpa [htrig] using h.fifo

theorem finish (h : JobQueueInv max tr s) {c : Cursor AipuJob} (flag : ℤ)
    (hqueue : s.jm.scheduledQueue = c.toList) (hstate : c.entry.state = .sched) :
    JobQueueInv max (tr ++ [.ended c.entry.id c.entry.sessionJob flag c.entry.validFlag])
      { s with
        jm := { s.jm with
          scheduledQueue :=
            c.before ++ { c.entry with state := .finished, exceptionFlag := flag } :: c.after
          schedNum := if s.jm.schedNum ≠ 0 then s.jm.schedNum - 1 else s.jm.schedNum } } := by
  have hcount : s.jm.schedNum =
      ((c.before.countP fun j => j.state = .sched) + 1 +
        c.after.countP fun j => j.state = .sched : ℕ) := by
    rw [h.schedNum, hqueue, Cursor.toList, List.countP_append,
      List.countP_cons_of_pos (by simp [hstate])]
    omega
  refine h.inPlace ?_ ⟨rfl, rfl, rfl, rfl⟩ ?_ ?_ ?_
  · simp [hqueue, Cursor.toList]
  · intro j hj
    simp only [List.mem_append, List.mem_cons] at hj
    rcases hj with hj | rfl | hj
    · exact h.schedState j (hqueue ▸ Cursor.mem_toList.mpr (.inl hj))
    · exact .inr rfl
    · exact h.schedState j (hqueue ▸ Cursor.mem_toList.mpr (.inr (.inr hj)))
  · rw [if_pos (by omega), List.countP_append, List.countP_cons_of_neg (by simp), hcount]
    push_cast
    omega
  · split <;> omega

theorem invalidate (h : JobQueueInv max tr s) {job : AipuJob}
    (hjob : job ∈ s.jm.scheduledQueue) :
    JobQueueInv max (tr ++ [.invalidated job.id]) { s with jm := s.jm.clearValid job.id } := by
  rw [h.nodup.clearValid_sched hjob]
  refine h.inPlace ?_ ⟨rfl, rfl, rfl, rfl⟩ ?_ ?_ (Int.le_refl _)
  · simp only [jobIds, List.map_map]
    refine List.map_congr_left fun j _ => ?_
    simp only [Function.comp]
    split <;> rfl
  · intro j hj
    obtain ⟨j', hj', rfl⟩ := List.mem_map.mp hj
    have := h.schedState j' hj'
    split <;> exact this
  · rw [h.schedNum, List.countP_map]
    congr 2
    funext j
    simp only [Function.comp]
    split <;> rfl

theorem remove (h : JobQueueInv max tr s) {job : AipuJob} (hjob : job ∈ s.jm.pendingQueue) :
    JobQueueInv max (tr ++ [.removed job.id]) { s with jm := s.jm.listDel job.id } := by
  rw [h.nodup.listDel_pending hjob]
  have hperm := jobIds_perm_filter h.nodup.pending hjob
  refine ⟨h.noReset, ?_, ?_, ?_, ?_, ?_, h.schedState, h.maxSchedNum, h.schedNum, h.schedNum_le⟩
  · simpa [JmEvent.submits] using h.submitted
  · rw [List.perm_iff_count]
    intro a
    have hcount := (List.perm_iff_count.mp h.partition) a
    have hdel := (List.perm_iff_count.mp hperm) a
    simp only [List.count_append, List.count_cons] at hcount hdel
    simp only [removedJobs_snoc, retiredJobs_snoc, JmEvent.removes, JmEvent.retires,
      Option.toList, List.append_nil, List.count_append, List.count_cons, List.count_nil]
    omega
  · simpa [JmEvent.triggers, JmEvent.retires] using h.triggered
  · have hsub : (jobIds (s.jm.pendingQueue.filter fun j => j.id ≠ job.id)).Sublist
        (jobIds s.jm.pendingQueue) := List.Sublist.map _ List.filter_sublist
    simpa [JmEvent.triggers] using (List.Sublist.append_left hsub (triggeredJobs tr)).trans h.fifo
  · intro j hj
    exact h.pendingState j (List.mem_of_mem_filter hj)

theorem retire (h : JobQueueInv max tr s) {job : AipuJob} (hjob : job ∈ s.jm.scheduledQueue)
    (hstate : job.state = .finished) :
    JobQueueInv max (tr ++ [.retired job.id]) { s with jm := s.jm.listDel job.id } := by
  rw [h.nodup.listDel_sched hjob]
  have hperm := jobIds_perm_filter h.nodup.sched hjob
  refine ⟨h.noReset, ?_, ?_, ?_, ?_, h.pendingState, ?_, h.maxSchedNum, ?_, h.schedNum_le⟩
  · simpa [JmEvent.submits] using h.submitted
  · rw [List.perm_iff_count]
    intro a
    have hcount := (List.perm_iff_count.mp h.partition) a
    have hdel := (List.perm_iff_count.mp hperm) a
    simp only [List.count_append, List.count_cons] at hcount hdel
    simp only [removedJobs_snoc, retiredJobs_snoc, JmEvent.removes, JmEvent.retires,
      Option.toList, List.append_nil, List.count_append, List.count_cons, List.count_nil]
    omega
  · rw [List.perm_iff_count]
    intro a
    have hcount := (List.perm_iff_count.mp h.triggered) a
    have hdel := (List.perm_iff_count.mp hperm) a
    simp only [List.count_append, List.count_cons] at hcount hdel
    simp only [triggeredJobs_snoc, retiredJobs_snoc, JmEvent.triggers, JmEvent.retires,
      Option.toList, List.append_nil, List.count_append, List.count_cons, List.count_nil]
    omega
  · simpa [JmEvent.triggers] using h.fifo
  · intro j hj
    exact h.schedState j (List.mem_of_mem_filter hj)
  · dsimp only
    rw [h.schedNum, List.countP_filter]
    congr 1
    refine List.countP_congr fun j hj => ?_
    -- the job taken off the queue is not one of the scheduled ones
    have hne : j.state = .sched → j.id ≠ job.id := by
      intro hsched heq
      rw [eq_of_id_eq h.nodup.sched hj hjob heq, hstate] at hsched
      cases hsched
    simpa using hne

/-- Every move keeps the invariant. -/
theorem move {s' : JmState} {es : List JmEvent} (h : JobQueueInv max tr s)
    (hmove : JmMove s es s') : JobQueueInv max (tr ++ es) s' := by
  cases hmove with
  | control hjm hnext =>
    obtain ⟨h0, h1, h2, h3, h4, h5, h6, h7, h8, h9⟩ := h
    rw [List.append_nil]
    exact ⟨by rwa [hjm], hnext ▸ h1, by rwa [hjm, hnext], by rwa [hjm], by rwa [hjm, hnext],
      by rwa [hjm], by rwa [hjm], by rwa [hjm], by rwa [hjm], by rwa [hjm]⟩
  | @note e he =>
    have hnone : e.submits = none ∧ e.triggers = none ∧ e.removes = none ∧ e.retires = none := by
      cases e <;> simp_all [JmEvent.isNote, JmEvent.submits, JmEvent.triggers, JmEvent.removes,
        JmEvent.retires]
    exact h.inPlace rfl hnone h.schedState h.schedNum (Int.le_refl _)
  | enqueue sub => exact h.enqueue sub
  | trigger hpending hmax => exact h.trigger hpending hmax
  | finish flag hqueue hstate => exact h.finish flag hqueue hstate
  | invalidate hjob hstate => exact h.invalidate hjob
  | remove hjob => exact h.remove hjob
  | retire hjob hstate => exact h.retire hjob hstate

/-- A sequence of moves keeps the invariant. -/
theorem moves {s' : JmState} {es : List JmEvent} (h : JobQueueInv max tr s)
    (hmoves : JmMoves s es s') : JobQueueInv max (tr ++ es) s' := by
  induction hmoves with
  | refl => simpa using h
  | tail _ hmove ih =>
    rw [← List.append_assoc]
    exact ih.move hmove

end JobQueueInv

/-- The invariant rule for moves: what every move keeps from a state with the invariant of the
queues, a sequence of moves keeps. -/
theorem JmMoves.invariant {max : ℤ} {I : List JmEvent → JmState → Prop}
    (hkeep : ∀ {tr s es s'}, JobQueueInv max tr s → JmMove s es s' → I tr s → I (tr ++ es) s')
    {tr : List JmEvent} {s s' : JmState} {es : List JmEvent} (hinv : JobQueueInv max tr s)
    (h : JmMoves s es s') (hI : I tr s) : I (tr ++ es) s' := by
  induction h with
  | refl => simpa using hI
  | tail hmoves hmove ih =>
    rw [← List.append_assoc]
    exact hkeep (hinv.moves hmoves) hmove ih

end Aipu
