import AipuDriver.Kmd.DriverJobs

/-!
# Isolation of the sessions in the job manager

A release cancels the jobs whose session was opened by the same process, and a kill invalidates the
first job of the calling thread with the id; neither looks at the session itself.  For every
reachable state, `Kmd.Isolated` is the exact condition under which a step made through a session
leaves the jobs of all other sessions as they are.
-/

namespace Aipu

open ListSearch Transition

/-! ## Other sessions -/

/-- The jobs of the other sessions are queued as before, and none of them has changed. -/
def AipuJobManager.OthersUnchanged (session : ℕ) (jm jm' : AipuJobManager) : Prop :=
  jm'.pendingQueue.filter (·.session ≠ session) = jm.pendingQueue.filter (·.session ≠ session) ∧
    jm'.scheduledQueue.filter (·.session ≠ session) =
      jm.scheduledQueue.filter (·.session ≠ session)

/-- The job that a kill by the thread finds: the first pending one with the id, or else the first
scheduled one. -/
def AipuJobManager.timeoutJob (jm : AipuJobManager) (tid : ℤ) (jobId : ℕ) : Option AipuJob :=
  match seek (fun job => job.uthreadId = tid ∧ job.desc.jobId = jobId) jm.pendingQueue with
  | some c => some c.entry
  | none =>
    (seek (fun job => job.uthreadId = tid ∧ job.desc.jobId = jobId) jm.scheduledQueue).map
      Cursor.entry

/-- The session through which a kill or a step of a release is made. -/
def KmdAction.through : KmdAction → Option ℕ
  | .kill file .. | .relCancel file _ | .relDelete file | .relFree file | .relDetach file
  | .relDestroy file => some file
  | _ => none

/-- A release finds no active job of another session that was opened by the same process, and the
job that a kill finds is no active job of another session. -/
def Kmd.Isolated (k : Kmd) (session : ℕ) : KmdAction → Prop
  | .relCancel _ _ => ∀ f ∈ k.files, f.id = session → ∀ g ∈ k.files, g.id ≠ session →
      g.session.userPid = f.session.userPid → ∀ j ∈ k.js.jm.jobs, j.session = g.id → ¬j.Active
  | .kill _ tid jobId _ => ∀ j ∈ k.js.jm.timeoutJob tid jobId, j.Active → j.session = session
  | _ => True

instance (k : Kmd) (session : ℕ) : DecidablePred (k.Isolated session) := fun a => by
  rcases a <;> unfold Kmd.Isolated <;> infer_instance

section Lists

variable {l before after : List AipuJob} {job : AipuJob} {session : ℕ}

/-- Taking a job out of a list leaves the jobs of the others if and only if it is the session's. -/
theorem others_remove_iff :
    (before ++ after).filter (·.session ≠ session) =
      (before ++ job :: after).filter (·.session ≠ session) ↔ job.session = session := by
  constructor
  · intro h
    by_contra hne
    have hlen := congrArg List.length h
    rw [List.filter_append, List.filter_append,
      List.filter_cons_of_pos (by simpa using hne)] at hlen
    simp only [List.length_append, List.length_cons] at hlen
    omega
  · intro h
    rw [List.filter_append, List.filter_append, List.filter_cons_of_neg (by simpa using h)]

/-- Changing a job in place leaves the jobs of the others if and only if it is the session's or it
does not change. -/
theorem others_replace_iff {job' : AipuJob} (hsession : job'.session = job.session) :
    (before ++ job' :: after).filter (·.session ≠ session) =
      (before ++ job :: after).filter (·.session ≠ session) ↔
        job.session = session ∨ job' = job := by
  rw [List.filter_append, List.filter_append]
  by_cases h : job.session = session
  · rw [List.filter_cons_of_neg (by simp [hsession, h]), List.filter_cons_of_neg (by simp [h])]
    simp [h]
  · rw [List.filter_cons_of_pos (by simp [hsession, h]), List.filter_cons_of_pos (by simp [h])]
    simp [h]

/-- A filter leaves the jobs of the others if and only if it keeps all of them. -/
theorem others_filter_iff {p : AipuJob → Prop} [DecidablePred p] :
    (l.filter fun j => p j).filter (·.session ≠ session) = l.filter (·.session ≠ session) ↔
      ∀ j ∈ l, j.session ≠ session → p j := by
  rw [List.filter_filter]
  constructor
  · intro h j hj hne
    have hmem : j ∈ l.filter (·.session ≠ session) :=
      List.mem_filter.mpr ⟨hj, by simpa using hne⟩
    rw [← h] at hmem
    simpa [hne] using (List.mem_filter.mp hmem).2
  · intro h
    refine List.filter_congr fun j hj => ?_
    by_cases hne : j.session = session
    · simp [hne]
    · simp [hne, h j hj hne]

/-- A change of every job in place leaves the jobs of the others if and only if it changes none of
them. -/
theorem others_map_iff {g : AipuJob → AipuJob} (hsession : ∀ j, (g j).session = j.session) :
    (l.map g).filter (·.session ≠ session) = l.filter (·.session ≠ session) ↔
      ∀ j ∈ l, j.session ≠ session → g j = j := by
  induction l with
  | nil => simp
  | cons j l ih =>
    rw [List.map_cons, List.forall_mem_cons]
    by_cases h : j.session = session
    · rw [List.filter_cons_of_neg (by simp [hsession, h]),
        List.filter_cons_of_neg (by simp [h]), ih]
      simp [h]
    · rw [List.filter_cons_of_pos (by simp [hsession, h]), List.filter_cons_of_pos (by simp [h]),
        List.cons.injEq, ih]
      simp [h]

end Lists

/-! ## Release and kill -/

section Requests

variable {k k' : Kmd} {a : KmdAction} {es : List KmdEvent} {max : ℤ} {jtr : List JmEvent}
  {mem : SessionMem} {s : JmState} {session : ℕ}

theorem AipuJobManager.OthersUnchanged.refl (session : ℕ) (jm : AipuJobManager) :
    jm.OthersUnchanged session jm := ⟨rfl, rfl⟩

/-- Clearing the valid flag changes a job if and only if it was set. -/
theorem AipuJob.clearValid_eq_self_iff {job : AipuJob} :
    { job with validFlag := false } = job ↔ job.validFlag = false := by
  constructor
  · intro h
    rw [← h]
  · intro h
    cases job
    simp_all

/-- A cancel changes a scheduled job if and only if it concerns it and the job is running and
valid. -/
theorem SessionMem.cancel_eq_self_iff {job : AipuJob} :
    mem.cancel session job = job ↔
      ¬(mem.Cancels session job ∧ job.state = .sched ∧ job.validFlag = true) := by
  unfold SessionMem.cancel
  by_cases h : mem.Cancels session job ∧ job.state = .sched
  · rw [if_pos h, AipuJob.clearValid_eq_self_iff]
    simp only [h.1, h.2, true_and, Bool.not_eq_true]
  · rw [if_neg h]
    tauto

/-- A cancel leaves the jobs of the other sessions if and only if it concerns no active one. -/
theorem cancel_others_iff (hq : JobQueueInv max jtr s) :
    s.jm.OthersUnchanged session (aipuJobManagerCancelSessionJobs mem session s.jm).1 ↔
      ∀ j ∈ s.jm.jobs, j.session ≠ session → j.Active → ¬mem.Cancels session j := by
  have hsame : ∀ j, (mem.cancel session j).session = j.session := by
    intro j
    unfold SessionMem.cancel
    split <;> rfl
  rw [aipuJobManagerCancelSessionJobs_eq hq, AipuJobManager.OthersUnchanged, others_filter_iff,
    others_map_iff hsame, AipuJobManager.jobs, List.forall_mem_append]
  refine and_congr (forall₂_congr fun j hj => ?_) (forall₂_congr fun j hj => ?_)
  · simp [AipuJob.Active, hq.pendingState j hj]
  · rw [SessionMem.cancel_eq_self_iff]
    rcases hq.schedState j hj with hstate | hstate
    · cases hvalid : j.validFlag <;> simp [AipuJob.Active, hstate, hvalid]
    · simp [AipuJob.Active, hstate]

/-- A kill leaves the jobs of the other sessions if and only if the job that it finds is no active
job of one of them. -/
theorem kill_others_iff (hq : JobQueueInv max jtr s) {tid : ℤ} {jobId : ℕ} :
    s.jm.OthersUnchanged session (aipuInvalidateTimeoutJob mem tid jobId s.jm).2.1 ↔
      ∀ j ∈ s.jm.timeoutJob tid jobId, j.Active → j.session = session := by
  rw [aipuInvalidateTimeoutJob_eq hq, AipuJobManager.timeoutJob]
  cases hp : seek (fun job => job.uthreadId = tid ∧ job.desc.jobId = jobId) s.jm.pendingQueue with
  | some c =>
    obtain ⟨hqueue, -, -⟩ := seek_eq_some hp
    have hactive : c.entry.Active := .inl (hq.pendingState c.entry (hqueue ▸ c.entry_mem))
    simp only [AipuJobManager.OthersUnchanged, and_true, Option.mem_some_iff]
    rw [hqueue, Cursor.toList, others_remove_iff]
    constructor
    · rintro h j rfl -
      exact h
    · exact fun h => h c.entry rfl hactive
  | none =>
    cases hs : seek (fun job => job.uthreadId = tid ∧ job.desc.jobId = jobId)
        s.jm.scheduledQueue with
    | none => simp [-Bool.decide_and, AipuJobManager.OthersUnchanged]
    | some c =>
      obtain ⟨hqueue, -, -⟩ := seek_eq_some hs
      have hentry : ∀ P : AipuJob → Prop, (∀ j ∈ (some c).map Cursor.entry, P j) ↔ P c.entry := by
        simp
      rw [hentry]
      rcases hq.schedState c.entry (hqueue ▸ c.entry_mem) with hstate | hstate
      · dsimp only
        rw [if_pos hstate]
        dsimp only [AipuJobManager.OthersUnchanged]
        rw [eq_self, true_and, hqueue, Cursor.toList]
        refine (others_replace_iff ?_).trans ?_
        · rfl
        · rw [AipuJob.clearValid_eq_self_iff]
          cases hvalid : c.entry.validFlag <;> simp [AipuJob.Active, hstate, hvalid]
      · simp [hstate, AipuJobManager.OthersUnchanged, AipuJob.Active]

/-- The process id that the job manager reads for the session of a file. -/
theorem Kmd.mem_userPid (hI : k.FilesFresh) {f : KmdFile} (hf : f ∈ k.files) (stale : SessionMem) :
    (k.mem stale).userPid f.id = f.session.userPid := by
  unfold Kmd.mem
  dsimp only
  cases hc : seek (fun g : KmdFile => g.id = f.id) k.files with
  | none =>
    have hnone := seek_eq_none.mp hc f hf
    simp at hnone
  | some c =>
    obtain ⟨hl, hid, -⟩ := seek_eq_some hc
    have hid : c.entry.id = f.id := by simpa using hid
    rw [← hI.eq_of_id (hl ▸ c.entry_mem) hf hid]

/-- Comparing process ids concerns an active job of another session if and only if its session was
opened by the same process. -/
theorem Kmd.JobsInv.cancels_iff (hI : k.JobsInv) {f : KmdFile} (hf : f ∈ k.files)
    (stale : SessionMem) :
    (∀ j ∈ k.js.jm.jobs, j.session ≠ f.id → j.Active → ¬(k.mem stale).Cancels f.id j) ↔
      ∀ g ∈ k.files, g.id ≠ f.id → g.session.userPid = f.session.userPid →
        ∀ j ∈ k.js.jm.jobs, j.session = g.id → ¬j.Active := by
  constructor
  · intro h g hg hne hpid j hj hsession hactive
    refine h j hj (hsession ▸ hne) hactive ?_
    rw [SessionMem.Cancels, hsession, Kmd.mem_userPid hI.files hg,
      Kmd.mem_userPid hI.files hf, hpid]
  · intro h j hj hne hactive hcancel
    obtain ⟨g, hg, hid, -⟩ := hI.active j hj hactive
    refine h g hg (hid ▸ hne) ?_ j hj hid.symm hactive
    rwa [SessionMem.Cancels, ← hid, Kmd.mem_userPid hI.files hg,
      Kmd.mem_userPid hI.files hf] at hcancel

end Requests

/-! ## Steps -/

/-- **Isolation.**  In every reachable state, a kill or a step of a release that is made through a
session leaves the queue places, the states and the valid flags of all other sessions' jobs as they
are if and only if it is isolated: a release finds no active job of another session opened by the
same process, and the job that a kill finds is no active job of another session. -/
theorem session_isolation (version : AipuVersion) (map : MemoryMap) {maxSchedNum : ℤ}
    (hmax : 1 ≤ maxSchedNum) {tr : List KmdEvent} {k k' : Kmd} {a : KmdAction}
    {es : List KmdEvent} {session : ℕ}
    (h : (kmdSystem version map maxSchedNum).Run anyStep tr k)
    (hst : kmdStep k a = some (k', es)) (ha : a.through = some session) :
    k.js.jm.OthersUnchanged session k'.js.jm ↔ k.Isolated session a := by
  have hmax : 0 ≤ maxSchedNum := Int.le_of_lt hmax
  have hI := kmdSystem_jobs hmax h
  obtain ⟨hq, -⟩ := kmdSystem_jm hmax h
  have hsame : k'.js = k.js → (k.js.jm.OthersUnchanged session k'.js.jm ↔ True) := fun hjs => by
    rw [hjs]
    exact iff_true_intro (.refl session k.js.jm)
  cases a with
  | kill file tid jobId stale =>
    obtain ⟨js, jes, hjm, rfl, -⟩ := killTimeoutJob_cases hst
    obtain ⟨rfl, -⟩ := Prod.mk.inj (Option.some.inj hjm)
    exact kill_others_iff hq
  | relCancel file stale =>
    obtain rfl : file = session := Option.some.inj ha
    obtain ⟨c, js, jes, hc, -, -, hjm, rfl, -⟩ := releaseCancel_cases hst
    obtain ⟨rfl, -⟩ := Prod.mk.inj (Option.some.inj hjm)
    obtain ⟨hl, rfl, -⟩ := Kmd.inPhase_eq_some hc
    have hf : c.entry ∈ k.files := hl ▸ c.entry_mem
    refine ((cancel_others_iff hq).trans (hI.cancels_iff hf stale)).trans ?_
    constructor
    · intro hothers f hf' hid
      obtain rfl := hI.files.eq_of_id hf' hf hid
      exact hothers
    · exact fun hothers => hothers c.entry hf rfl
  | relDelete file =>
    obtain ⟨c, -, -, rfl⟩ := releaseDelete_cases hst
    exact hsame rfl
  | relFree file =>
    obtain ⟨c, -, ⟨-, rfl, -⟩ | ⟨sbuf, rest, desc, -, -, -, rfl, -⟩⟩ := releaseFree_cases hst <;>
      exact hsame rfl
  | relDetach file =>
    obtain ⟨c, desc, -, -, -, ⟨d, -, rfl⟩ | ⟨-, rfl⟩⟩ := releaseDetach_cases hst <;>
      exact hsame rfl
  | relDestroy file =>
    obtain ⟨c, ret, -, -, ⟨-, -, rfl⟩ | ⟨-, rfl⟩⟩ := releaseDestroy_cases hst <;> exact hsame rfl
  | _ => cases ha

/-! ## Sample runs -/

/-- Two sessions of the processes `pid` and `pid'` in the thread 7; the job of the second one is
running and has the id 1. -/
def twoSessions (pid pid' : ℤ) : List KmdAction :=
  [.openFile pid [], .openFile pid' [], .runAdd 1 7 { desc := { jobId := 1 } } [],
    .runSchedule 1 { desc := { jobId := 1 } } (initSessionJob 0 7 { jobId := 1 }) true sampleMem]

/-- The release of a session leaves the running job of another process alone. -/
theorem session_isolation_sample :
    ∃ tr k k' es, (kmdSystem .zhouyiV2 sampleMap 1).Run anyStep tr k ∧
      kmdStep k (.relCancel 0 sampleMem) = some (k', es) ∧
      k'.js.jm.scheduledQueue.map (·.validFlag) = [true] ∧
      k.js.jm.OthersUnchanged 0 k'.js.jm := by
  obtain ⟨k, tr, hexec, k', es, hst, hvalid, hisolated⟩ : ∃ k tr,
      (kmdSystem .zhouyiV2 sampleMap 1).exec anyStep sampleKmd (twoSessions 7 9) = some (k, tr) ∧
      ∃ k' es, kmdStep k (.relCancel 0 sampleMem) = some (k', es) ∧
        k'.js.jm.scheduledQueue.map (·.validFlag) = [true] ∧
        k.Isolated 0 (.relCancel 0 sampleMem) :=
    ⟨_, _, rfl, _, _, rfl, rfl, by decide⟩
  have hrun := System.run_of_exec sampleKmd_init hexec
  exact ⟨tr, k, k', es, hrun, hst, hvalid,
    (session_isolation .zhouyiV2 sampleMap (by decide) hrun hst rfl).mpr hisolated⟩

/-- Two sessions of one process: the release of the first one invalidates the running job of the
second one, and so does a kill of its job id through the first one. -/
theorem sessions_not_isolated :
    ∃ tr k, (kmdSystem .zhouyiV2 sampleMap 1).Run anyStep tr k ∧
      (∃ k' es, kmdStep k (.relCancel 0 sampleMem) = some (k', es) ∧
        ¬k.js.jm.OthersUnchanged 0 k'.js.jm) ∧
      ∃ k' es, kmdStep k (.kill 0 7 1 sampleMem) = some (k', es) ∧
        ¬k.js.jm.OthersUnchanged 0 k'.js.jm := by
  have hchanged : ∀ {jm jm' : AipuJobManager}, (jm.scheduledQueue.filter (·.session ≠ 0)).map
      (·.validFlag) = [true] → (jm'.scheduledQueue.filter (·.session ≠ 0)).map
      (·.validFlag) = [false] → ¬jm.OthersUnchanged 0 jm' := by
    rintro jm jm' h h' ⟨-, hsame⟩
    rw [hsame, h] at h'
    cases h'
  obtain ⟨k, tr, hexec, hvalid, ⟨k₁, es₁, hst₁, hcleared₁⟩, k₂, es₂, hst₂, hcleared₂⟩ : ∃ k tr,
      (kmdSystem .zhouyiV2 sampleMap 1).exec anyStep sampleKmd (twoSessions 7 7) = some (k, tr) ∧
      (k.js.jm.scheduledQueue.filter (·.session ≠ 0)).map (·.validFlag) = [true] ∧
      (∃ k' es, kmdStep k (.relCancel 0 sampleMem) = some (k', es) ∧
        (k'.js.jm.scheduledQueue.filter (·.session ≠ 0)).map (·.validFlag) = [false]) ∧
      ∃ k' es, kmdStep k (.kill 0 7 1 sampleMem) = some (k', es) ∧
        (k'.js.jm.scheduledQueue.filter (·.session ≠ 0)).map (·.validFlag) = [false] :=
    ⟨_, _, rfl, rfl, ⟨_, _, rfl, rfl⟩, _, _, rfl, rfl⟩
  exact ⟨tr, k, System.run_of_exec sampleKmd_init hexec, ⟨k₁, es₁, hst₁, hchanged hvalid hcleared₁⟩,
    k₂, es₂, hst₂, hchanged hvalid hcleared₂⟩

end Aipu
