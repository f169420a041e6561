import AipuDriver.Kmd.FileEdits
import AipuDriver.Kmd.JobEffects
import AipuDriver.Kmd.Ownership

/-!
# Jobs and sessions

What a step of the driver does to the files (`FileStep`, `FilesStep`), to the job manager and to the
RUNJOB calls in progress, each said once for all steps, and the invariant that follows for every
run: a job that is pending, or running and valid, belongs to an open file whose list holds its
session job, and no session job belongs to two jobs.
-/

namespace Aipu

open ListSearch Transition

/-! ## Files -/

/-- The step starts the release of the file. -/
def KmdAction.Cancels (a : KmdAction) (file : ℕ) : Prop := ∃ stale, a = .relCancel file stale

/-- The step runs `aipu_session_job_done` for the session job. -/
def KmdAction.Reports (a : KmdAction) (k : Kmd) (sessionJob : ℕ) : Prop :=
  a = .bhDone ∧ ∃ curr, k.js.bh.callingJob = some curr ∧ curr.sessionJob = sessionJob

/-- The step takes the range from the buffers of the file. -/
def KmdAction.Takes (a : KmdAction) (f : KmdFile) (range : ℕ × ℕ) : Prop :=
  (∃ desc, a = .freeDetach f.id desc ∧ desc.range = range) ∨
    (a = .relFree f.id ∧ f.session.sbufList.head?.map SessionBuf.range = some range) ∨
    a = .relDetach f.id

/-- What a step makes of a file. -/
structure FileStep (k : Kmd) (a : KmdAction) (f f' : KmdFile) : Prop where
  id : f'.id = f.id
  userPid : f'.session.userPid = f.session.userPid
  /-- Only the start of its release ends the phase `opened` of a file. -/
  opened : f.phase = .opened → f'.phase = .opened ∨ a.Cancels f.id
  /-- No step brings a file back into the phase `opened`. -/
  notReopened : f'.phase = .opened → f.phase = .opened
  /-- A session job that has not ended stays, except where all are deleted or it is reported. -/
  kept : ∀ sj ∈ f.session.jobList, sj.state ≠ .finished →
    sj ∈ f'.session.jobList ∨ (a = .relDelete f.id ∧ f.phase = .canceled) ∨ a.Reports k sj.id
  /-- A session job in the list was there, or it was just reported, or it is new. -/
  origin : ∀ sj' ∈ f'.session.jobList, sj' ∈ f.session.jobList ∨
    (∃ sj ∈ f.session.jobList, sj' = sj.done) ∨
    ∃ tid desc, sj' = initSessionJob k.nextSessionJob tid desc
  /-- The file keeps the ranges that it owns, except those that the step takes from it. -/
  owned : ∀ range ∈ f.owned, range ∈ f'.owned ∨ a.Takes f range

/-- A step that does not concern a file leaves it as it is. -/
theorem FileStep.refl (k : Kmd) (a : KmdAction) (f : KmdFile) : FileStep k a f f where
  id := rfl
  userPid := rfl
  opened h := .inl h
  notReopened h := h
  kept _ h _ := .inl h
  origin _ h := .inl h
  owned _ h := .inl h

/-- A step in the phase `opened` that changes only the buffers and how the session polls. -/
theorem FileStep.of_bufs {k : Kmd} {a : KmdAction} {f f' : KmdFile} (hid : f'.id = f.id)
    (hphase : f'.phase = f.phase) (hpid : f'.session.userPid = f.session.userPid)
    (hjobs : f'.session.jobList = f.session.jobList)
    (howned : ∀ range ∈ f.owned, range ∈ f'.owned ∨ a.Takes f range) : FileStep k a f f' where
  id := hid
  userPid := hpid
  opened h := .inl (hphase.trans h)
  notReopened h := hphase.symm.trans h
  kept _ h _ := .inl (hjobs ▸ h)
  origin _ h := .inl (hjobs ▸ h)
  owned := howned

/-- What a step makes of all files. -/
def FilesStep (k : Kmd) (a : KmdAction) (k' : Kmd) : Prop := FilesChange (FileStep k a) k a k'

section Files

variable {k k' : Kmd} {a : KmdAction} {es : List KmdEvent}

/-- A file is still there after a step, unless its session was destroyed. -/
theorem FilesStep.of_mem (h : FilesStep k a k') {f : KmdFile} (hf : f ∈ k.files) :
    (∃ f' ∈ k'.files, FileStep k a f f') ∨ (a = .relDestroy f.id ∧ f.phase = .buffersFreed ∧
      f.session.jobList = [] ∧ f.session.sbufList = []) := by
  rcases FilesChange.of_mem h hf with hf' | hedited | hdestroyed
  · exact .inl ⟨f, hf', .refl k a f⟩
  · exact .inl hedited
  · exact .inr hdestroyed

/-- A file was there before the step, or it was just opened. -/
theorem FilesStep.mem_of (h : FilesStep k a k') {f' : KmdFile} (hf' : f' ∈ k'.files) :
    (∃ f ∈ k.files, FileStep k a f f') ∨
      ∃ pid, f' = ⟨k.nextFile, { userPid := pid }, .opened, []⟩ := by
  rcases FilesChange.mem_of h hf' with hf | hedited | hopened
  · exact .inl ⟨f', hf, .refl k a f'⟩
  · exact .inl hedited
  · exact .inr hopened

/-- The numbers of the files are different and below the next one. -/
structure Kmd.FilesFresh (k : Kmd) : Prop where
  nodup : (k.files.map KmdFile.id).Nodup
  lt : ∀ f ∈ k.files, f.id < k.nextFile

/-- Files keep their numbers, and a new file gets a new one. -/
theorem FilesStep.fresh (h : FilesStep k a k') (hI : k.FilesFresh) : k'.FilesFresh := by
  obtain ⟨hnodup, hlt⟩ := hI
  cases h with
  | same hfiles hnext => exact ⟨hfiles ▸ hnodup, by rwa [hfiles, hnext]⟩
  | opened pid hfiles hnext =>
    have hnew : ∀ f ∈ k.files, f.id ≠ k.nextFile := fun f hf => Nat.ne_of_lt (hlt f hf)
    constructor
    · rw [hfiles, List.map_cons, List.nodup_cons]
      exact ⟨by simpa using hnew, hnodup⟩
    · rw [hfiles, hnext]
      exact List.forall_mem_cons.mpr ⟨Nat.lt_succ_self _, fun f hf => Nat.lt_succ_of_lt (hlt f hf)⟩
  | edited c f₁ hl hfiles hnext hstep =>
    constructor
    · rw [hl] at hnodup
      simpa [hfiles, Cursor.toList, hstep.id] using hnodup
    · rw [hnext]
      exact Kmd.forall_replaced (P := fun f => f.id < k.nextFile) hlt hl hfiles
        (fun hf => hstep.id ▸ hf)
  | closed c hl hfiles hnext =>
    have hsub : (c.before ++ c.after).Sublist k.files := by
      rw [hl]
      exact (List.Sublist.refl _).append (List.sublist_cons_self _ _)
    constructor
    · rw [hfiles]
      exact hnodup.sublist (hsub.map _)
    · rw [hfiles, hnext]
      exact fun f hf => hlt f (hsub.subset hf)

/-- Two files with the same number are the same. -/
theorem Kmd.FilesFresh.eq_of_id (h : k.FilesFresh) {f g : KmdFile} (hf : f ∈ k.files)
    (hg : g ∈ k.files) (hid : f.id = g.id) : f = g :=
  List.inj_on_of_nodup_map h.nodup hf hg hid

/-- Every edit is such a step of the file. -/
theorem FileEdit.step {f f' : KmdFile} (h : FileEdit k k' es a f f') : FileStep k a f f' := by
  cases h with
  | reqAdd req buf hphase =>
    refine .of_bufs rfl rfl rfl rfl fun range hr => .inl ?_
    rw [KmdFile.owned_eq (by simp [hphase])] at hr ⊢
    exact List.mem_cons_of_mem _ hr
  | freeDetach desc d hphase hd =>
    refine .of_bufs rfl rfl rfl rfl fun range hr => ?_
    obtain ⟨hbufs, hrange, -⟩ := findBufferBydescNoLock_eq_some hd
    rw [KmdFile.owned_eq (by simp [hphase]), hbufs] at hr
    rw [KmdFile.owned_eq (by simp [hphase])]
    simp only [Cursor.toList, List.map_append, List.map_cons, List.mem_append,
      List.mem_cons, hrange] at hr ⊢
    rcases hr with hr | rfl | hr
    · exact .inl (.inl hr)
    · exact .inr (.inl ⟨desc, rfl, rfl⟩)
    · exact .inl (.inr hr)
  | mmap vma err d range hphase hd =>
    refine .of_bufs rfl rfl rfl rfl fun range hr => .inl ?_
    rw [KmdFile.owned_eq (by simp [hphase]), (seek_eq_some hd).1] at hr
    rw [KmdFile.owned_eq (by simp [hphase])]
    simpa [Cursor.toList, SessionBuf.range] using hr
  | munmap | pollRegister => exact .of_bufs rfl rfl rfl rfl fun _ hr => .inl hr
  | runAdd tid userJob =>
    refine ⟨rfl, rfl, .inl, id, fun sj hsj _ => .inl (List.mem_cons_of_mem _ hsj),
      fun sj' hsj' => ?_, fun _ hr => .inl hr⟩
    rcases List.mem_cons.mp hsj' with rfl | hsj'
    · exact .inr (.inr ⟨tid, userJob.desc, rfl⟩)
    · exact .inl hsj'
  | query query kzOk notCopied notCopiedQuery kept taken hphase hperm hsub hmatch =>
    refine ⟨rfl, rfl, .inl, id, fun sj hsj hstate => .inl ?_,
      fun sj' hsj' => .inl (hsub.subset hsj'), fun _ hr => .inl hr⟩
    exact JobStatusQuery.kept_of_not_finished hperm hmatch hsj hstate
  | done curr next d hbh _ hlist hdid =>
    refine ⟨rfl, rfl, .inl, id, fun sj hsj _ => ?_, fun sj' hsj' => ?_, fun _ hr => .inl hr⟩
    · rw [hlist, Cursor.mem_toList] at hsj
      rcases hsj with hsj | rfl | hsj
      · exact .inl (List.mem_append_left _ hsj)
      · exact .inr (.inr ⟨rfl, curr, by rw [hbh]; rfl, hdid.symm⟩)
      · exact .inl (List.mem_append_right _ (List.mem_cons_of_mem _ hsj))
    · rw [hlist]
      rcases List.mem_append.mp hsj' with hsj' | hsj'
      · exact .inl (Cursor.mem_toList.mpr (.inl hsj'))
      rcases List.mem_cons.mp hsj' with rfl | hsj'
      · exact .inr (.inl ⟨d.entry, d.entry_mem, rfl⟩)
      · exact .inl (Cursor.mem_toList.mpr (.inr (.inr hsj')))
  | relCancel stale hphase =>
    refine ⟨rfl, rfl, fun _ => .inr ⟨stale, rfl⟩, ?_, fun _ hsj _ => .inl hsj,
      fun _ hsj' => .inl hsj', fun range hr => .inl ?_⟩
    · rintro ⟨⟩
    · rwa [KmdFile.owned_eq (by simp [hphase])] at hr
  | relDelete hphase =>
    refine ⟨rfl, rfl, fun h => by simp [hphase] at h, ?_, fun _ _ _ => .inr (.inl ⟨rfl, hphase⟩),
      fun _ h => (List.not_mem_nil h).elim, fun range hr => .inl ?_⟩
    · rintro ⟨⟩
    · rwa [KmdFile.owned_eq (by simp [hphase])] at hr
  | buffersFreed hphase | destroyFailed hphase =>
    refine ⟨rfl, rfl, fun h => by simp [hphase] at h, ?_, fun _ hsj _ => .inl hsj,
      fun _ hsj' => .inl hsj', fun range hr => .inl ?_⟩
    · rintro ⟨⟩
    · rwa [KmdFile.owned_eq (by simp [hphase])] at hr
  | relFree sbuf rest desc hphase hcons =>
    refine ⟨rfl, rfl, fun h => by simp [hphase] at h, ?_, fun _ hsj _ => .inl hsj,
      fun _ hsj' => .inl hsj', fun range hr => ?_⟩
    · intro h
      dsimp only at h
      split at h <;> cases h
    · rw [KmdFile.owned_eq (by simp [hphase]), hcons, List.map_cons, List.mem_cons] at hr
      rcases hr with rfl | hr
      · exact .inr (.inr (.inl ⟨rfl, by simp [hcons]⟩))
      · left
        unfold KmdFile.owned
        dsimp only
        split
        · simpa [hcons] using hr
        · simp only [hcons, List.map_cons]
          exact List.mem_cons_of_mem _ hr
  | relDetach desc d hphase | detachFailed desc hphase =>
    refine ⟨rfl, rfl, fun h => by simp [hphase] at h, ?_, fun _ hsj _ => .inl hsj,
      fun _ hsj' => .inl hsj', fun _ _ => .inr (.inr (.inr rfl))⟩
    rintro ⟨⟩

/-- **Files.**  What a step makes of the files. -/
theorem kmdStep_files (h : kmdStep k a = some (k', es)) : FilesStep k a k' :=
  (kmdStep_edits h).mono FileEdit.step

end Files

/-! ## The job manager -/

/-- The step of the job manager that a step of the driver makes, if any. -/
def KmdAction.jmAction (a : KmdAction) (k : Kmd) : Option JmAction :=
  match a with
  | .runSchedule file userJob kernJob true stale =>
    some (.submit (k.mem stale) ⟨kernJob.uthreadId, userJob.desc, file, kernJob.id⟩)
  | .kill _ tid jobId stale => some (.kill (k.mem stale) tid jobId)
  | .upperHalf flag stale => some (.upperHalf (k.mem stale) flag)
  | .queueWork => some .queueWork
  | .bhStart => some .bhStart
  | .bhDone => some .bhDone
  | .bhResume => some .bhResume
  | .relCancel file stale => some (.cancel (k.mem stale) file)
  | _ => none

/-- The event of the job manager in an event of the driver. -/
def KmdEvent.jm : KmdEvent → Option JmEvent
  | .job e _ => some e
  | _ => none

/-- The events are events of the job manager, each with whether its object is alive, and others. -/
def LogsJobs (k : Kmd) (jes : List JmEvent) (es : List KmdEvent) : Prop :=
  es.filterMap KmdEvent.jm = jes ∧ ∀ e alive, .job e alive ∈ es → alive = k.alive e

section JobManager

variable {k k' : Kmd} {a : KmdAction} {es : List KmdEvent}

theorem logsJobs_map (k : Kmd) (jes : List JmEvent) :
    LogsJobs k jes (jes.map fun e => .job e (k.alive e)) := by
  constructor
  · rw [List.filterMap_map]
    exact List.filterMap_some
  · simp +contextual

/-- Other events may follow. -/
theorem LogsJobs.append {jes : List JmEvent} {more : List KmdEvent} (h : LogsJobs k jes es)
    (hmore : ∀ e ∈ more, e.jm = none) : LogsJobs k jes (es ++ more) := by
  constructor
  · rw [List.filterMap_append, h.1, List.filterMap_eq_nil_iff.mpr hmore, List.append_nil]
  · intro e alive he
    rcases List.mem_append.mp he with he | he
    · exact h.2 e alive he
    · cases hmore _ he

/-- **The job manager.**  A step of the driver is a step of the job manager, or leaves it alone. -/
theorem kmdStep_jm (h : kmdStep k a = some (k', es)) :
    (a.jmAction k = none ∧ k'.js = k.js ∧ LogsJobs k [] es) ∨
      ∃ b jes, a.jmAction k = some b ∧ jmStep k.js b = some (k'.js, jes) ∧ LogsJobs k jes es := by
  have hnone : ∀ {es : List KmdEvent}, (∀ e ∈ es, e.jm = none) → LogsJobs k [] es := by
    intro es hes
    simpa using (logsJobs_map k []).append hes
  have hrun : ∀ ja, k.runJm ja = some (k', es) → a.jmAction k = some ja →
      ∃ b jes, a.jmAction k = some b ∧ jmStep k.js b = some (k'.js, jes) ∧ LogsJobs k jes es := by
    intro ja h hja
    obtain ⟨js, jes, hjm, rfl, rfl⟩ := Kmd.runJm_cases h
    exact ⟨ja, jes, hja, hjm, logsJobs_map k jes⟩
  cases a with
  | openFile pid kz =>
    rcases aipuOpen_cases h with ⟨rfl, rfl⟩ | ⟨rfl, rfl⟩ <;>
      exact .inl ⟨rfl, rfl, hnone (by simp [KmdEvent.jm])⟩
  | reqAlloc file tid kz req buf =>
    obtain ⟨c, r, -, -, ⟨-, rfl, rfl⟩ | ⟨-, rfl, rfl⟩⟩ := reqbufAlloc_cases h <;>
      exact .inl ⟨rfl, rfl, hnone (by simp [KmdEvent.jm])⟩
  | reqAdd file req buf kzOk =>
    obtain ⟨-, c, ret, -, rfl, ⟨-, rfl⟩ | ⟨-, rfl⟩⟩ := reqbufAdd_cases h <;>
      exact .inl ⟨rfl, rfl, hnone (by simp [KmdEvent.jm])⟩
  | freeDetach file desc =>
    obtain ⟨c, -, ⟨d, -, rfl, rfl⟩ | ⟨-, rfl, rfl⟩⟩ := freebufDetach_cases h <;>
      exact .inl ⟨rfl, rfl, hnone (by simp [KmdEvent.jm])⟩
  | freeMm file desc =>
    obtain ⟨-, rfl, rfl⟩ := freebufFree_cases h
    exact .inl ⟨rfl, rfl, hnone (by simp [KmdEvent.jm])⟩
  | mmap file vma err =>
    obtain ⟨c, ret, -, rfl, ⟨d, range, -, -, rfl⟩ | rfl⟩ := aipuMmap_cases h <;>
      exact .inl ⟨rfl, rfl, hnone (by simp [KmdEvent.jm])⟩
  | munmap file map front len =>
    obtain ⟨c, -, -, -, rfl, rfl⟩ := munmapPages_cases h
    exact .inl ⟨rfl, rfl, hnone (by simp)⟩
  | runAdd file tid userJob kz =>
    obtain ⟨c, -, ⟨waitQueue, userJob', rfl, -, -, rfl⟩ | ⟨rfl, rfl⟩⟩ := runjobAdd_cases h <;>
      exact .inl ⟨rfl, rfl, hnone (by simp [KmdEvent.jm])⟩
  | runSchedule file userJob kernJob kzOk stale =>
    obtain ⟨-, ⟨rfl, js, jes, hjm, rfl, rfl⟩ | ⟨rfl, rfl, rfl⟩⟩ := runjobSchedule_cases h
    · exact .inr ⟨_, jes, rfl, hjm, (logsJobs_map k jes).append (by simp [KmdEvent.jm])⟩
    · exact .inl ⟨rfl, rfl, hnone (by simp [KmdEvent.jm])⟩
  | kill file tid jobId stale =>
    obtain ⟨js, jes, hjm, rfl, rfl⟩ := killTimeoutJob_cases h
    exact .inr ⟨_, jes, rfl, hjm, logsJobs_map k jes⟩
  | query file query kzOk notCopied notCopiedQuery =>
    obtain ⟨c, ret, kept, taken, -, -, -, -, rfl, rfl⟩ := queryStatus_cases h
    refine .inl ⟨rfl, rfl, hnone fun e he => ?_⟩
    rcases List.mem_append.mp he with he | he
    · split at he
      · obtain ⟨sj, -, rfl⟩ := List.mem_map.mp he
        rfl
      · cases he
    · rw [List.mem_singleton.mp he]
      rfl
  | pollRegister file tid =>
    obtain ⟨c, single, queues, -, rfl, rfl⟩ := aipuPollRegister_cases h
    exact .inl ⟨rfl, rfl, hnone (by simp [KmdEvent.jm])⟩
  | pollCheck file tid =>
    obtain ⟨rfl, ready, rfl⟩ := aipuPollCheck_cases h
    exact .inl ⟨rfl, rfl, hnone (by simp [KmdEvent.jm])⟩
  | upperHalf flag stale => exact .inr (hrun (.upperHalf (k.mem stale) flag) h rfl)
  | queueWork => exact .inr (hrun .queueWork h rfl)
  | bhStart => exact .inr (hrun .bhStart h rfl)
  | bhDone =>
    obtain ⟨curr, next, woken, hbh, rfl, hcase⟩ := bottomHalfDone_cases h
    have hjs : k'.js = { k.js with bh := .returned curr next } := by
      obtain ⟨c, d, -, -, rfl, -⟩ | ⟨-, rfl⟩ := hcase <;> rfl
    refine .inr ⟨.bhDone, _, rfl, by rw [hjs, jmStep, hbh],
      (logsJobs_map k [.readSession curr.session, .readSessionJob curr.sessionJob]).append ?_⟩
    simp [KmdEvent.jm]
  | bhResume => exact .inr (hrun .bhResume h rfl)
  | relCancel file stale =>
    obtain ⟨c, js, jes, -, -, -, hjm, rfl, rfl⟩ := releaseCancel_cases h
    exact .inr ⟨_, jes, rfl, hjm, logsJobs_map k jes⟩
  | relDelete file =>
    obtain ⟨c, -, rfl, rfl⟩ := releaseDelete_cases h
    exact .inl ⟨rfl, rfl, hnone (by simp)⟩
  | relFree file =>
    obtain ⟨c, -, ⟨-, rfl, rfl⟩ | ⟨sbuf, rest, desc, -, -, -, rfl, rfl⟩⟩ := releaseFree_cases h <;>
      exact .inl ⟨rfl, rfl, hnone (by simp [KmdEvent.jm])⟩
  | relDetach file =>
    obtain ⟨c, desc, -, -, rfl, ⟨d, -, rfl⟩ | ⟨-, rfl⟩⟩ := releaseDetach_cases h <;>
      exact .inl ⟨rfl, rfl, hnone (by simp)⟩
  | relDestroy file =>
    obtain ⟨c, ret, -, rfl, ⟨-, -, rfl⟩ | ⟨-, rfl⟩⟩ := releaseDestroy_cases h <;>
      exact .inl ⟨rfl, rfl, hnone (by simp [KmdEvent.jm])⟩

/-- A run of the driver is a run of its job manager, so the invariants of the job manager hold. -/
theorem kmdSystem_jm {version : AipuVersion} {map : MemoryMap} {maxSchedNum : ℤ}
    (hmax : 0 ≤ maxSchedNum) {C : Kmd → KmdAction → Prop} {tr : List KmdEvent}
    (h : (kmdSystem version map maxSchedNum).Run C tr k) :
    JobQueueInv maxSchedNum (tr.filterMap KmdEvent.jm) k.js ∧ k.js.BhInv := by
  have hjm : (jmSystem maxSchedNum false).Run anyStep (tr.filterMap KmdEvent.jm) k.js := by
    refine h.map Kmd.js KmdEvent.jm ?_ ?_
    · rintro k ⟨-, hjs, -⟩
      exact hjs
    · intro k a k' es _ hst
      rcases kmdStep_jm hst with ⟨-, hjs, hes, -⟩ | ⟨b, jes, -, hb, rfl, -⟩
      · exact .inl ⟨hjs, hes⟩
      · exact .inr ⟨b, trivial, hb⟩
  exact jmSystem_inv hmax hjm

end JobManager

/-! ## RUNJOB calls in progress -/

/-- The file and the session job of a RUNJOB call between its two steps. -/
def KmdOp.runJob : KmdOp → Option (ℕ × ℕ)
  | .runjob file _ kernJob => some (file, kernJob.id)
  | _ => none

/-- The RUNJOB calls between their two steps. -/
def Kmd.runJobs (k : Kmd) : List (ℕ × ℕ) := k.ops.filterMap KmdOp.runJob

/-- The session has an open file whose list holds the session job, which has not ended. -/
def Kmd.Serves (k : Kmd) (session sessionJob : ℕ) : Prop :=
  ∃ f ∈ k.files, f.id = session ∧ f.phase = .opened ∧
    ∃ sj ∈ f.session.jobList, sj.id = sessionJob ∧ sj.state ≠ .finished

/-- What a step makes of the RUNJOB calls in progress. -/
inductive RunJobsStep (k : Kmd) (a : KmdAction) (k' : Kmd) : Prop
  | same (hperm : k'.runJobs.Perm k.runJobs) (hnext : k'.nextSessionJob = k.nextSessionJob)
      (ha : ∀ mem sub, a.jmAction k ≠ some (.submit mem sub))
  | added (file : ℕ) (hcons : k'.runJobs = (file, k.nextSessionJob) :: k.runJobs)
      (hnext : k'.nextSessionJob = k.nextSessionJob + 1) (hserves : k'.Serves file k.nextSessionJob)
      (ha : a.jmAction k = none) (hcall : ∃ tid userJob kz, a = .runAdd file tid userJob kz)
  | finished (file sessionJob : ℕ) (hperm : k.runJobs.Perm ((file, sessionJob) :: k'.runJobs))
      (hnext : k'.nextSessionJob = k.nextSessionJob)
      (ha : a.jmAction k = none ∨ ∃ mem sub, a.jmAction k = some (.submit mem sub) ∧
        sub.session = file ∧ sub.sessionJob = sessionJob)
      (hcall : ∃ userJob kernJob kzOk stale, a = .runSchedule file userJob kernJob kzOk stale)

section RunJobs

variable {k k' : Kmd} {a : KmdAction} {es : List KmdEvent}

/-- A call other than RUNJOB comes and goes without a session job. -/
theorem runJobs_erase {op : KmdOp} (hop : op ∈ k.ops) (hnone : op.runJob = none) :
    ((k.ops.erase op).filterMap KmdOp.runJob).Perm k.runJobs := by
  have hperm := (List.perm_cons_erase hop).filterMap KmdOp.runJob
  rw [List.filterMap_cons_none hnone] at hperm
  exact hperm.symm

/-- Only RUNJOB submits a job. -/
theorem KmdAction.jmAction_ne_submit
    (ha : ∀ file userJob kernJob kzOk stale, a ≠ .runSchedule file userJob kernJob kzOk stale)
    (mem : SessionMem) (sub : Submission) : a.jmAction k ≠ some (.submit mem sub) := by
  intro h
  unfold KmdAction.jmAction at h
  split at h
  next => exact ha _ _ _ _ _ rfl
  all_goals cases h

/-- **RUNJOB.**  What a step makes of the RUNJOB calls in progress. -/
theorem kmdStep_runJobs (h : kmdStep k a = some (k', es)) : RunJobsStep k a k' := by
  cases kmdStep_ops h with
  | same hops hnext ha =>
    exact .same (by rw [Kmd.runJobs, Kmd.runJobs, hops]) hnext (KmdAction.jmAction_ne_submit ha)
  | reqAlloc r _ _ hops hnext | freeDetach hops hnext =>
    refine .same ?_ hnext (KmdAction.jmAction_ne_submit (by simp))
    rw [Kmd.runJobs, hops]
    rfl
  | reqAdd hop hops hnext | freeMm hop hops hnext =>
    refine .same ?_ hnext (KmdAction.jmAction_ne_submit (by simp))
    rw [Kmd.runJobs, hops]
    exact runJobs_erase hop rfl
  | @runAdd file tid userJob kz userJob' f hf hid hphase hjob hops hnext =>
    refine .added file ?_ hnext ?_ rfl ⟨tid, userJob, kz, rfl⟩
    · rw [Kmd.runJobs, hops]
      rfl
    · exact ⟨f, hf, hid, hphase, _, hjob, rfl, by simp [initSessionJob]⟩
  | @runSchedule file userJob kernJob kzOk stale hop hops hnext =>
    refine .finished file kernJob.id ?_ hnext ?_ ⟨_, _, _, _, rfl⟩
    · rw [Kmd.runJobs, Kmd.runJobs, hops]
      exact (List.perm_cons_erase hop).filterMap KmdOp.runJob
    · cases kzOk with
      | false => exact .inl rfl
      | true => exact .inr ⟨_, _, rfl, rfl, rfl⟩

end RunJobs

/-! ## The invariant -/

/-- The job can still be invalidated: it is pending, or it is running and valid. -/
def AipuJob.Active (job : AipuJob) : Prop :=
  job.state = .pending ∨ (job.state = .sched ∧ job.validFlag = true)

instance : DecidablePred AipuJob.Active := fun _ => inferInstanceAs (Decidable (_ ∨ _))

/-- The jobs against the sessions, in every run. -/
structure Kmd.JobsInv (k : Kmd) : Prop where
  files : k.FilesFresh
  /-- The session of an active job is open and still holds its session job. -/
  active : ∀ j ∈ k.js.jm.jobs, j.Active → k.Serves j.session j.sessionJob
  /-- So it is with the session of a RUNJOB call. -/
  calls : ∀ p ∈ k.runJobs, k.Serves p.1 p.2
  /-- No session job belongs to two jobs, to a job and a call, or to two calls. -/
  unique : ∀ j ∈ k.js.jm.jobs, ∀ j' ∈ k.js.jm.jobs, j.sessionJob = j'.sessionJob → j.id = j'.id
  apart : ∀ j ∈ k.js.jm.jobs, ∀ p ∈ k.runJobs, j.sessionJob ≠ p.2
  callsNodup : (k.runJobs.map Prod.snd).Nodup
  jobsLt : ∀ j ∈ k.js.jm.jobs, j.sessionJob < k.nextSessionJob
  callsLt : ∀ p ∈ k.runJobs, p.2 < k.nextSessionJob

section Invariant

variable {k k' : Kmd} {a : KmdAction} {es : List KmdEvent} {max : ℤ} {jtr : List JmEvent}

/-- A session goes on serving a session job, unless its release starts or the job is reported. -/
theorem Kmd.Serves.step {session sessionJob : ℕ} (h : k.Serves session sessionJob)
    (hst : FilesStep k a k') :
    k'.Serves session sessionJob ∨ a.Cancels session ∨ a.Reports k sessionJob := by
  obtain ⟨f, hf, rfl, hphase, sj, hsj, rfl, hstate⟩ := h
  rcases hst.of_mem hf with ⟨f', hf', hstep⟩ | ⟨-, hdestroyed, -⟩
  · rcases hstep.opened hphase with hphase' | hcancel
    · rcases hstep.kept sj hsj hstate with hsj' | ⟨-, hcanceled⟩ | hreport
      · exact .inl ⟨f', hf', hstep.id, hphase', sj, hsj', rfl, hstate⟩
      · simp [hphase] at hcanceled
      · exact .inr (.inr hreport)
    · exact .inr (.inl hcancel)
  · simp [hphase] at hdestroyed

/-- A job that is active was active before. -/
theorem AipuJob.Evolves.active {j j' : AipuJob} (h : j.Evolves j') (hidle : j.state ≠ .idle)
    (hj' : j'.Active) : j.Active := by
  have hrank := h.state
  rcases hj' with hj' | ⟨hj', hvalid⟩
  · left
    cases hj : j.state <;> simp_all [AipuJobState.rank]
  · have hne := h.not_finished (by simp [hj'])
    cases hj : j.state with
    | idle => exact absurd hj hidle
    | pending => exact .inl hj
    | sched => exact .inr ⟨hj, h.valid hvalid⟩
    | finished => exact absurd hj hne

/-- No queued job is idle. -/
theorem JobQueueInv.not_idle {s : JmState} (hq : JobQueueInv max jtr s) {j : AipuJob}
    (hj : j ∈ s.jm.jobs) : j.state ≠ .idle := by
  rcases List.mem_append.mp hj with hj | hj
  · simp [hq.pendingState j hj]
  · rcases hq.schedState j hj with hstate | hstate <;> simp [hstate]

/-- The bottom half does not report the session job of a job that has not ended. -/
theorem Kmd.JobsInv.not_reported (hI : k.JobsInv) (hq : JobQueueInv max jtr k.js)
    (hbh : k.js.BhInv) {j : AipuJob} (hj : j ∈ k.js.jm.jobs) (hstate : j.state ≠ .finished) :
    ¬a.Reports k j.sessionJob := by
  rintro ⟨-, curr, hcurr, hsj⟩
  obtain ⟨hmem, hended, -⟩ := hbh curr (BottomHalf.curr?_of_callingJob hcurr)
  have hmem : curr ∈ k.js.jm.jobs := List.mem_append_right _ hmem
  have hid := hI.unique curr hmem j hj hsj
  obtain rfl := hq.eq_of_id hmem hj hid
  exact hstate hended

/-- Nor does it report the session job of a RUNJOB call. -/
theorem Kmd.JobsInv.call_not_reported (hI : k.JobsInv) (hbh : k.js.BhInv) {p : ℕ × ℕ}
    (hp : p ∈ k.runJobs) : ¬a.Reports k p.2 := by
  rintro ⟨-, curr, hcurr, hsj⟩
  obtain ⟨hmem, -, -⟩ := hbh curr (BottomHalf.curr?_of_callingJob hcurr)
  exact hI.apart curr (List.mem_append_right _ hmem) p hp hsj

/-- The release of a file starts when no RUNJOB call on it is in progress. -/
theorem call_not_canceled (h : kmdStep k a = some (k', es)) {p : ℕ × ℕ} (hp : p ∈ k.runJobs) :
    ¬a.Cancels p.1 := by
  rintro ⟨stale, rfl⟩
  obtain ⟨c, js, jes, -, -, hidle, -⟩ := releaseCancel_cases h
  obtain ⟨op, hop, hrun⟩ := List.mem_filterMap.mp hp
  cases op with
  | runjob file userJob kernJob =>
    obtain rfl : (file, kernJob.id) = p := Option.some.inj hrun
    exact hidle _ hop rfl
  | reqbuf | freebuf => cases hrun

/-- The start of a release leaves no active job of the session. -/
theorem canceled_not_active (hq : JobQueueInv max jtr k.js) (h : kmdStep k a = some (k', es))
    {j : AipuJob} (hj : j ∈ k'.js.jm.jobs) (hactive : j.Active) : ¬a.Cancels j.session := by
  rintro ⟨stale, rfl⟩
  obtain ⟨c, js, jes, -, -, -, hjm, rfl, -⟩ := releaseCancel_cases h
  obtain ⟨rfl, -⟩ := Prod.mk.inj (Option.some.inj hjm)
  have hj : j ∈ (aipuJobManagerCancelSessionJobs (k.mem stale) j.session k.js.jm).1.jobs := hj
  rw [aipuJobManagerCancelSessionJobs_eq hq] at hj
  rcases List.mem_append.mp hj with hj | hj
  · have hother := (List.mem_filter.mp hj).2
    simp [SessionMem.Cancels] at hother
  · obtain ⟨j₀, hj₀, heq⟩ := List.mem_map.mp hj
    by_cases hcancel : (k.mem stale).Cancels j.session j₀ ∧ j₀.state = .sched
    · rw [SessionMem.cancel, if_pos hcancel] at heq
      rcases hactive with hactive | ⟨-, hvalid⟩
      · simp [← heq, hcancel.2] at hactive
      · simp [← heq] at hvalid
    · rw [SessionMem.cancel, if_neg hcancel] at heq
      obtain rfl := heq
      rcases hactive with hactive | ⟨hactive, -⟩
      · rcases hq.schedState j₀ hj₀ with hstate | hstate <;> simp [hstate] at hactive
      · exact hcancel ⟨rfl, hactive⟩

/-- Over a step of the driver, a queued job evolves from a queued one, or it is submitted by a
RUNJOB call. -/
theorem kmdStep_evolves (hq : JobQueueInv max jtr k.js) (hbh : k.js.BhInv)
    (h : kmdStep k a = some (k', es)) : ∀ j' ∈ k'.js.jm.jobs,
      (∃ j ∈ k.js.jm.jobs, j.Evolves j') ∨ ∃ mem sub, a.jmAction k = some (.submit mem sub) ∧
        (newJob k.js.nextJob sub).Evolves j' := by
  intro j' hj'
  rcases kmdStep_jm h with ⟨-, hjs, -⟩ | ⟨b, jes, hb, hst, -⟩
  · exact .inl ⟨j', hjs ▸ hj', .refl j'⟩
  · rcases jmStep_evolves hq hbh hst j' hj' with hold | ⟨mem, sub, rfl, hnew⟩
    · exact .inl hold
    · exact .inr ⟨mem, sub, hb, hnew⟩

/-- A RUNJOB call was in progress before the step, or it has just added its session job. -/
theorem RunJobsStep.mem (h : RunJobsStep k a k') {p : ℕ × ℕ} (hp : p ∈ k'.runJobs) :
    p ∈ k.runJobs ∨ (a.jmAction k = none ∧ p.2 = k.nextSessionJob ∧
      k'.nextSessionJob = k.nextSessionJob + 1 ∧ k'.Serves p.1 p.2) := by
  cases h with
  | same hperm => exact .inl (hperm.mem_iff.mp hp)
  | added file hcons hnext hserves ha =>
    rw [hcons, List.mem_cons] at hp
    rcases hp with rfl | hp
    · exact .inr ⟨ha, rfl, hnext, hserves⟩
    · exact .inl hp
  | finished file sessionJob hperm => exact .inl (hperm.mem_iff.mpr (List.mem_cons_of_mem _ hp))

/-- Session jobs are numbered upwards. -/
theorem RunJobsStep.next_le (h : RunJobsStep k a k') : k.nextSessionJob ≤ k'.nextSessionJob := by
  cases h with
  | same _ hnext => exact Nat.le_of_eq hnext.symm
  | added _ _ hnext => exact hnext ▸ Nat.le_succ _
  | finished _ _ _ hnext => exact Nat.le_of_eq hnext.symm

/-- The session jobs of the calls stay different. -/
theorem RunJobsStep.nodup (h : RunJobsStep k a k') (hI : k.JobsInv) :
    (k'.runJobs.map Prod.snd).Nodup := by
  cases h with
  | same hperm => exact (hperm.map _).nodup_iff.mpr hI.callsNodup
  | added file hcons =>
    rw [hcons, List.map_cons, List.nodup_cons]
    refine ⟨fun hmem => ?_, hI.callsNodup⟩
    obtain ⟨p, hp, heq⟩ := List.mem_map.mp hmem
    exact absurd (hI.callsLt p hp) (by omega)
  | finished file sessionJob hperm =>
    exact (List.nodup_cons.mp ((hperm.map _).nodup_iff.mp hI.callsNodup)).2

/-- A job is submitted by a RUNJOB call, which ends. -/
theorem RunJobsStep.submits (h : RunJobsStep k a k') (hI : k.JobsInv) {mem : SessionMem}
    {sub : Submission} (ha : a.jmAction k = some (.submit mem sub)) :
    (sub.session, sub.sessionJob) ∈ k.runJobs ∧ ∀ p ∈ k'.runJobs, p.2 ≠ sub.sessionJob := by
  cases h with
  | same _ _ hnone => exact absurd ha (hnone mem sub)
  | added _ _ _ _ hnone => simp [hnone] at ha
  | finished file sessionJob hperm _ hsub =>
    rcases hsub with hnone | ⟨mem', sub', hsub, rfl, rfl⟩
    · simp [hnone] at ha
    · obtain ⟨rfl, rfl⟩ : mem' = mem ∧ sub' = sub := by simpa [hsub] using ha
      refine ⟨hperm.mem_iff.mpr List.mem_cons_self, fun p hp heq => ?_⟩
      have hnodup := (hperm.map Prod.snd).nodup_iff.mp hI.callsNodup
      exact (List.nodup_cons.mp hnodup).1 (List.mem_map.mpr ⟨p, hp, heq⟩)

/-- Every step keeps the invariant. -/
theorem kmdStep_jobsInv (hI : k.JobsInv) (hq : JobQueueInv max jtr k.js) (hbh : k.js.BhInv)
    (h : kmdStep k a = some (k', es)) : k'.JobsInv := by
  have hfiles := kmdStep_files h
  have hruns := kmdStep_runJobs h
  have hev := kmdStep_evolves hq hbh h
  have hcall : ∀ p ∈ k.runJobs, k'.Serves p.1 p.2 := by
    intro p hp
    rcases (hI.calls p hp).step hfiles with hserves | hcancel | hreport
    · exact hserves
    · exact absurd hcancel (call_not_canceled h hp)
    · exact absurd hreport (hI.call_not_reported hbh hp)
  refine ⟨hfiles.fresh hI.files, ?_, ?_, ?_, ?_, hruns.nodup hI, ?_, ?_⟩
  · intro j' hj' hactive
    rcases hev j' hj' with ⟨j, hj, hevj⟩ | ⟨mem, sub, ha, hnew⟩
    · have hactive₀ := hevj.active (hq.not_idle hj) hactive
      have hstate : j.state ≠ .finished := by
        rcases hactive₀ with hs | ⟨hs, -⟩ <;> simp [hs]
      rw [hevj.session, hevj.sessionJob]
      rcases (hI.active j hj hactive₀).step hfiles with hserves | hcancel | hreport
      · exact hserves
      · exact absurd (hevj.session ▸ hcancel) (canceled_not_active hq h hj' hactive)
      · exact absurd hreport (hI.not_reported hq hbh hj hstate)
    · rw [hnew.session, hnew.sessionJob]
      exact hcall _ (hruns.submits hI ha).1
  · intro p hp
    rcases hruns.mem hp with hp | ⟨-, -, -, hserves⟩
    · exact hcall p hp
    · exact hserves
  · intro j₁' hj₁' j₂' hj₂' hsj
    rcases hev j₁' hj₁' with ⟨j₁, hj₁, hev₁⟩ | ⟨mem₁, sub₁, ha₁, hev₁⟩ <;>
      rcases hev j₂' hj₂' with ⟨j₂, hj₂, hev₂⟩ | ⟨mem₂, sub₂, ha₂, hev₂⟩ <;>
      rw [hev₁.sessionJob, hev₂.sessionJob] at hsj <;> rw [hev₁.id, hev₂.id]
    · exact hI.unique j₁ hj₁ j₂ hj₂ hsj
    · exact absurd hsj (hI.apart j₁ hj₁ _ (hruns.submits hI ha₂).1)
    · exact absurd hsj.symm (hI.apart j₂ hj₂ _ (hruns.submits hI ha₁).1)
    · rfl
  · intro j' hj' p hp
    rcases hev j' hj' with ⟨j, hj, hevj⟩ | ⟨mem, sub, ha, hnew⟩
    · rw [hevj.sessionJob]
      rcases hruns.mem hp with hp | ⟨-, hp, -⟩
      · exact hI.apart j hj p hp
      · exact hp ▸ Nat.ne_of_lt (hI.jobsLt j hj)
    · rw [hnew.sessionJob]
      exact fun heq => (hruns.submits hI ha).2 p hp heq.symm
  · intro j' hj'
    have hle := hruns.next_le
    rcases hev j' hj' with ⟨j, hj, hevj⟩ | ⟨mem, sub, ha, hnew⟩
    · rw [hevj.sessionJob]
      exact Nat.lt_of_lt_of_le (hI.jobsLt j hj) hle
    · rw [hnew.sessionJob]
      exact Nat.lt_of_lt_of_le (hI.callsLt _ (hruns.submits hI ha).1) hle
  · intro p hp
    have hle := hruns.next_le
    rcases hruns.mem hp with hp | ⟨-, hp, hnext, -⟩
    · exact Nat.lt_of_lt_of_le (hI.callsLt p hp) hle
    · omega

/-- The invariants of the driver's jobs hold in every run. -/
theorem kmdSystem_jobs {version : AipuVersion} {map : MemoryMap} {maxSchedNum : ℤ}
    (hmax : 0 ≤ maxSchedNum) {C : Kmd → KmdAction → Prop} {tr : List KmdEvent}
    (h : (kmdSystem version map maxSchedNum).Run C tr k) : k.JobsInv := by
  induction h with
  | @start k hs =>
    obtain ⟨-, ⟨idle, hjs⟩, hfiles, hops⟩ := hs
    have hjobs : k.js.jm.jobs = [] := by
      simp [hjs, JmState.initial, aipuInitJobManager, AipuJobManager.jobs]
    have hruns : k.runJobs = [] := by simp [Kmd.runJobs, hops]
    have hfresh : k.FilesFresh := ⟨by simp [hfiles], by simp [hfiles]⟩
    exact ⟨hfresh, by simp [hjobs], by simp [hruns], by simp [hjobs], by simp [hjobs],
      by simp [hruns], by simp [hjobs], by simp [hruns]⟩
  | next hrun _ hst ih =>
    obtain ⟨hq, hbh⟩ := kmdSystem_jm hmax hrun
    exact kmdStep_jobsInv ih hq hbh hst

end Invariant

end Aipu
