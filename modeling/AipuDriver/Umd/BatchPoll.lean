import Mathlib.Logic.Function.Basic
import AipuDriver.Umd.Completion

/-!
# The records of a batch poll (`MainContext::poll_job_status`)

The kernel deletes the session jobs whose records it hands out, so a record that the context does
not apply is lost: the job stays scheduled for ever, and whoever sleeps until its end is never
woken. `poll_job_status` applies the records in the order of the list, and returns at the first one
whose graph or job is gone; the records after it are dropped.

`batch_poll_applies` says that this is the only way to lose a record: every record of a job that is
there is applied if and only if no stale record comes before one.
-/

namespace Aipu

open ListSearch Transition

/-! ## Data -/

/-- `struct profiling_data` -/
structure ProfilingData where
  executionTimeNs : ℤ := 0
  rdataTotMsb : ℕ := 0
  rdataTotLsb : ℕ := 0
  wdataTotMsb : ℕ := 0
  wdataTotLsb : ℕ := 0
  totCycleMsb : ℕ := 0
  totCycleLsb : ℕ := 0
deriving DecidableEq, Repr

/-- `struct job_status_desc` with its profiling data. -/
structure JobStatusRecord extends JobStatusDesc where
  pdata : ProfilingData
deriving DecidableEq, Repr

/-- A context with the profiling data of its jobs, which are named by their ids, and the wake-ups so
far: the jobs whose condition variable was signalled, oldest first. -/
structure PolledContext where
  ctx : MainContext
  pdata : ℕ → ProfilingData
  signals : List ℕ

/-! ## The calls -/

/-- `update_job_status` for a record, in the graph that its job id names. -/
def PolledContext.updateJobStatus (s : PolledContext) (status : JobStatusRecord) (isWakeUp : Bool) :
    AipuStatus × PolledContext :=
  match s.ctx.inGraph .errorJobNotExist (jobId2graphId status.jobId)
      (·.updateJobStatus status.toJobStatusDesc) with
  | (.success, ctx) =>
    (.success, {
      ctx := ctx
      pdata := Function.update s.pdata status.jobId status.pdata
      signals := if isWakeUp then s.signals ++ [status.jobId] else s.signals })
  | (ret, ctx) => (ret, { s with ctx := ctx })

/-- The loop of `poll_job_status` over the records. -/
def PolledContext.pollJobStatus (s : PolledContext) :
    List JobStatusRecord → AipuStatus × PolledContext
  | [] => (.success, s)
  | status :: rest =>
    match s.updateJobStatus status true with
    | (.success, s) => s.pollJobStatus rest
    | (ret, s) => (ret, s)

/-- On the jobs of the context the loop is the one of the calls that run one at a time. -/
theorem PolledContext.pollJobStatus_ctx (s : PolledContext) (records : List JobStatusRecord) :
    ((s.pollJobStatus records).1, (s.pollJobStatus records).2.ctx) =
      s.ctx.pollReply (records.map (·.toJobStatusDesc)) := by
  induction records generalizing s with
  | nil => rfl
  | cons status rest ih =>
    rw [PolledContext.pollJobStatus, List.map_cons, MainContext.pollReply,
      PolledContext.updateJobStatus]
    generalize s.ctx.inGraph .errorJobNotExist (jobId2graphId status.jobId)
      (·.updateJobStatus status.toJobStatusDesc) = r
    obtain ⟨ret, ctx⟩ := r
    cases ret with
    | success => exact ih _
    | _ => rfl

/-! ## The property -/

/-- The graph and the job that the record names exist. -/
def PolledContext.Exists (s : PolledContext) (status : JobStatusRecord) : Prop :=
  (s.ctx.getJob status.jobId).isSome

instance (s : PolledContext) : DecidablePred s.Exists :=
  fun status => inferInstanceAs (Decidable ((s.ctx.getJob status.jobId).isSome = true))

/-- The last record about a job. -/
def lastRecord (records : List JobStatusRecord) (jobId : ℕ) : Option JobStatusRecord :=
  (records.filter (·.jobId = jobId)).getLast?

/-- A job after a record, if there is one. -/
def JobDesc.withRecord (job : JobDesc) : Option JobStatusRecord → JobDesc
  | none => job
  | some status => { job with state := status.state.jobState }

/-- Every record whose graph and job exist has been applied: each has made a wake-up, in the order
of the list, and a job and its profiling data are as its last record says. -/
structure PolledContext.Applied (s : PolledContext) (records : List JobStatusRecord)
    (s' : PolledContext) : Prop where
  signals : s'.signals = s.signals ++ (records.filter s.Exists).map (·.jobId)
  jobs : ∀ id i, s'.ctx.job id i = (s.ctx.job id i).map fun job =>
    job.withRecord (if id = jobId2graphId i then lastRecord records i else none)
  pdata : ∀ i, (s.ctx.getJob i).isSome →
    s'.pdata i = ((lastRecord records i).map (·.pdata)).getD (s.pdata i)

/-- No record of a job that is gone comes before one of a job that exists. -/
def PolledContext.StaleLast (s : PolledContext) (records : List JobStatusRecord) : Prop :=
  records.Pairwise fun status later => s.Exists later → s.Exists status

section Polls

variable {s : PolledContext} {status : JobStatusRecord} {records : List JobStatusRecord}

/-! ## One record -/

/-- The state in a record is written to its job. -/
theorem MainContext.updateJobStatus_writes (ctx : MainContext) (status : JobStatusDesc) :
    ctx.Writes status.jobId status.state.jobState
      (ctx.inGraph .errorJobNotExist (jobId2graphId status.jobId) (·.updateJobStatus status)).2 :=
  (ctx.updateJobState_spec status.jobId status.state.jobState).1

/-- The status of the call says whether there is a job. -/
theorem MainContext.updateJobStatus_status (ctx : MainContext) (status : JobStatusDesc) :
    (ctx.inGraph .errorJobNotExist (jobId2graphId status.jobId) (·.updateJobStatus status)).1 =
      if (ctx.getJob status.jobId).isSome then .success else .errorJobNotExist := by
  unfold MainContext.inGraph MainContext.getJob MainContext.job
  split
  · rename_i hg
    rw [hg]
    rfl
  · rename_i g hg
    rw [hg]
    unfold Graph.updateJobStatus Graph.updateJobState
    cases hjob : g.getJobPtr status.jobId <;> simp [hjob]

/-- A record of a job that exists is applied. -/
theorem PolledContext.updateJobStatus_exists (h : s.Exists status) :
    ∃ ctx, s.ctx.Writes status.jobId status.state.jobState ctx ∧
      s.updateJobStatus status true = (.success, {
        ctx := ctx
        pdata := Function.update s.pdata status.jobId status.pdata
        signals := s.signals ++ [status.jobId] }) := by
  have hwrites := s.ctx.updateJobStatus_writes status.toJobStatusDesc
  have hret := s.ctx.updateJobStatus_status status.toJobStatusDesc
  have hret := hret.trans (if_pos h)
  refine ⟨_, hwrites, ?_⟩
  unfold PolledContext.updateJobStatus
  generalize s.ctx.inGraph .errorJobNotExist (jobId2graphId status.jobId)
    (·.updateJobStatus status.toJobStatusDesc) = r at hret ⊢
  obtain ⟨ret, ctx⟩ := r
  obtain rfl : ret = .success := hret
  rfl

/-- A stale record is refused, and no job changes. -/
theorem PolledContext.updateJobStatus_stale (h : ¬s.Exists status) :
    ∃ ctx, (∀ id i, ctx.job id i = s.ctx.job id i) ∧
      s.updateJobStatus status true = (.errorJobNotExist, { s with ctx := ctx }) := by
  have hnone : s.ctx.getJob status.jobId = none := by simpa [PolledContext.Exists] using h
  have hwrites := s.ctx.updateJobStatus_writes status.toJobStatusDesc
  have hret := s.ctx.updateJobStatus_status status.toJobStatusDesc
  have hret := hret.trans (if_neg h)
  have hjobs : ∀ id i, (s.ctx.inGraph .errorJobNotExist (jobId2graphId status.jobId)
      (·.updateJobStatus status.toJobStatusDesc)).2.job id i = s.ctx.job id i := by
    intro id i
    rw [hwrites]
    split
    · rename_i hroute
      rw [hroute.1, hroute.2, ← MainContext.getJob, hnone]
      rfl
    · rfl
  refine ⟨_, hjobs, ?_⟩
  unfold PolledContext.updateJobStatus
  generalize s.ctx.inGraph .errorJobNotExist (jobId2graphId status.jobId)
    (·.updateJobStatus status.toJobStatusDesc) = r at hret ⊢
  obtain ⟨ret, ctx⟩ := r
  obtain rfl : ret = .errorJobNotExist := hret
  rfl

/-- Applying a record makes no job and deletes none. -/
theorem PolledContext.exists_of_writes {s' : PolledContext} {jobId : ℕ} {state : JobState}
    (h : s.ctx.Writes jobId state s'.ctx) : s'.Exists status ↔ s.Exists status := by
  unfold PolledContext.Exists MainContext.getJob
  rw [h]
  split <;> simp

/-! ## A batch -/

/-- The last record of a longer list. -/
theorem lastRecord_cons (i : ℕ) : lastRecord (status :: records) i =
    (lastRecord records i).or (if status.jobId = i then some status else none) := by
  unfold lastRecord
  by_cases hid : status.jobId = i
  · rw [List.filter_cons_of_pos (by simpa using hid), if_pos hid, List.getLast?_cons]
    cases (records.filter (·.jobId = i)).getLast? <;> rfl
  · rw [List.filter_cons_of_neg (by simpa using hid), if_neg hid, Option.or_none]

/-- The last record about a job is one of the records and about the job. -/
theorem lastRecord_eq_some {i : ℕ} (h : lastRecord records i = some status) :
    status ∈ records ∧ status.jobId = i := by
  have hmem := List.mem_filter.mp (List.mem_of_getLast? h)
  exact ⟨hmem.1, by simpa using hmem.2⟩

/-- The loop applies the records up to the first stale one. -/
theorem PolledContext.pollJobStatus_signals (s : PolledContext) (records : List JobStatusRecord) :
    (s.pollJobStatus records).2.signals =
      s.signals ++ (records.takeWhile s.Exists).map (·.jobId) := by
  induction records generalizing s with
  | nil => simp [PolledContext.pollJobStatus]
  | cons status rest ih =>
    rw [PolledContext.pollJobStatus]
    by_cases hex : s.Exists status
    · obtain ⟨ctx, hwrites, heq⟩ := PolledContext.updateJobStatus_exists hex
      have hsame : ∀ later, PolledContext.Exists ⟨ctx, Function.update s.pdata status.jobId
          status.pdata, s.signals ++ [status.jobId]⟩ later ↔ s.Exists later :=
        fun later => PolledContext.exists_of_writes hwrites
      rw [heq, List.takeWhile_cons_of_pos (by simpa using hex)]
      refine (ih _).trans ?_
      simp only [hsame, List.map_cons, List.append_assoc, List.singleton_append]
    · obtain ⟨ctx, -, heq⟩ := PolledContext.updateJobStatus_stale hex
      rw [heq, List.takeWhile_cons_of_neg (by simpa using hex)]
      simp

/-- When no stale record comes before one of a job that exists, all of these are applied. -/
theorem PolledContext.pollJobStatus_applied (h : s.StaleLast records) :
    s.Applied records (s.pollJobStatus records).2 := by
  induction records generalizing s with
  | nil =>
    refine ⟨by simp [PolledContext.pollJobStatus], fun id i => ?_, fun i _ => rfl⟩
    simp [PolledContext.pollJobStatus, lastRecord, JobDesc.withRecord]
  | cons status rest ih =>
    obtain ⟨hfirst, hrest⟩ := List.pairwise_cons.mp h
    rw [PolledContext.pollJobStatus]
    by_cases hex : s.Exists status
    · obtain ⟨ctx, hwrites, heq⟩ := PolledContext.updateJobStatus_exists hex
      have hsame : ∀ later, PolledContext.Exists ⟨ctx, Function.update s.pdata status.jobId
          status.pdata, s.signals ++ [status.jobId]⟩ later ↔ s.Exists later :=
        fun later => PolledContext.exists_of_writes hwrites
      rw [heq]
      obtain ⟨hsignals, hjobs, hpdata⟩ := ih (hrest.imp fun hab hb =>
        (hsame _).mpr (hab ((hsame _).mp hb)))
      refine ⟨?_, fun id i => ?_, fun i hi => ?_⟩
      · rw [hsignals, List.filter_cons_of_pos (by simpa using hex)]
        simp only [hsame, List.map_cons, List.append_assoc, List.singleton_append]
      · rw [hjobs, hwrites, lastRecord_cons]
        by_cases hroute : id = jobId2graphId i
        · by_cases hid : i = status.jobId
          · subst hid
            simp only [hroute, and_self, if_true, Option.map_map]
            cases lastRecord rest status.jobId <;> rfl
          · have hne : ¬(id = jobId2graphId status.jobId ∧ i = status.jobId) :=
              fun hroute => hid hroute.2
            rw [if_neg hne, if_neg (Ne.symm hid), Option.or_none]
        · have hne : ¬(id = jobId2graphId status.jobId ∧ i = status.jobId) := by
            rintro ⟨hid, rfl⟩
            exact hroute hid
          rw [if_neg hne, if_neg hroute, if_neg hroute]
      · have hi' : (ctx.getJob i).isSome := by
          unfold MainContext.getJob at hi ⊢
          rw [hwrites]
          split <;> simpa using hi
        rw [hpdata i hi', lastRecord_cons]
        by_cases hid : status.jobId = i
        · subst hid
          rw [if_pos rfl]
          cases lastRecord rest status.jobId with
          | none => exact Function.update_self ..
          | some later => rfl
        · rw [if_neg hid, Option.or_none]
          dsimp only
          rw [Function.update_of_ne (Ne.symm hid)]
    · -- none of the records that are dropped is about a job that exists
      obtain ⟨ctx, hjobs, heq⟩ := PolledContext.updateJobStatus_stale hex
      have hnone : ∀ later ∈ status :: rest, ¬s.Exists later := by
        refine List.forall_mem_cons.mpr ⟨hex, fun later hlater hexists => ?_⟩
        exact hex (hfirst later hlater hexists)
      have hlast : ∀ i later, lastRecord (status :: rest) i = some later →
          s.ctx.getJob i = none := by
        intro i later hlater
        obtain ⟨hmem, rfl⟩ := lastRecord_eq_some hlater
        simpa [PolledContext.Exists] using hnone later hmem
      rw [heq]
      refine ⟨?_, fun id i => ?_, fun i hi => ?_⟩
      · rw [List.filter_eq_nil_iff.mpr fun later hlater => by simpa using hnone later hlater]
        simp
      · rw [hjobs]
        split
        · rename_i hroute
          cases hlater : lastRecord (status :: rest) i with
          | none => simp [JobDesc.withRecord]
          | some later =>
            have hgone := hlast i later hlater
            rw [MainContext.getJob, ← hroute] at hgone
            rw [hgone]
            rfl
        · simp [JobDesc.withRecord]
      · cases hlater : lastRecord (status :: rest) i with
        | none => rfl
        | some later => simp [hlast i later hlater] at hi

/-- A list whose entries with a property all stand in front. -/
theorem pairwise_of_takeWhile {α : Type*} {p : α → Bool} {l : List α}
    (h : (l.takeWhile p).length = (l.filter p).length) :
    l.Pairwise fun a b => p b = true → p a = true := by
  induction l with
  | nil => exact .nil
  | cons a l ih =>
    by_cases ha : p a = true
    · rw [List.takeWhile_cons_of_pos ha, List.filter_cons_of_pos ha] at h
      exact List.pairwise_cons.mpr ⟨fun _ _ _ => ha, ih (Nat.succ.inj h)⟩
    · rw [List.takeWhile_cons_of_neg ha, List.filter_cons_of_neg ha] at h
      have hnil : ∀ b ∈ l, ¬p b = true :=
        List.filter_eq_nil_iff.mp (List.length_eq_zero_iff.mp h.symm)
      refine List.pairwise_cons.mpr ⟨fun b hb hpb => absurd hpb (hnil b hb), ?_⟩
      exact List.pairwise_of_forall_mem_list fun b hb c hc hpc => absurd hpc (hnil c hc)

/-- **A batch poll loses no completion** if and only if no record of a job that is gone comes before
one of a job that exists. -/
theorem batch_poll_applies (s : PolledContext) (records : List JobStatusRecord) :
    s.Applied records (s.pollJobStatus records).2 ↔ s.StaleLast records := by
  refine ⟨fun happlied => ?_, PolledContext.pollJobStatus_applied⟩
  have hsignals := happlied.signals
  rw [PolledContext.pollJobStatus_signals] at hsignals
  have hlength := congrArg List.length (List.append_cancel_left hsignals)
  rw [List.length_map, List.length_map] at hlength
  exact (pairwise_of_takeWhile hlength).imp fun h hb => by simpa using h (by simpa using hb)

end Polls

/-- A job that is scheduled, and next to it one that was cleaned. -/
def samplePolled : PolledContext :=
  { ctx :=
      { graphs := [⟨1, [⟨65536, false⟩, ⟨65537, true⟩], [⟨0, 65536, .sched, 65536, {}⟩], [65536]⟩] }
    pdata := fun _ => {}
    signals := [] }

/-- The record of the job that was cleaned comes first; the other job stays scheduled, and nobody is
woken. -/
theorem batch_poll_drops_record :
    ∃ records : List JobStatusRecord, records.map (·.jobId) = [65537, 65536] ∧
      (samplePolled.pollJobStatus records).2.ctx.getJob 65536 = some ⟨0, 65536, .sched, 65536, {}⟩ ∧
      (samplePolled.pollJobStatus records).2.signals = [] ∧
      ¬samplePolled.Applied records (samplePolled.pollJobStatus records).2 := by
  refine ⟨[⟨⟨65537, 7, .done⟩, {}⟩, ⟨⟨65536, 7, .done⟩, {}⟩], rfl, by decide, by decide,
    fun happlied => ?_⟩
  have hsignals := happlied.signals
  revert hsignals
  decide

/-- Two jobs end in the kernel; the newer one has timed out meanwhile and is cleaned. -/
def endsAfterTimeout : List RuntimeAction :=
  [.openDevice 7 [], .setRuntimeConfig true, .createNewJob 1 65536 true {},
    .createNewJob 1 65537 true {}, .flushJob 7 65536 [], .runSchedule true sampleMem,
    .flushJob 7 65537 [], .runSchedule true sampleMem, .waitForJobEnd 7 65537 1000,
    .kmd (.upperHalf 0 sampleMem), .kmd .queueWork, .kmd (.upperHalf 0 sampleMem), .kmd .queueWork,
    .kmd .bhStart, .kmd .bhDone, .kmd .bhResume, .kmd .bhDone, .kmd .bhResume,
    .wakeUp, .kill sampleMem, .giveUp, .cleanJob 65537]

/-- Over the kernel driver: the poll takes both records, and the older job stays scheduled although
the kernel has forgotten it. -/
theorem batch_poll_strands_job : ∃ tr s, (runtimeSystem .zhouyiV2 sampleMap 1).Run anyStep tr s ∧
    s.ctx.getJob 65536 = some ⟨0, 65536, .sched, 65536, {}⟩ ∧
    (∃ file sessionJob, .kmd (.reported file sessionJob ⟨65536, 7, .done⟩) ∈ tr) ∧
    ∀ f ∈ s.kmd.files, f.session.jobList = [] := by
  have hsome : ((runtimeSystem .zhouyiV2 sampleMap 1).exec anyStep sampleRuntime
      (endsAfterTimeout ++ [.pollJobStatus 8 0, .pollCheck, .query true 0 0])).map
      (fun r => (r.1.ctx.getJob 65536, decide (.kmd (.reported 0 0 ⟨65536, 7, .done⟩) ∈ r.2),
        r.1.kmd.files.map (·.session.jobList))) =
      some (some ⟨0, 65536, .sched, 65536, {}⟩, true, [[]]) := by
    decide +kernel
  obtain ⟨⟨s, tr⟩, hexec, hsample⟩ := Option.map_eq_some_iff.mp hsome
  obtain ⟨hjob, hsample⟩ := Prod.mk.inj hsample
  obtain ⟨hreported, hfiles⟩ := Prod.mk.inj hsample
  refine ⟨tr, s, System.run_of_exec sampleRuntime_init hexec, hjob,
    ⟨0, 0, of_decide_eq_true hreported⟩, fun f hf => ?_⟩
  have hmem := List.mem_map_of_mem (f := fun f : KmdFile => f.session.jobList) hf
  rw [hfiles] at hmem
  exact List.mem_singleton.mp hmem

end Aipu
