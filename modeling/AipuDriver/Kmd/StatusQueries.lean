import Mathlib.Data.List.Basic
import Mathlib.Data.List.Nodup
import Mathlib.Data.List.Perm.Basic
import AipuDriver.Lib.Transition
import AipuDriver.Kmd.DriverSteps

/-!
# Status queries (`aipu_session_get_job_status`)

A query walks the job list of the session once, writes a record of each END job that it is asked for
to an array and takes the job off the list.  `QueryExact` says what one call does: which jobs it
takes, what stays in the list, where it writes, and when it fails.  The array has `query_cnt`
records, an `int` made of the unsigned `max_cnt`; where that is negative the product with the size
of a record is close to `2 ^ 64` bytes, which no `kzalloc` grants.

Queries, submissions and completions make up the runs of a session (`sessionSystem`).  No job is
reported twice in a run, and queries of the batch mode report all END jobs before one of them finds
none (`queries_report_once`).
-/

namespace Aipu

open ListSearch Transition Word

/-! ## The status array -/

/-- `sizeof(struct job_status_desc)` -/
def jobStatusDescSize : ℕ := 48

/-- The `int` that follows `i`; the largest one is followed by the smallest. -/
def intSucc (i : ℤ) : ℤ := if i = 2 ^ 31 - 1 then -2 ^ 31 else i + 1

/-- The number of bytes that a query asks `kzalloc` for: `query_cnt` is an `int`, which the product
converts to `size_t`. -/
def JobStatusQuery.statusBytes (query : JobStatusQuery) : ℕ :=
  let queryCnt := if query.getSingleJob then 1 else query.maxCnt
  wrap 64 (signExtend 32 64 queryCnt * jobStatusDescSize)

/-- The indices at which the loop of `aipu_session_get_job_status` stores records, from the values
`pollCnt` and `pollIter` of its counters on. -/
def statusStores (query : JobStatusQuery) : ℕ → ℤ → List SessionJob → List ℤ
  | _, _, [] => []
  | pollCnt, pollIter, cursor :: rest =>
    if pollCnt = query.maxCnt then []
    else if query.matches cursor then
      if query.getSingleJob then [pollIter]
      else pollIter :: statusStores query (pollCnt + 1) (intSucc pollIter) rest
    else statusStores query pollCnt pollIter rest

/-! ## One query -/

/-- The END jobs of a list. -/
def endJobs (l : List SessionJob) : List SessionJob := l.filter fun sj => sj.state = .finished

/-- The jobs that a query should report: the first `max_cnt` END jobs, or the first END job with the
number asked for. -/
def JobStatusQuery.selects (query : JobStatusQuery) (l : List SessionJob) : List SessionJob :=
  if query.getSingleJob then ((endJobs l).filter fun sj => sj.desc.jobId = query.jobId).take 1
  else (endJobs l).take query.maxCnt

/-- What a query should do on the session: it reports the jobs selected, leaves the others in the
list in their order, stores inside the array, and fails exactly if it reports nothing. -/
structure QueryExact (kzOk : Bool) (session : AipuSession) (query : JobStatusQuery)
    (r : StatusResult) : Prop where
  taken : r.taken = if kzOk then query.selects session.jobList else []
  pollCnt : kzOk = true → r.query.pollCnt = r.taken.length
  rest : r.session = { session with jobList := session.jobList.diff r.taken }
  stores : kzOk = true → ∀ i ∈ statusStores query 0 0 session.jobList,
    0 ≤ i ∧ (i + 1) * jobStatusDescSize ≤ query.statusBytes
  fails : r.ret ≠ 0 ↔ r.taken = []
  unchanged : r.taken = [] → r.session = session

section Queries

variable {query : JobStatusQuery}

/-- The jobs that match the query, up to `n` of them, are the ones selected. -/
theorem selects_eq (query : JobStatusQuery) (l : List SessionJob) :
    query.selects l =
      (l.filter query.matches).take (if query.getSingleJob then 1 else query.maxCnt) := by
  unfold JobStatusQuery.selects endJobs
  cases hsingle : query.getSingleJob with
  | true =>
    rw [if_pos rfl, if_pos rfl, List.filter_filter]
    congr 2
    funext sj
    simp [JobStatusQuery.matches, hsingle]
  | false =>
    simp only [Bool.false_eq_true, if_false]
    congr 2
    funext sj
    simp [JobStatusQuery.matches, hsingle]

/-- The loop takes the first `n` jobs that match, where `n` is the number of records that are still
to be made, and leaves the others. -/
theorem collectStatus_eq {n pollCnt : ℕ} (l : List SessionJob)
    (hn : if query.getSingleJob then pollCnt ≠ query.maxCnt ∧ n = 1
      else pollCnt + n = query.maxCnt) :
    collectStatus query pollCnt l =
      (l.diff ((l.filter query.matches).take n), (l.filter query.matches).take n) := by
  induction l generalizing n pollCnt with
  | nil => simp [collectStatus]
  | cons cursor rest ih =>
    rw [collectStatus]
    by_cases hfull : pollCnt = query.maxCnt
    · have hzero : n = 0 := by
        split at hn
        · exact absurd hfull hn.1
        · omega
      rw [if_pos hfull, hzero, List.take_zero, List.diff_nil]
    rw [if_neg hfull]
    by_cases hmatch : query.matches cursor = true
    · rw [if_pos hmatch, List.filter_cons_of_pos hmatch]
      cases hsingle : query.getSingleJob with
      | true =>
        rw [if_pos hsingle] at hn
        rw [hn.2, if_pos rfl, List.take_succ_cons, List.take_zero, List.diff_cons,
          List.erase_cons_head, List.diff_nil]
      | false =>
        rw [hsingle] at hn
        simp only [Bool.false_eq_true, if_false] at hn ⊢
        obtain ⟨m, rfl⟩ : ∃ m, n = m + 1 := ⟨n - 1, by omega⟩
        have hrest := @ih m (pollCnt + 1) (by rw [hsingle]; simp; omega)
        rw [hrest, List.take_succ_cons, List.diff_cons, List.erase_cons_head]
    · rw [if_neg hmatch, List.filter_cons_of_neg hmatch, ih hn, List.cons_diff_of_not_mem]
      intro hmem
      exact hmatch (List.mem_filter.mp (List.mem_of_mem_take hmem)).2

/-- The records are stored one after the other, as long as the index is an `int`. -/
theorem statusStores_eq {n pollCnt i : ℕ} (l : List SessionJob)
    (hn : if query.getSingleJob then pollCnt ≠ query.maxCnt ∧ n = 1 else pollCnt + n = query.maxCnt)
    (hi : i + n < 2 ^ 31) :
    ∀ j ∈ statusStores query pollCnt i l, (i : ℤ) ≤ j ∧ j < i + n := by
  induction l generalizing n pollCnt i with
  | nil => simp [statusStores]
  | cons cursor rest ih =>
    rw [statusStores]
    split
    · simp
    rename_i hfull
    split
    · cases hsingle : query.getSingleJob with
      | true =>
        rw [if_pos hsingle] at hn
        rw [if_pos rfl, hn.2]
        simp
      | false =>
        rw [hsingle] at hn
        simp only [Bool.false_eq_true, if_false] at hn ⊢
        obtain ⟨m, rfl⟩ : ∃ m, n = m + 1 := ⟨n - 1, by omega⟩
        have hsucc : intSucc (i : ℤ) = ((i + 1 : ℕ) : ℤ) := by
          rw [intSucc, if_neg (by omega)]
          rfl
        have hrest := @ih m (pollCnt + 1) (i + 1)
          (by rw [hsingle]; simp; omega) (by omega)
        rw [hsucc]
        refine List.forall_mem_cons.mpr ⟨⟨Int.le_refl _, by omega⟩, fun j hj => ?_⟩
        obtain ⟨hle, hlt⟩ := hrest j hj
        constructor <;> omega
    · exact ih hn hi

/-- An array that `kzalloc` grants has room for `n` records. -/
theorem statusBytes_eq (hmax : query.maxCnt < 2 ^ 32) (hbytes : query.statusBytes < 2 ^ 63) :
    ∃ n, (if query.getSingleJob then n = 1 else n = query.maxCnt) ∧ n < 2 ^ 31 ∧
      query.statusBytes = n * jobStatusDescSize := by
  unfold JobStatusQuery.statusBytes jobStatusDescSize at *
  cases hsingle : query.getSingleJob with
  | true => exact ⟨1, rfl, by decide, rfl⟩
  | false =>
    rw [hsingle] at hbytes
    simp only [Bool.false_eq_true, if_false] at hbytes ⊢
    have hword : wrap 32 query.maxCnt = query.maxCnt := wrap_of_lt hmax
    by_cases hint : query.maxCnt < 2 ^ 31
    · refine ⟨query.maxCnt, rfl, hint, ?_⟩
      rw [signExtend, hword, if_pos hint, wrap_of_lt (by omega)]
    · -- a negative count asks for almost all of the address space
      obtain ⟨m, hm⟩ : ∃ m, query.maxCnt + m = 2 ^ 32 := ⟨2 ^ 32 - query.maxCnt, by omega⟩
      have hprod : (query.maxCnt + (2 ^ 64 - 2 ^ 32)) * 48 = 2 ^ 64 - 48 * m + 2 ^ 64 * 47 := by
        omega
      rw [signExtend, hword, if_neg hint, wrap, hprod, Nat.add_mul_mod_self_left,
        Nat.mod_eq_of_lt (by omega)] at hbytes
      omega

/-- What a call does whose `kzalloc` succeeds. -/
theorem aipuSessionGetJobStatus_eq {session : AipuSession} {kept taken : List SessionJob}
    (hcnt : 1 ≤ query.maxCnt) (hloop : collectStatus query 0 session.jobList = (kept, taken)) :
    aipuSessionGetJobStatus true 0 session query =
      if taken = [] then
        ⟨mapErrcode .itemNotFound, { session with jobList := kept },
          { query with pollCnt := 0, errcode := .itemNotFound }, []⟩
      else
        ⟨0, { session with jobList := kept },
          { query with pollCnt := taken.length, errcode := .noError }, taken⟩ := by
  unfold aipuSessionGetJobStatus
  rw [if_neg (by omega), if_pos rfl, hloop]
  cases taken <;> rfl

/-- **One query.** -/
theorem aipuSessionGetJobStatus_exact {kzOk : Bool} {session : AipuSession}
    (hcnt : 1 ≤ query.maxCnt) (hmax : query.maxCnt < 2 ^ 32)
    (hkz : kzOk = true → query.statusBytes < 2 ^ 63) :
    QueryExact kzOk session query (aipuSessionGetJobStatus kzOk 0 session query) := by
  cases kzOk with
  | false =>
    unfold aipuSessionGetJobStatus
    rw [if_neg (by omega)]
    constructor <;> simp
  | true =>
    obtain ⟨n, hn, hlt, hbytes⟩ := statusBytes_eq hmax (hkz rfl)
    have hcount : if query.getSingleJob then 0 ≠ query.maxCnt ∧ n = 1
        else 0 + n = query.maxCnt := by
      split at hn
      · rename_i hsingle
        rw [if_pos hsingle]
        omega
      · rename_i hsingle
        rw [if_neg hsingle]
        omega
    have hstores : ∀ i ∈ statusStores query 0 0 session.jobList,
        0 ≤ i ∧ (i + 1) * jobStatusDescSize ≤ query.statusBytes := by
      intro i hi
      obtain ⟨hle, hi⟩ := statusStores_eq (i := 0) session.jobList hcount (by omega) i hi
      rw [hbytes]
      simp only [jobStatusDescSize]
      omega
    have hselects : query.selects session.jobList =
        (session.jobList.filter query.matches).take n := by
      rw [selects_eq]
      split at hn
      · rename_i hsingle
        rw [if_pos hsingle, hn]
      · rename_i hsingle
        rw [if_neg hsingle, hn]
    have heq := aipuSessionGetJobStatus_eq hcnt (collectStatus_eq session.jobList hcount)
    rw [← hselects] at heq
    rw [heq]
    by_cases hnil : query.selects session.jobList = []
    · rw [if_pos hnil]
      exact ⟨hnil.symm, fun _ => rfl, by rw [hnil], fun _ => hstores, by simp, fun _ => by
        rw [hnil, List.diff_nil]⟩
    · rw [if_neg hnil]
      exact ⟨rfl, fun _ => rfl, rfl, fun _ => hstores, by simpa using hnil,
        fun hempty => absurd hempty hnil⟩

end Queries

/-! ## Runs of a session -/

/-- A session, with the address of the next session job. -/
structure SessionRun where
  session : AipuSession
  nextSessionJob : ℕ
deriving DecidableEq

/-- A call on a session that concerns its jobs. -/
inductive SessionCall
  /-- `aipu_session_add_job` -/
  | addJob (kz : Oracle) (tid : ℤ) (userJob : UserJob)
  /-- `aipu_session_job_done` -/
  | jobDone (job : ℕ) (excepFlag : ℤ)
  /-- `aipu_session_get_job_status`, whose copy to user space succeeds -/
  | getJobStatus (kzOk : Bool) (query : JobStatusQuery)

/-- A call reports jobs by the records that it returns. -/
def sessionCall (s : SessionRun) : SessionCall → Option (SessionRun × List SessionJob)
  | .addJob kz tid userJob =>
    match aipuSessionAddJob kz tid s.nextSessionJob s.session userJob with
    | none => none
    | some (none, session, _) => some ({ s with session := session }, [])
    | some (some _, session, _) => some (⟨session, s.nextSessionJob + 1⟩, [])
  | .jobDone job excepFlag =>
    some ({ s with session := (aipuSessionJobDone s.session job excepFlag).1 }, [])
  | .getJobStatus kzOk query =>
    let r := aipuSessionGetJobStatus kzOk 0 s.session query
    some ({ s with session := r.session }, r.taken)

/-- The session jobs have different addresses, all of them used. -/
def SessionRun.Fresh (s : SessionRun) : Prop :=
  (s.session.jobList.map SessionJob.id).Nodup ∧
    ∀ sj ∈ s.session.jobList, sj.id < s.nextSessionJob

/-- The runs of a session, from any job list. -/
def sessionSystem : System SessionRun SessionCall SessionJob where
  init := SessionRun.Fresh
  step := sessionCall

/-- No job ends, and all queries are in the batch mode. -/
def BatchQueries : SessionRun → SessionCall → Prop
  | _, .addJob .. => True
  | _, .jobDone .. => False
  | _, .getJobStatus _ query => query.getSingleJob = false

instance batchQueriesDecidable : DecidableRel BatchQueries := fun s a => by
  rcases a <;> unfold BatchQueries <;> infer_instance

section SessionRuns

variable {s s' : SessionRun} {es tr : List SessionJob}

/-- Adding a session job puts one that has not ended in front, or nothing. -/
theorem sessionCall_addJob {kz : Oracle} {tid : ℤ} {userJob : UserJob}
    (h : sessionCall s (.addJob kz tid userJob) = some (s', es)) : es = [] ∧
      ((s'.session.jobList = initSessionJob s.nextSessionJob tid userJob.desc :: s.session.jobList ∧
          s'.nextSessionJob = s.nextSessionJob + 1) ∨
        (s'.session.jobList = s.session.jobList ∧ s'.nextSessionJob = s.nextSessionJob)) := by
  unfold sessionCall aipuSessionAddJob at h
  dsimp only at h
  rcases hkz : kz.next with ⟨ok, kz'⟩
  cases ok with
  | false =>
    simp only [hkz, Bool.false_eq_true, if_false, Option.some.injEq, Prod.mk.injEq] at h
    obtain ⟨rfl, rfl⟩ := h
    exact ⟨rfl, .inr ⟨rfl, rfl⟩⟩
  | true =>
    cases hw : createThreadWaitQueueNoLock kz' s.session.waitQueue tid with
    | none => simp [hkz, hw, initSessionJob] at h
    | some out =>
      simp only [hkz, if_true, initSessionJob, hw, Option.some.injEq, Prod.mk.injEq] at h
      obtain ⟨rfl, rfl⟩ := h
      exact ⟨rfl, .inl ⟨rfl, rfl⟩⟩

/-- The end of a job changes no address. -/
theorem aipuSessionJobDone_ids (session : AipuSession) (job : ℕ) (flag : ℤ) :
    (aipuSessionJobDone session job flag).1.jobList.map SessionJob.id =
      session.jobList.map SessionJob.id := by
  rcases aipuSessionJobDone_cases session job flag with ⟨d, hd, heq⟩ | ⟨-, heq⟩
  · rw [heq, (seek_eq_some hd).1]
    simp [Cursor.toList, SessionJob.done]
  · rw [heq]

/-- The jobs that were reported have addresses of their own, none of which is still in the list. -/
def SessionRun.ReportedOnce (tr : List SessionJob) (s : SessionRun) : Prop :=
  ((s.session.jobList ++ tr).map SessionJob.id).Nodup ∧
    ∀ sj ∈ s.session.jobList ++ tr, sj.id < s.nextSessionJob

/-- Every call keeps it so. -/
theorem SessionRun.ReportedOnce.step {a : SessionCall} (h : s.ReportedOnce tr)
    (hst : sessionCall s a = some (s', es)) : s'.ReportedOnce (tr ++ es) := by
  obtain ⟨hnodup, hlt⟩ := h
  cases a with
  | addJob kz tid userJob =>
    obtain ⟨rfl, ⟨hlist, hnext⟩ | ⟨hlist, hnext⟩⟩ := sessionCall_addJob hst
    · rw [List.append_nil]
      refine ⟨?_, ?_⟩
      · rw [hlist, List.cons_append, List.map_cons, List.nodup_cons]
        refine ⟨fun hmem => ?_, hnodup⟩
        obtain ⟨sj, hsj, hid⟩ := List.mem_map.mp hmem
        have := hlt sj hsj
        simp only [initSessionJob] at hid
        omega
      · rw [hlist, hnext, List.cons_append]
        refine List.forall_mem_cons.mpr ⟨Nat.lt_succ_self _, fun sj hsj => ?_⟩
        exact Nat.lt_succ_of_lt (hlt sj hsj)
    · rw [SessionRun.ReportedOnce, List.append_nil, hlist, hnext]
      exact ⟨hnodup, hlt⟩
  | jobDone job flag =>
    obtain ⟨rfl, rfl⟩ := Prod.mk.inj (Option.some.inj hst)
    have hids := aipuSessionJobDone_ids s.session job flag
    rw [List.append_nil]
    refine ⟨?_, fun sj hsj => ?_⟩
    · rw [List.map_append] at hnodup ⊢
      rw [hids]
      exact hnodup
    · have hmem := List.mem_map_of_mem (f := SessionJob.id) hsj
      rw [List.map_append, hids, ← List.map_append] at hmem
      obtain ⟨sj', hsj', hid⟩ := List.mem_map.mp hmem
      exact hid ▸ hlt sj' hsj'
  | getJobStatus kzOk query =>
    obtain ⟨rfl, rfl⟩ := Prod.mk.inj (Option.some.inj hst)
    obtain ⟨ret, kept, query', taken, hr, hperm, -, -⟩ :=
      aipuSessionGetJobStatus_spec kzOk 0 s.session query
    rw [hr]
    -- the jobs in the list and the jobs reported are the same as before
    have hall : (kept ++ (tr ++ taken)).Perm (s.session.jobList ++ tr) := by
      refine (List.perm_append_comm.append_left kept).trans ?_
      rw [← List.append_assoc]
      exact hperm.append_right tr
    exact ⟨(hall.map _).nodup_iff.mpr hnodup, fun sj hsj => hlt sj (hall.mem_iff.mp hsj)⟩

/-- A query in the batch mode takes END jobs off the front. -/
theorem aipuSessionGetJobStatus_endJobs (kzOk : Bool) (session : AipuSession)
    {query : JobStatusQuery} (hbatch : query.getSingleJob = false) :
    (aipuSessionGetJobStatus kzOk 0 session query).taken ++
        endJobs (aipuSessionGetJobStatus kzOk 0 session query).session.jobList =
      endJobs session.jobList := by
  have hloop : ∀ pollCnt l, (collectStatus query pollCnt l).2 ++
      endJobs (collectStatus query pollCnt l).1 = endJobs l := by
    intro pollCnt l
    induction l generalizing pollCnt with
    | nil => rfl
    | cons cursor rest ih =>
      rw [collectStatus, hbatch]
      split
      · rfl
      · have hmatch : query.matches cursor = decide (cursor.state = .finished) := by
          simp [JobStatusQuery.matches, hbatch]
        rw [hmatch]
        by_cases hend : cursor.state = .finished
        · simpa [hend, endJobs] using ih (pollCnt + 1)
        · simpa [hend, endJobs] using ih pollCnt
  by_cases hcnt : query.maxCnt < 1
  · unfold aipuSessionGetJobStatus
    rw [if_pos hcnt]
    rfl
  cases kzOk with
  | false =>
    unfold aipuSessionGetJobStatus
    rw [if_neg hcnt]
    rfl
  | true =>
    have hend := hloop 0 session.jobList
    rw [aipuSessionGetJobStatus_eq (by omega) rfl]
    split
    · rename_i hnil
      rw [hnil] at hend
      exact hend
    · exact hend

/-- Queries in the batch mode report END jobs in the order of the list. -/
theorem batchQueries_endJobs (h : sessionSystem.Steps BatchQueries s tr s') :
    tr ++ endJobs s'.session.jobList = endJobs s.session.jobList := by
  induction h with
  | refl => rfl
  | @tail tr s₁ a s₂ es _ hC hst ih =>
    rw [List.append_assoc, ← ih]
    congr 1
    cases a with
    | addJob kz tid userJob =>
      obtain ⟨rfl, ⟨hlist, -⟩ | ⟨hlist, -⟩⟩ := sessionCall_addJob hst
      · rw [hlist]
        rfl
      · rw [hlist]
        rfl
    | jobDone job flag => exact absurd hC id
    | getJobStatus kzOk query =>
      obtain ⟨rfl, rfl⟩ := Prod.mk.inj (Option.some.inj hst)
      exact aipuSessionGetJobStatus_endJobs kzOk s₁.session hC

/-- A query in the batch mode that finds nothing leaves no END job. -/
theorem endJobs_of_notFound {kzOk : Bool} {session : AipuSession} {query : JobStatusQuery}
    (hcnt : 1 ≤ query.maxCnt) (hbatch : query.getSingleJob = false)
    (hnone : (aipuSessionGetJobStatus kzOk 0 session query).query.errcode = .itemNotFound) :
    endJobs session.jobList = [] := by
  cases kzOk with
  | false =>
    unfold aipuSessionGetJobStatus at hnone
    rw [if_neg (by omega)] at hnone
    cases hnone
  | true =>
    have hloop : collectStatus query 0 session.jobList = _ :=
      collectStatus_eq (n := query.maxCnt) session.jobList (by simp [hbatch])
    rw [aipuSessionGetJobStatus_eq hcnt hloop] at hnone
    split at hnone
    · rename_i hnil
      have hselects := selects_eq query session.jobList
      rw [hbatch] at hselects
      simp only [JobStatusQuery.selects, hbatch, Bool.false_eq_true, if_false, hnil] at hselects
      exact (List.take_eq_nil_iff.mp hselects).resolve_left (by omega)
    · cases hnone

/-- The jobs reported are reported once in every run. -/
theorem sessionSystem_reportedOnce (h : sessionSystem.Run anyStep tr s) : s.ReportedOnce tr := by
  refine h.invariant (I := fun tr s => s.ReportedOnce tr) ?_ ?_
  · rintro s ⟨hnodup, hlt⟩
    rw [SessionRun.ReportedOnce, List.append_nil]
    exact ⟨hnodup, hlt⟩
  · intro tr s a s' es hI _ hst
    exact hI.step hst

end SessionRuns

/-- **Status queries.**  Every query of at least one record, in either mode, does on any session
what it should do, where `kzalloc` grants no array of half the address space.  In every run of a
session that starts with any list of session jobs, no job is reported twice.  While no job ends,
queries of the batch mode report END jobs in the order of the list, and when one of them finds none
they have reported each END job once. -/
theorem queries_report_once :
    (∀ kzOk session (query : JobStatusQuery), 1 ≤ query.maxCnt → query.maxCnt < 2 ^ 32 →
      (kzOk = true → query.statusBytes < 2 ^ 63) →
      QueryExact kzOk session query (aipuSessionGetJobStatus kzOk 0 session query)) ∧
    (∀ tr s, sessionSystem.Run anyStep tr s → (tr.map SessionJob.id).Nodup) ∧
    ∀ s tr s' kzOk (query : JobStatusQuery), sessionSystem.Steps BatchQueries s tr s' →
      tr ++ endJobs s'.session.jobList = endJobs s.session.jobList ∧
      (1 ≤ query.maxCnt → query.getSingleJob = false →
        (aipuSessionGetJobStatus kzOk 0 s'.session query).query.errcode = .itemNotFound →
        tr = endJobs s.session.jobList) := by
  refine ⟨fun kzOk session query hcnt hmax hkz => aipuSessionGetJobStatus_exact hcnt hmax hkz,
    fun tr s hrun => ?_, fun s tr s' kzOk query hsteps => ?_⟩
  · have hnodup := (sessionSystem_reportedOnce hrun).1
    rw [List.map_append] at hnodup
    exact (List.nodup_append.mp hnodup).2.1
  · have hend := batchQueries_endJobs hsteps
    refine ⟨hend, fun hcnt hbatch hnone => ?_⟩
    rw [endJobs_of_notFound hcnt hbatch hnone, List.append_nil] at hend
    exact hend

/-- Four jobs, of which three end; one of these is asked for by its number, and two queries of the
batch mode report the other two before the next one finds none. -/
theorem queries_report_once_sample : ∃ tr s tr' s',
    sessionSystem.Run anyStep tr s ∧ tr.map SessionJob.id = [1] ∧ (tr.map SessionJob.id).Nodup ∧
    sessionSystem.Steps BatchQueries s tr' s' ∧ tr'.map SessionJob.id = [3, 0] ∧
    tr' = endJobs s.session.jobList ∧
    QueryExact true s.session ⟨1, false, 0, 0, .noError⟩
      (aipuSessionGetJobStatus true 0 s.session ⟨1, false, 0, 0, .noError⟩) := by
  obtain ⟨hcall, honce, hdrain⟩ := queries_report_once
  obtain ⟨s, tr, hexec, htr, s', tr', hexec', htr', hnone⟩ : ∃ s tr,
      sessionSystem.exec anyStep ⟨{ userPid := 7 }, 0⟩
        [.addJob [] 7 { desc := { jobId := 10 } }, .addJob [] 7 { desc := { jobId := 11 } },
          .addJob [] 8 { desc := { jobId := 12 } }, .addJob [] 7 { desc := { jobId := 13 } },
          .jobDone 1 0, .jobDone 0 0, .getJobStatus true ⟨1, true, 11, 0, .noError⟩,
          .jobDone 3 1] = some (s, tr) ∧
      tr.map SessionJob.id = [1] ∧ ∃ s' tr',
      sessionSystem.exec BatchQueries s
        [.getJobStatus true ⟨1, false, 0, 0, .noError⟩, .addJob [] 8 { desc := { jobId := 14 } },
          .getJobStatus true ⟨1, false, 0, 0, .noError⟩] = some (s', tr') ∧
      tr'.map SessionJob.id = [3, 0] ∧
      (aipuSessionGetJobStatus true 0 s'.session ⟨1, false, 0, 0, .noError⟩).query.errcode =
        .itemNotFound :=
    ⟨_, _, rfl, rfl, _, _, rfl, rfl, rfl⟩
  have hrun : sessionSystem.Run anyStep tr s :=
    System.run_of_exec ⟨by simp, by simp⟩ hexec
  have hsteps : sessionSystem.Steps BatchQueries s tr' s' := System.steps_of_exec hexec'
  exact ⟨tr, s, tr', s', hrun, htr, honce tr s hrun, hsteps, htr',
    (hdrain s tr' s' true _ hsteps).2 (by decide) rfl hnone,
    hcall true s.session _ (by decide) (by decide) fun _ => by decide⟩

end Aipu
