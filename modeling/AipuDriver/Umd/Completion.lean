import AipuDriver.Kmd.Ownership
import AipuDriver.Umd.RuntimeSteps

/-!
# Completions of jobs

The user-mode driver and the kernel driver know a job by its id only, and the user-mode driver gives
ids away again.  A job that has timed out while it ended leaves a record in the kernel: the kill is
refused, nobody fetches the record, and the next job with the id gets it.

A completion is genuine (`Genuine`) when the job itself, known by the number of its `job_desc_t`,
was triggered and has ended.  Completions are genuine as long as no job is built under an id for
which the list of the file still holds a session job that has ended or may still end
(`NoStaleRecord`).  The invariant is that such a session job was made of the job that is stored
under its id (`Runtime.Tracked`).
-/

namespace Aipu

open ListSearch Transition

/-! ## The property -/

/-- RUNJOB was called for the job, and what the kernel made of it was triggered and has ended. -/
def Genuine (tr : List RuntimeEvent) (addr : ℕ) : Prop :=
  ∃ sessionJob, .runjob addr sessionJob ∈ tr ∧ Ran (jmTrace tr) sessionJob

/-- All jobs that are done, or have ended with an exception, have run. -/
def Runtime.CompletionsGenuine (tr : List RuntimeEvent) (s : Runtime) : Prop :=
  ∀ id i job, s.ctx.job id i = some job → job.state = .done ∨ job.state = .exception →
    Genuine tr job.addr

/-- A number names one job: no two jobs have it, and the next one is that of no job and of no call
of RUNJOB so far. -/
structure Runtime.AddrsFresh (tr : List RuntimeEvent) (s : Runtime) : Prop where
  jobs : ∀ id i job, s.ctx.job id i = some job → job.addr < s.ctx.nextAddr
  runs : ∀ addr sessionJob, .runjob addr sessionJob ∈ tr → addr < s.ctx.nextAddr
  unique : ∀ id i job id' i' job', s.ctx.job id i = some job → s.ctx.job id' i' = some job' →
    job.addr = job'.addr → id = id' ∧ i = i'

/-- A job is built only under an id for which no session job has ended or may still end. -/
def NoStaleRecord (s : Runtime) : RuntimeAction → Prop
  | .createNewJob id handle inRange _ => ∀ g, s.ctx.getGraphObject id = some g →
      g.BuildsJob handle inRange → ∀ jobId, g.FirstUnseen jobId → jobId2graphId jobId = g.id →
      ∀ sj, s.Own sj → sj.desc.jobId = jobId → s.kmd.Dead sj.id
  | _ => True

/-- A session job that has ended or may still end was made of the job that is stored under its id,
if there is one. -/
def Runtime.Tracked (tr : List RuntimeEvent) (s : Runtime) : Prop :=
  ∀ sj, s.Live sj → ∀ job, s.ctx.getJob sj.desc.jobId = some job → .runjob job.addr sj.id ∈ tr

/-- The invariant. -/
structure CompletionInv (tr : List RuntimeEvent) (s : Runtime) : Prop where
  tracked : s.Tracked tr
  genuine : s.CompletionsGenuine tr
  addrs : s.AddrsFresh tr

section Completion

variable {s s' : Runtime} {a : RuntimeAction} {tr es : List RuntimeEvent} {max : ℤ}
  {ctx ctx' : MainContext}

/-! ## Steps -/

/-- What has run once has run. -/
theorem Genuine.append {addr : ℕ} (h : Genuine tr addr) (es : List RuntimeEvent) :
    Genuine (tr ++ es) addr := by
  obtain ⟨sessionJob, hrun, hran⟩ := h
  refine ⟨sessionJob, List.mem_append_left _ hrun, ?_⟩
  rw [jmTrace, List.filterMap_append, List.filterMap_append]
  exact hran.append _

/-- The jobs of `ctx'` are jobs of `ctx`; a state that differs is one of `P`. -/
def MainContext.Updates (P : ℕ → JobState → Prop) (ctx ctx' : MainContext) : Prop :=
  ∀ id i job', ctx'.job id i = some job' → ∃ job, ctx.job id i = some job ∧ job.addr = job'.addr ∧
    (job'.state = job.state ∨ id = jobId2graphId i ∧ P i job'.state)

/-- New states are updates. -/
theorem MainContext.Sets.updates {P : ℕ → JobState → Prop} (h : ctx.Sets P ctx') :
    ctx.Updates P ctx' := by
  intro id i job' hjob'
  rcases h id i with hsame | ⟨hroute, job, state, hjob, hP, hset⟩
  · exact ⟨job', hsame ▸ hjob', rfl, .inl rfl⟩
  · obtain rfl : _ = job' := Option.some.inj (hset.symm.trans hjob')
    exact ⟨job, hjob, rfl, .inr ⟨hroute, hP⟩⟩

/-- The jobs of a context are found under their own graph. -/
theorem MainContext.getJob_of_route {id i : ℕ} (h : id = jobId2graphId i) :
    ctx.getJob i = ctx.job id i := by rw [MainContext.getJob, h]

/-- `clean_job` at most erases a job. -/
theorem MainContext.cleanJob_updates {P : ℕ → JobState → Prop} (ctx : MainContext) (jobId : ℕ) :
    ctx.Updates P (ctx.cleanJob jobId).2 := by
  rcases ctx.cleanJob_spec jobId with hsame | ⟨-, herase⟩
  · exact (MainContext.Sets.of_same hsame).updates
  · intro id i job' hjob'
    rw [herase] at hjob'
    split_ifs at hjob'
    exact ⟨job', hjob', rfl, .inl rfl⟩

/-- The session jobs that QUERYSTATUS has reported belong to the jobs that the records name. -/
theorem Runtime.Tracked.reported (hT : s.Tracked tr) {taken : List SessionJob}
    (htaken : ∀ sj ∈ taken, s.Live sj ∧ Ran (jmTrace tr) sj.id) {jobId : ℕ}
    (hmem : jobId ∈ taken.map (·.desc.jobId)) {job : JobDesc}
    (hjob : s.ctx.getJob jobId = some job) :
    Genuine tr job.addr := by
  obtain ⟨sj, hsj, rfl⟩ := List.mem_map.mp hmem
  obtain ⟨hlive, hran⟩ := htaken sj hsj
  exact ⟨sj.id, hT sj hlive job hjob, hran⟩

/-- An update keeps the session jobs tracked that were there before. -/
theorem Runtime.Tracked.update {P : ℕ → JobState → Prop} (hT : s.Tracked tr)
    (hI : KernelInv max tr s) (hk : s.KernelStep s' es) (hctx : s.ctx.Updates P s'.ctx)
    {sj sj' : SessionJob} (hown : s.Own sj) (hid : sj.id = sj'.id) (hdesc : sj.desc = sj'.desc)
    (hlive' : s'.Live sj') {job' : JobDesc} (hjob' : s'.ctx.getJob sj'.desc.jobId = some job') :
    .runjob job'.addr sj'.id ∈ tr ++ es := by
  have hlive : s.Live sj := ⟨hown, fun hdead => hlive'.2 (hid ▸ hI.dead hk hdead)⟩
  obtain ⟨job, hjob, haddr, -⟩ := hctx _ _ job' hjob'
  rw [← hid, ← haddr]
  exact List.mem_append_left _ (hT sj hlive job (hdesc ▸ hjob))

/-- An update of jobs that are not done keeps the completions genuine. -/
theorem Runtime.CompletionsGenuine.update {P : ℕ → JobState → Prop} (hG : s.CompletionsGenuine tr)
    (hctx : s.ctx.Updates P s'.ctx)
    (hP : ∀ i job state, s.ctx.getJob i = some job → P i state →
      state = .done ∨ state = .exception → Genuine tr job.addr) :
    s'.CompletionsGenuine (tr ++ es) := by
  intro id i job' hjob' hended
  obtain ⟨job, hjob, haddr, hstate⟩ := hctx id i job' hjob'
  rw [← haddr]
  rcases hstate with hstate | ⟨hroute, hstate⟩
  · exact (hG id i job hjob (hstate ▸ hended)).append es
  · rw [← MainContext.getJob_of_route hroute] at hjob
    exact (hP i job _ hjob hstate hended).append es

/-- An update keeps the numbers. -/
theorem Runtime.AddrsFresh.update {P : ℕ → JobState → Prop} (hA : s.AddrsFresh tr)
    (hctx : s.ctx.Updates P s'.ctx) (haddr : s'.ctx.nextAddr = s.ctx.nextAddr)
    (hes : ∀ addr sessionJob, .runjob addr sessionJob ∈ es → addr < s.ctx.nextAddr) :
    s'.AddrsFresh (tr ++ es) := by
  refine ⟨?_, ?_, ?_⟩
  · intro id i job' hjob'
    obtain ⟨job, hjob, heq, -⟩ := hctx id i job' hjob'
    rw [haddr, ← heq]
    exact hA.jobs id i job hjob
  · intro addr sessionJob hmem
    rw [haddr]
    rcases List.mem_append.mp hmem with hmem | hmem
    · exact hA.runs addr sessionJob hmem
    · exact hes addr sessionJob hmem
  · intro id i job₁ id' i' job₂ hjob₁ hjob₂ heq
    obtain ⟨job, hjob, heq₁, -⟩ := hctx id i job₁ hjob₁
    obtain ⟨job', hjob', heq₂, -⟩ := hctx id' i' job₂ hjob₂
    exact hA.unique id i job id' i' job' hjob hjob' (by rw [heq₁, heq₂, heq])

/-- An update without RUNJOB keeps the invariant. -/
theorem CompletionInv.update {P : ℕ → JobState → Prop} (h : CompletionInv tr s)
    (hI : KernelInv max tr s) (hk : s.KernelStep s' es) (hown : s.KeepsOwn s')
    (hquiet : s.Quiet s' es) (hctx : s.ctx.Updates P s'.ctx)
    (hP : ∀ i job state, s.ctx.getJob i = some job → P i state →
      state = .done ∨ state = .exception → Genuine tr job.addr) : CompletionInv (tr ++ es) s' := by
  refine ⟨fun sj' hlive' job' hjob' => ?_, h.genuine.update hctx hP,
    h.addrs.update hctx hquiet.1 fun addr sessionJob hmem => absurd hmem (hquiet.2 _ _)⟩
  obtain ⟨sj, hsj, hid, hdesc⟩ := hown sj' hlive'.1
  exact h.tracked.update hI hk hctx hsj hid hdesc hlive' hjob'

/-- RUNJOB keeps the invariant: the new session job is made of the job that is stored under its
id. -/
theorem CompletionInv.flushed (h : CompletionInv tr s) (hI : KernelInv max tr s)
    (hk : s.KernelStep s' es) {jobId : ℕ} {job : JobDesc} (hjob : s.ctx.getJob jobId = some job)
    (hctx : s.ctx.Writes jobId .sched s'.ctx)
    (hown : ∀ sj', s'.Own sj' → (∃ sj, s.Own sj ∧ sj.id = sj'.id ∧ sj.desc = sj'.desc) ∨
      sj'.id = s.kmd.nextSessionJob ∧ sj'.desc.jobId = jobId)
    (haddr : s'.ctx.nextAddr = s.ctx.nextAddr)
    (hes : ∀ addr sessionJob, .runjob addr sessionJob ∈ es ↔
      addr = job.addr ∧ sessionJob = s.kmd.nextSessionJob) : CompletionInv (tr ++ es) s' := by
  have hupdates : s.ctx.Updates (fun _ state => state = .sched) s'.ctx :=
    (hctx.sets rfl).updates
  refine ⟨fun sj' hlive' job' hjob' => ?_, h.genuine.update hupdates (by simp),
    h.addrs.update hupdates haddr fun addr sessionJob hmem => ?_⟩
  · rcases hown sj' hlive'.1 with ⟨sj, hsj, hid, hdesc⟩ | ⟨hid, hjobId⟩
    · exact h.tracked.update hI hk hupdates hsj hid hdesc hlive' hjob'
    · obtain ⟨job₁, hjob₁, heq, -⟩ := hupdates _ _ job' hjob'
      rw [hjobId] at hjob₁
      have hsame : job₁ = job := Option.some.inj (hjob₁.symm.trans hjob)
      exact List.mem_append_right _ ((hes _ _).mpr ⟨by rw [← heq, hsame], hid⟩)
  · obtain ⟨rfl, -⟩ := (hes addr sessionJob).mp hmem
    exact h.addrs.jobs _ _ job hjob

/-- `create_new_job` keeps the invariant when it finds an id without a stale session job. -/
theorem CompletionInv.created (h : CompletionInv tr s) (hI : KernelInv max tr s)
    (hk : s.KernelStep s' es) {id handle : ℕ} {inRange : Bool} {config : UserJobDesc}
    {ret : AipuStatus} {new : Option ℕ}
    (hC : NoStaleRecord s (.createNewJob id handle inRange config))
    (hcreate : s.ctx.createNewJob id handle inRange config = some (ret, s'.ctx, new))
    (hes : es = [.returned ret none]) (hkmd : s'.kmd = s.kmd) (hfd : s'.fd = s.fd) :
    CompletionInv (tr ++ es) s' := by
  have hown := Runtime.keepsOwn_of_same hkmd hfd
  have hruns : ∀ addr sessionJob, RuntimeEvent.runjob addr sessionJob ∈ tr ++ es →
      addr < s.ctx.nextAddr := by
    intro addr sessionJob hmem
    refine h.addrs.runs addr sessionJob ?_
    simpa [hes] using hmem
  rcases MainContext.createNewJob_spec hcreate with ⟨hle, hsame⟩ |
    ⟨hnext, g, jobId, hg, hbuilds, hid, hnew⟩
  · have hupdates : s.ctx.Updates (fun _ _ => False) s'.ctx :=
      (MainContext.Sets.of_same hsame).updates
    refine ⟨fun sj' hlive' job' hjob' => ?_, h.genuine.update hupdates (by simp), ?_, ?_, ?_⟩
    · obtain ⟨sj, hsj, hsid, hdesc⟩ := hown sj' hlive'.1
      exact h.tracked.update hI hk hupdates hsj hsid hdesc hlive' hjob'
    · intro id i job hjob
      rw [hsame] at hjob
      exact (h.addrs.jobs id i job hjob).trans_le hle
    · exact fun addr sessionJob hmem => (hruns addr sessionJob hmem).trans_le hle
    · simpa only [hsame] using h.addrs.unique
  · refine ⟨?_, ?_, ?_, ?_, ?_⟩
    · intro sj' hlive' job' hjob'
      obtain ⟨sj, hlive, hsid, hdesc⟩ := hI.live hk hown hlive'
      rw [MainContext.getJob, hnew] at hjob'
      split_ifs at hjob' with hij
      · -- the search has found the id of a session job that may still be reported
        have hroute : jobId2graphId jobId = g.id := by
          rw [(MainContext.getGraphObject_eq_some hg).2, ← hij.1, hij.2]
        have hunseen := Graph.firstUnseen_of_createJobIdInner hid
        exact absurd (hC g hg hbuilds jobId hunseen hroute sj hlive.1 (hdesc ▸ hij.2)) hlive.2
      · rw [← hsid]
        exact List.mem_append_left _ (h.tracked sj hlive job' (hdesc ▸ hjob'))
    · intro id' i job hjob hended
      rw [hnew] at hjob
      split_ifs at hjob
      · obtain rfl := Option.some.inj hjob
        simp at hended
      · exact (h.genuine id' i job hjob hended).append es
    · intro id' i job hjob
      rw [hnew] at hjob
      rw [hnext]
      split_ifs at hjob
      · obtain rfl := Option.some.inj hjob
        exact Nat.lt_succ_self _
      · exact Nat.lt_succ_of_lt (h.addrs.jobs id' i job hjob)
    · intro addr sessionJob hmem
      rw [hnext]
      exact Nat.lt_succ_of_lt (hruns addr sessionJob hmem)
    · intro id₁ i₁ job₁ id₂ i₂ job₂ hjob₁ hjob₂ heq
      rw [hnew] at hjob₁ hjob₂
      split_ifs at hjob₁ hjob₂ with h₁ h₂ h₂
      · exact ⟨h₁.1.trans h₂.1.symm, h₁.2.trans h₂.2.symm⟩
      · obtain rfl := Option.some.inj hjob₁
        exact absurd heq.symm (h.addrs.jobs _ _ job₂ hjob₂).ne
      · obtain rfl := Option.some.inj hjob₂
        exact absurd heq (h.addrs.jobs _ _ job₁ hjob₁).ne
      · exact h.addrs.unique _ _ job₁ _ _ job₂ hjob₁ hjob₂ heq

/-- The records of QUERYSTATUS update jobs that have run. -/
theorem CompletionInv.replied (h : CompletionInv tr s) (hI : KernelInv max tr s)
    (hk : s.KernelStep s' es) {p : DevPoll} {fd : ℕ} {kzOk : Bool} {notCopied notCopiedQuery : ℕ}
    {kes : List KmdEvent} (hfd : s.fd = some fd)
    (hst : kmdStep s.kmd (.query fd p.statusQuery kzOk notCopied notCopiedQuery) =
      some (s'.kmd, kes))
    (hctx : if p.pollSingleJob then ∃ status rest, records kes = status :: rest ∧
        s'.ctx = (s.ctx.waitReply p.jobId status).2
      else s'.ctx = (s.ctx.pollReply (records kes)).2)
    (hfd' : s'.fd = s.fd) (hquiet : s.Quiet s' es) : CompletionInv (tr ++ es) s' := by
  obtain ⟨taken, hsets, htaken, -⟩ := hI.replied hfd hfd' hst hctx
  have hown : s.KeepsOwn s' := Runtime.keepsOwn_of_kmdStep hst hfd' (by simp)
  exact h.update hI hk hown hquiet hsets.updates fun i job state hjob hset _ =>
    h.tracked.reported htaken hset.1 hjob

/-- **One step.**  A step that meets the condition keeps the invariant. -/
theorem CompletionInv.step (h : CompletionInv tr s) (hI : KernelInv max tr s)
    (hC : NoStaleRecord s a) (hst : runtimeStep s a = some (s', es)) :
    CompletionInv (tr ++ es) s' := by
  obtain ⟨hk, hmove⟩ := runtimeStep_moves hI.jobs.files hst
  cases hmove with
  | same hown hjobs _ hquiet =>
    have hupdates : s.ctx.Updates (fun _ _ => False) s'.ctx :=
      (MainContext.Sets.of_same hjobs).updates
    exact h.update hI hk hown hquiet hupdates (by simp)
  | created ha hcreate hes hkmd hfd =>
    subst ha
    exact h.created hI hk hC hcreate hes hkmd hfd
  | flushed hjob _ hctx hown haddr hes => exact h.flushed hI hk hjob hctx hown haddr hes
  | refused _ hown hctx _ hquiet =>
    have hupdates : s.ctx.Updates (fun _ state => state = .noState) s'.ctx :=
      (hctx.sets rfl).updates
    exact h.update hI hk hown hquiet hupdates (by simp)
  | replied _ hfd hkst hctx hfd' _ hquiet => exact h.replied hI hk hfd hkst hctx hfd' hquiet
  | @timedOut jobId _ _ hctx hkmd hfd _ hquiet =>
    have hupdates : s.ctx.Updates (fun _ state => state = .timeout) s'.ctx := by
      rw [hctx]
      exact ((s.ctx.updateJobState_spec jobId .timeout).1.sets rfl).updates
    exact h.update hI hk (Runtime.keepsOwn_of_same hkmd hfd) hquiet hupdates (by simp)
  | @cleaned jobId _ hctx hkmd hfd _ hquiet =>
    have hupdates : s.ctx.Updates (fun _ _ => False) s'.ctx := by
      rw [hctx]
      exact s.ctx.cleanJob_updates jobId
    exact h.update hI hk (Runtime.keepsOwn_of_same hkmd hfd) hquiet hupdates (by simp)

end Completion

/-- **Completions are genuine.**  In every run whose calls build no job under an id with a stale
session job, a job that is done, or has ended with an exception, was itself triggered and has
ended. -/
theorem completion_is_genuine {version : AipuVersion} {map : MemoryMap} {maxSchedNum : ℤ}
    (hmax : 0 ≤ maxSchedNum) {tr : List RuntimeEvent} {s : Runtime}
    (h : (runtimeSystem version map maxSchedNum).Run NoStaleRecord tr s) :
    s.CompletionsGenuine tr ∧ s.AddrsFresh tr := by
  suffices hinv : CompletionInv tr s from ⟨hinv.genuine, hinv.addrs⟩
  induction h with
  | @start s hs =>
    obtain ⟨-, hfd, -, hgraphs⟩ := hs
    have hnone : ∀ id i, s.ctx.job id i = none := by
      intro id i
      rw [MainContext.job, Option.bind_eq_none_iff]
      intro g hg
      simp [Graph.getJobPtr, (hgraphs g (MainContext.getGraphObject_eq_some hg).1).1]
    refine ⟨?_, ?_, ?_, ?_, ?_⟩
    · rintro sj ⟨⟨f, -, hfid, -⟩, -⟩
      rw [hfd] at hfid
      cases hfid
    · simp [Runtime.CompletionsGenuine, hnone]
    · simp [hnone]
    · simp
    · simp [hnone]
  | next hrun hC hst ih => exact ih.step (runtimeSystem_kernel hmax hrun) hC hst

/-- A context with one graph, which has two buffers, over an idle kernel driver. -/
def sampleRuntime : Runtime :=
  { kmd := sampleKmd, fd := none,
    ctx := { graphs := [⟨1, [⟨65536, true⟩, ⟨65537, true⟩], [], []⟩] }, call := none }

theorem sampleRuntime_init : (runtimeSystem .zhouyiV2 sampleMap 1).init sampleRuntime := by
  refine ⟨sampleKmd_init, rfl, rfl, fun g hg => ?_⟩
  obtain rfl := List.mem_singleton.mp hg
  exact ⟨rfl, rfl⟩

/-- Jobs are built only while no file has a session job. -/
def BuildsFirst (s : Runtime) : RuntimeAction → Prop
  | .createNewJob _ _ _ _ => ∀ f ∈ s.kmd.files, f.session.jobList = []
  | _ => True

instance : DecidableRel BuildsFirst := fun s a => by
  rcases a <;> unfold BuildsFirst <;> infer_instance

/-- Then there is no stale session job. -/
theorem BuildsFirst.noStaleRecord {s : Runtime} {a : RuntimeAction} (h : BuildsFirst s a) :
    NoStaleRecord s a := by
  cases a with
  | createNewJob id handle inRange config =>
    rintro g - - jobId - - sj ⟨f, hf, -, hsj⟩ -
    rw [h f hf] at hsj
    cases hsj
  | _ => trivial

/-- A job that runs to its end and is waited for. -/
theorem completion_is_genuine_sample :
    ∃ (tr : List RuntimeEvent) (s : Runtime) (job : JobDesc),
      (runtimeSystem .zhouyiV2 sampleMap 1).Run NoStaleRecord tr s ∧
      s.ctx.getJob 65536 = some job ∧ job.state = .done ∧ Genuine tr job.addr := by
  have hsome : ((runtimeSystem .zhouyiV2 sampleMap 1).exec BuildsFirst sampleRuntime
      [.openDevice 7 [], .createNewJob 1 65536 true {}, .flushJob 7 65536 [],
        .runSchedule true sampleMem, .kmd (.upperHalf 0 sampleMem), .kmd .queueWork, .kmd .bhStart,
        .kmd .bhDone, .kmd .bhResume, .waitForJobEnd 7 65536 0, .pollCheck, .query true 0 0]).map
      (fun r => r.1.ctx.getJob 65536) = some (some ⟨0, 65536, .done, 65536, {}⟩) := by
    decide +kernel
  obtain ⟨⟨s, tr⟩, hexec, hjob⟩ := Option.map_eq_some_iff.mp hsome
  have hrun : (runtimeSystem .zhouyiV2 sampleMap 1).Run NoStaleRecord tr s :=
    (System.run_of_exec sampleRuntime_init hexec).mono fun _ _ => BuildsFirst.noStaleRecord
  have hgenuine := (completion_is_genuine (by decide) hrun).1
  exact ⟨tr, s, _, hrun, hjob, rfl, hgenuine _ _ _ hjob (.inl rfl)⟩

/-- A job that ends after its time is over and before it is killed. -/
def endsBeforeKill : List RuntimeAction :=
  [.openDevice 7 [], .createNewJob 1 65536 true {}, .flushJob 7 65536 [],
    .runSchedule true sampleMem, .waitForJobEnd 7 65536 1000, .pollCheck, .pollTimeout,
    .kmd (.upperHalf 0 sampleMem), .kmd .queueWork, .kmd .bhStart, .kmd .bhDone, .kmd .bhResume,
    .kill sampleMem, .giveUp]

/-- The session job of an end. -/
def JmEvent.endedSessionJob : JmEvent → Option ℕ
  | .ended _ sessionJob _ _ => some sessionJob
  | _ => none

/-- The session job that the kernel has made of the job number 1. -/
def RuntimeEvent.secondRunjob : RuntimeEvent → Option ℕ
  | .runjob 1 sessionJob => some sessionJob
  | _ => none

/-- The job is cleaned, and the record that it has left is taken for the end of the next job, which
the hardware is still running. -/
theorem stale_completion :
    ∃ tr s, (runtimeSystem .zhouyiV2 sampleMap 1).Run anyStep tr s ∧ ¬s.CompletionsGenuine tr := by
  have hsome : ((runtimeSystem .zhouyiV2 sampleMap 1).exec anyStep sampleRuntime
      (endsBeforeKill ++ [.cleanJob 65536, .createNewJob 1 65536 true {}, .flushJob 7 65536 [],
        .runSchedule true sampleMem, .waitForJobEnd 7 65536 0, .pollCheck, .query true 0 0])).map
      (fun r => (r.1.ctx.getJob 65536, r.2.filterMap RuntimeEvent.secondRunjob,
        (jmTrace r.2).filterMap JmEvent.endedSessionJob)) =
      some (some ⟨1, 65536, .done, 65536, {}⟩, [1], [0]) := by
    decide +kernel
  obtain ⟨⟨s, tr⟩, hexec, hsample⟩ := Option.map_eq_some_iff.mp hsome
  obtain ⟨hjob, hsample⟩ := Prod.mk.inj hsample
  obtain ⟨hruns, hends⟩ := Prod.mk.inj hsample
  refine ⟨tr, s, System.run_of_exec sampleRuntime_init hexec, fun hgenuine => ?_⟩
  obtain ⟨sessionJob, hrun, job, flag, -, hend⟩ := hgenuine _ _ _ hjob (.inl rfl)
  have hone : sessionJob ∈ tr.filterMap RuntimeEvent.secondRunjob :=
    List.mem_filterMap.mpr ⟨_, hrun, rfl⟩
  have hzero : sessionJob ∈ (jmTrace tr).filterMap JmEvent.endedSessionJob :=
    List.mem_filterMap.mpr ⟨_, hend, rfl⟩
  rw [hruns, List.mem_singleton] at hone
  rw [hends, List.mem_singleton] at hzero
  omega

end Aipu
