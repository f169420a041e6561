import AipuDriver.Umd.Completion

/-!
# States of jobs

A job moves from `built` over `sched` to an end state, and it keeps the end state until `clean_job`
deletes it.  `JobMove` lists the moves.  No write of a state looks at the state before, so that this
depends on the order of the calls, in two places.

* `wait_for_job_end` gives up a job that the kernel may still report; the next `poll_job_status`
  writes the record over the end state.
* The search for a job id does not see the jobs that have timed out; the new job takes the place of
  such a job.

`KeepsStates` excludes both.  Under it, a session job that may still be reported is the only one of
a job that is scheduled (`StatesInv`).
-/

namespace Aipu

open ListSearch Transition

/-! ## The property -/

/-- The job has ended. -/
def JobState.Ended (state : JobState) : Prop :=
  state = .done ∨ state = .exception ∨ state = .timeout

instance : DecidablePred JobState.Ended := fun _ => inferInstanceAs (Decidable (_ ∨ _ ∨ _))

/-- What a step may do to the job that is stored under an id. -/
inductive JobMove (a : RuntimeAction) (jobId : ℕ) : Option JobDesc → Option JobDesc → Prop
  | same (job : Option JobDesc) : JobMove a jobId job job
  | built {job : JobDesc} (hstate : job.state = .built) : JobMove a jobId none (some job)
  | scheduled {job : JobDesc} (hstate : job.state = .built) :
      JobMove a jobId (some job) (some { job with state := .sched })
  | ended {job : JobDesc} {state : JobState} (hstate : job.state = .sched) (hended : state.Ended) :
      JobMove a jobId (some job) (some { job with state := state })
  | cleaned {job : JobDesc} (ha : a = .cleanJob jobId) (hended : job.state.Ended) :
      JobMove a jobId (some job) none

/-- RUNJOB is accepted. -/
def RunjobAccepted (_ : Runtime) (a : RuntimeAction) : Prop := ¬a.Refused

instance : DecidableRel RunjobAccepted := fun _ _ => inferInstanceAs (Decidable ¬_)

/-- A job is given up only when the kernel reports it no more, and a job is built only under an id
that no stored job has. -/
def KeepsStates (s : Runtime) : RuntimeAction → Prop
  | .giveUp => ∀ jobId, s.call = some (.giveUp jobId) →
      ∀ sj, s.Own sj → sj.desc.jobId = jobId → s.kmd.Dead sj.id
  | .createNewJob id handle inRange _ => ∀ g, s.ctx.getGraphObject id = some g →
      g.BuildsJob handle inRange → ∀ jobId, g.FirstUnseen jobId → g.getJobPtr jobId = none
  | _ => True

/-- There is a scheduled job under the id. -/
def MainContext.Scheduled (ctx : MainContext) (jobId : ℕ) : Prop :=
  ∃ job, ctx.getJob jobId = some job ∧ job.state = .sched

/-- The invariant. -/
structure StatesInv (s : Runtime) : Prop where
  live : ∀ sj, s.Live sj → s.ctx.Scheduled sj.desc.jobId
  apart : ∀ sj sj', s.Live sj → s.Live sj' → sj.desc.jobId = sj'.desc.jobId → sj.id = sj'.id
  wait : ∀ jobId, s.waitsFor = some jobId → s.ctx.Scheduled jobId
  states : ∀ id i job, s.ctx.job id i = some job → job.state ≠ .noState

section States

variable {s s' : Runtime} {a : RuntimeAction} {tr es : List RuntimeEvent} {max : ℤ}
  {P : ℕ → JobState → Prop}

/-! ## Steps -/

/-- A wait starts only for a job that is scheduled. -/
theorem StatesInv.waitStart (h : StatesInv s) {jobId : ℕ} (hstart : s.ctx.waitStart jobId = none) :
    s.ctx.Scheduled jobId := by
  unfold MainContext.waitStart at hstart
  split at hstart
  · cases hstart
  next g hg =>
    have hgetJob : s.ctx.getJob jobId = g.getJobPtr jobId := by
      rw [MainContext.getJob, MainContext.job, hg]
      rfl
    split_ifs at hstart with hsched hend
    cases hjob : g.getJobPtr jobId with
    | none => simp [Graph.isJobSched, hjob] at hsched
    | some job =>
      rw [hjob] at hgetJob
      refine ⟨job, hgetJob, ?_⟩
      have hnoState := h.states _ _ job hgetJob
      cases hstate : job.state <;>
        simp [Graph.isJobSched, Graph.isJobEnd, Graph.jobStateIs, hjob,
          hstate] at hsched hend hnoState ⊢

/-- The job of a live session job is scheduled as long as no other state is written to it. -/
theorem MainContext.Scheduled.sets {ctx ctx' : MainContext} {jobId : ℕ} (h : ctx.Scheduled jobId)
    (hctx : ctx.Sets P ctx') (hfree : ∀ state, ¬P jobId state) : ctx'.Scheduled jobId := by
  obtain ⟨job, hjob, hstate⟩ := h
  rcases hctx _ jobId with hsame | ⟨-, -, state, -, hP, -⟩
  · exact ⟨job, hsame.trans hjob, hstate⟩
  · exact absurd hP (hfree state)

/-- New states are moves when they are legal. -/
theorem MainContext.Sets.moves (hctx : s.ctx.Sets P s'.ctx)
    (hP : ∀ i job state, s.ctx.getJob i = some job → P i state →
      job.state = .built ∧ state = .sched ∨ job.state = .sched ∧ state.Ended) (id i : ℕ) :
    JobMove a i (s.ctx.job id i) (s'.ctx.job id i) := by
  rcases hctx id i with hsame | ⟨rfl, job, state, hjob, hstate, hset⟩
  · rw [hsame]
    exact .same _
  · rw [hjob, hset]
    rcases hP i job state hjob hstate with ⟨hbuilt, rfl⟩ | ⟨hsched, hended⟩
    · exact .scheduled hbuilt
    · exact .ended hsched hended

/-- New states other than `noState` keep the jobs in states. -/
theorem StatesInv.states_sets (h : StatesInv s) (hctx : s.ctx.Sets P s'.ctx)
    (hP : ∀ i state, P i state → state ≠ .noState) :
    ∀ id i job, s'.ctx.job id i = some job → job.state ≠ .noState := by
  intro id i job' hjob'
  rcases hctx id i with hsame | ⟨-, job, state, -, hstate, hset⟩
  · exact h.states id i job' (hsame ▸ hjob')
  · obtain rfl : _ = job' := Option.some.inj (hset.symm.trans hjob')
    exact hP i state hstate

/-- Session jobs that were apart stay apart. -/
theorem StatesInv.apart_of_keepsOwn (h : StatesInv s) (hI : KernelInv max tr s)
    (hk : s.KernelStep s' es) (hown : s.KeepsOwn s') (sj₁ sj₂ : SessionJob) (h₁ : s'.Live sj₁)
    (h₂ : s'.Live sj₂) (heq : sj₁.desc.jobId = sj₂.desc.jobId) : sj₁.id = sj₂.id := by
  obtain ⟨sj, hsj, hid, hdesc⟩ := hI.live hk hown h₁
  obtain ⟨sj', hsj', hid', hdesc'⟩ := hI.live hk hown h₂
  rw [← hid, ← hid']
  exact h.apart sj sj' hsj hsj' (by rw [hdesc, hdesc', heq])

/-- New states for jobs that are reported no more keep the invariant. -/
theorem StatesInv.sets (h : StatesInv s) (hI : KernelInv max tr s) (hk : s.KernelStep s' es)
    (hown : s.KeepsOwn s') (hctx : s.ctx.Sets P s'.ctx)
    (hP : ∀ i state, P i state → state ≠ .noState)
    (hfree : ∀ sj', s'.Live sj' → ∀ state, ¬P sj'.desc.jobId state)
    (hwait : ∀ jobId, s'.waitsFor = some jobId → s'.ctx.Scheduled jobId) : StatesInv s' := by
  refine ⟨fun sj' hlive' => ?_, h.apart_of_keepsOwn hI hk hown, hwait, h.states_sets hctx hP⟩
  obtain ⟨sj, hlive, -, hdesc⟩ := hI.live hk hown hlive'
  exact (hdesc ▸ h.live sj hlive).sets hctx (hfree sj' hlive')

/-- A step that leaves the jobs as they are. -/
theorem StatesInv.unchanged (h : StatesInv s) (hI : KernelInv max tr s) (hk : s.KernelStep s' es)
    (hown : s.KeepsOwn s') (hsame : ∀ id i, s'.ctx.job id i = s.ctx.job id i)
    (hwait : ∀ jobId, s'.waitsFor = some jobId → s.ctx.Scheduled jobId) :
    StatesInv s' ∧ ∀ id i, JobMove a i (s.ctx.job id i) (s'.ctx.job id i) := by
  have hsets : s.ctx.Sets (fun _ _ => False) s'.ctx := .of_same hsame
  refine ⟨h.sets hI hk hown hsets (by simp) (by simp) fun jobId hjobId => ?_, fun id i => ?_⟩
  · exact (hwait jobId hjobId).sets hsets (by simp)
  · rw [hsame]
    exact .same _

/-- Nothing waits. -/
theorem Runtime.no_wait {ctx : MainContext} (h : s.waitsFor = none) (jobId : ℕ)
    (hwait : s.waitsFor = some jobId) : ctx.Scheduled jobId := by
  rw [h] at hwait
  cases hwait

/-- RUNJOB makes the session job of a job that had none. -/
theorem StatesInv.flushed (h : StatesInv s) (hI : KernelInv max tr s) (hk : s.KernelStep s' es)
    {jobId : ℕ} {job : JobDesc} (hjob : s.ctx.getJob jobId = some job) (hbuilt : job.state = .built)
    (hctx : s.ctx.Writes jobId .sched s'.ctx)
    (hown : ∀ sj', s'.Own sj' → (∃ sj, s.Own sj ∧ sj.id = sj'.id ∧ sj.desc = sj'.desc) ∨
      sj'.id = s.kmd.nextSessionJob ∧ sj'.desc.jobId = jobId)
    (hwait : s'.waitsFor = none) : StatesInv s' := by
  have hsets : s.ctx.Sets (fun i state => i = jobId ∧ state = .sched) s'.ctx := hctx.sets ⟨rfl, rfl⟩
  have hother : ∀ sj, s.Live sj → sj.desc.jobId ≠ jobId := by
    rintro sj hlive rfl
    obtain ⟨job', hjob', hsched⟩ := h.live sj hlive
    rw [Option.some.inj (hjob'.symm.trans hjob), hbuilt] at hsched
    cases hsched
  have hlive : ∀ sj', s'.Live sj' → (∃ sj, s.Live sj ∧ sj.id = sj'.id ∧ sj.desc = sj'.desc) ∨
      sj'.id = s.kmd.nextSessionJob ∧ sj'.desc.jobId = jobId := by
    intro sj' hlive'
    rcases hown sj' hlive'.1 with ⟨sj, hsj, hid, hdesc⟩ | hnew
    · exact .inl ⟨sj, ⟨hsj, fun hdead => hlive'.2 (hid ▸ hI.dead hk hdead)⟩, hid, hdesc⟩
    · exact .inr hnew
  refine ⟨fun sj' hlive' => ?_, fun sj₁ sj₂ h₁ h₂ heq => ?_, Runtime.no_wait hwait,
    h.states_sets hsets (by simp)⟩
  · rcases hlive sj' hlive' with ⟨sj, hsj, -, hdesc⟩ | ⟨-, hid⟩
    · rw [← hdesc]
      exact (h.live sj hsj).sets hsets fun state hP => hother sj hsj hP.1
    · refine ⟨{ job with state := .sched }, ?_, rfl⟩
      rw [MainContext.getJob] at hjob
      rw [MainContext.getJob, hctx, hid, if_pos ⟨rfl, rfl⟩, hjob]
      rfl
  · rcases hlive sj₁ h₁ with ⟨sj, hsj, hid, hdesc⟩ | ⟨hid, hjobId⟩
    · rcases hlive sj₂ h₂ with ⟨sj', hsj', hid', hdesc'⟩ | ⟨-, hjobId'⟩
      · rw [← hid, ← hid']
        exact h.apart sj sj' hsj hsj' (by rw [hdesc, hdesc', heq])
      · exact absurd (by rw [hdesc, heq, hjobId']) (hother sj hsj)
    · rcases hlive sj₂ h₂ with ⟨sj', hsj', -, hdesc'⟩ | ⟨hid', -⟩
      · exact absurd (by rw [hdesc', ← heq, hjobId]) (hother sj' hsj')
      · rw [hid, hid']

/-- `create_new_job` builds a job where there was none. -/
theorem StatesInv.created (h : StatesInv s) (hI : KernelInv max tr s) (hk : s.KernelStep s' es)
    {id handle : ℕ} {inRange : Bool} {config : UserJobDesc} {ret : AipuStatus} {new : Option ℕ}
    (hC : KeepsStates s (.createNewJob id handle inRange config))
    (hcreate : s.ctx.createNewJob id handle inRange config = some (ret, s'.ctx, new))
    (hkmd : s'.kmd = s.kmd) (hfd : s'.fd = s.fd) (hwait : s'.waitsFor = none) :
    StatesInv s' ∧ ∀ id i, JobMove a i (s.ctx.job id i) (s'.ctx.job id i) := by
  have hown := Runtime.keepsOwn_of_same hkmd hfd
  rcases MainContext.createNewJob_spec hcreate with ⟨-, hsame⟩ |
    ⟨-, g, jobId, hg, hbuilds, hid, hnew⟩
  · exact h.unchanged hI hk hown hsame (Runtime.no_wait hwait)
  · have hfresh : s.ctx.job id jobId = none := by
      rw [MainContext.job, hg]
      exact hC g hg hbuilds jobId (Graph.firstUnseen_of_createJobIdInner hid)
    refine ⟨⟨fun sj' hlive' => ?_, h.apart_of_keepsOwn hI hk hown, Runtime.no_wait hwait,
      fun id' i job' hjob' => ?_⟩, fun id' i => ?_⟩
    · obtain ⟨sj, hlive, -, hdesc⟩ := hI.live hk hown hlive'
      obtain ⟨job, hjob, hsched⟩ := h.live sj hlive
      rw [hdesc] at hjob
      refine ⟨job, ?_, hsched⟩
      rw [MainContext.getJob] at hjob ⊢
      rw [hnew, if_neg, hjob]
      rintro ⟨hroute, hjobId⟩
      rw [hroute, hjobId, hfresh] at hjob
      cases hjob
    · rw [hnew] at hjob'
      split_ifs at hjob'
      · obtain rfl := Option.some.inj hjob'
        simp
      · exact h.states id' i job' hjob'
    · rw [hnew]
      split_ifs with hij
      · rw [hij.1, hij.2, hfresh]
        exact .built rfl
      · exact .same _

/-- `clean_job` deletes jobs that have ended. -/
theorem StatesInv.cleaned (h : StatesInv s) (hI : KernelInv max tr s) (hk : s.KernelStep s' es)
    {jobId : ℕ} (ha : a = .cleanJob jobId) (hctx : s'.ctx = (s.ctx.cleanJob jobId).2)
    (hkmd : s'.kmd = s.kmd) (hfd : s'.fd = s.fd) (hwait : s'.waitsFor = none) :
    StatesInv s' ∧ ∀ id i, JobMove a i (s.ctx.job id i) (s'.ctx.job id i) := by
  have hown := Runtime.keepsOwn_of_same hkmd hfd
  rcases s.ctx.cleanJob_spec jobId with hsame | ⟨⟨job, hjob, hbuilt, hsched⟩, herase⟩
  · rw [← hctx] at hsame
    exact h.unchanged hI hk hown hsame (Runtime.no_wait hwait)
  · rw [← hctx] at herase
    have hended : job.state.Ended := by
      have hnoState := h.states _ _ job hjob
      cases hstate : job.state <;> simp [JobState.Ended, hstate] at hbuilt hsched hnoState ⊢
    refine ⟨⟨fun sj' hlive' => ?_, h.apart_of_keepsOwn hI hk hown, Runtime.no_wait hwait,
      fun id i job' hjob' => ?_⟩, fun id i => ?_⟩
    · obtain ⟨sj, hlive, -, hdesc⟩ := hI.live hk hown hlive'
      obtain ⟨job', hjob', hsched'⟩ := h.live sj hlive
      rw [hdesc] at hjob'
      refine ⟨job', ?_, hsched'⟩
      rw [MainContext.getJob, herase, if_neg, ← MainContext.getJob, hjob']
      rintro ⟨-, hjobId⟩
      rw [hjobId] at hjob'
      exact hsched (Option.some.inj (hjob'.symm.trans hjob) ▸ hsched')
    · rw [herase] at hjob'
      split_ifs at hjob'
      exact h.states id i job' hjob'
    · rw [herase]
      split_ifs with hij
      · rw [hij.1, hij.2, ← MainContext.getJob, hjob]
        exact .cleaned ha hended
      · exact .same _

/-- The records of QUERYSTATUS end scheduled jobs, which are reported no more. -/
theorem StatesInv.replied (h : StatesInv s) (hI : KernelInv max tr s) (hk : s.KernelStep s' es)
    (hown : s.KeepsOwn s') {taken : List SessionJob}
    (hsets : s.ctx.Sets (fun i state => i ∈ taken.map (·.desc.jobId) ∧
      (state = .done ∨ state = .exception)) s'.ctx)
    (htaken : ∀ sj ∈ taken, s.Live sj)
    (hleft : ∀ sj', s'.Own sj' → sj'.id ∉ taken.map SessionJob.id) (hwait : s'.waitsFor = none) :
    StatesInv s' ∧ ∀ id i, JobMove a i (s.ctx.job id i) (s'.ctx.job id i) := by
  refine ⟨h.sets hI hk hown hsets ?_ ?_ (Runtime.no_wait hwait), hsets.moves ?_⟩
  · rintro i state ⟨-, rfl | rfl⟩ <;> simp
  · rintro sj' hlive' state ⟨hmem, -⟩
    obtain ⟨sj₁, hsj₁, hjobId⟩ := List.mem_map.mp hmem
    obtain ⟨sj, hlive, hid, hdesc⟩ := hI.live hk hown hlive'
    have hsame : sj₁.id = sj.id := h.apart sj₁ sj (htaken sj₁ hsj₁) hlive (by rw [hjobId, hdesc])
    exact hleft sj' hlive'.1 (List.mem_map.mpr ⟨sj₁, hsj₁, by rw [hsame, hid]⟩)
  · rintro i job state hjob ⟨hmem, hstate⟩
    obtain ⟨sj, hsj, rfl⟩ := List.mem_map.mp hmem
    obtain ⟨job', hjob', hsched⟩ := h.live sj (htaken sj hsj)
    obtain rfl := Option.some.inj (hjob'.symm.trans hjob)
    refine .inr ⟨hsched, ?_⟩
    rcases hstate with rfl | rfl
    · exact .inl rfl
    · exact .inr (.inl rfl)

/-- The job that is given up was scheduled, and it is reported no more. -/
theorem StatesInv.timedOut (h : StatesInv s) (hI : KernelInv max tr s) (hk : s.KernelStep s' es)
    {jobId : ℕ} (hC : KeepsStates s .giveUp) (hcall : s.call = some (.giveUp jobId))
    (hctx : s'.ctx = (s.ctx.waitTimeout jobId).2) (hkmd : s'.kmd = s.kmd) (hfd : s'.fd = s.fd)
    (hwait : s'.waitsFor = none) :
    StatesInv s' ∧ ∀ id i, JobMove a i (s.ctx.job id i) (s'.ctx.job id i) := by
  have hown := Runtime.keepsOwn_of_same hkmd hfd
  have hwrites : s.ctx.Writes jobId .timeout (s.ctx.waitTimeout jobId).2 :=
    (s.ctx.updateJobState_spec jobId .timeout).1
  have hsets : s.ctx.Sets (fun i state => i = jobId ∧ state = .timeout) s'.ctx := by
    rw [hctx]
    exact hwrites.sets ⟨rfl, rfl⟩
  refine ⟨h.sets hI hk hown hsets (by simp) ?_ (Runtime.no_wait hwait), hsets.moves ?_⟩
  · rintro sj' hlive' state ⟨hjobId, -⟩
    obtain ⟨sj, hlive, -, hdesc⟩ := hI.live hk hown hlive'
    exact hlive.2 (hC jobId hcall sj hlive.1 (by rw [hdesc, hjobId]))
  · rintro i job state hjob ⟨rfl, rfl⟩
    obtain ⟨job', hjob', hsched⟩ := h.wait i (by rw [Runtime.waitsFor, hcall]; rfl)
    obtain rfl := Option.some.inj (hjob'.symm.trans hjob)
    exact .inr ⟨hsched, .inr (.inr rfl)⟩

/-- **One step.**  A step that meets the condition keeps the invariant, and every job makes a
move. -/
theorem StatesInv.step (h : StatesInv s) (hI : KernelInv max tr s) (haccepted : RunjobAccepted s a)
    (hC : KeepsStates s a) (hst : runtimeStep s a = some (s', es)) :
    StatesInv s' ∧ ∀ id i, JobMove a i (s.ctx.job id i) (s'.ctx.job id i) := by
  obtain ⟨hk, hmove⟩ := runtimeStep_moves hI.jobs.files hst
  cases hmove with
  | same hown hjobs hwait =>
    exact h.unchanged hI hk hown hjobs fun jobId hjobId =>
      (hwait jobId hjobId).elim (h.wait jobId) h.waitStart
  | created ha hcreate _ hkmd hfd hwait =>
    subst ha
    exact h.created hI hk hC hcreate hkmd hfd hwait
  | @flushed jobId job hjob hbuilt hctx hown _ _ hwait =>
    refine ⟨h.flushed hI hk hjob hbuilt hctx hown hwait, ?_⟩
    refine (hctx.sets (P := fun i state => i = jobId ∧ state = .sched) ⟨rfl, rfl⟩).moves ?_
    rintro i job' state hjob' ⟨rfl, rfl⟩
    obtain rfl := Option.some.inj (hjob'.symm.trans hjob)
    exact .inl ⟨hbuilt, rfl⟩
  | refused ha => exact absurd ha haccepted
  | replied _ hfd hkst hctx hfd' hwait =>
    obtain ⟨taken, hsets, htaken, hleft⟩ := hI.replied hfd hfd' hkst hctx
    exact h.replied hI hk (Runtime.keepsOwn_of_kmdStep hkst hfd' (by simp)) hsets
      (fun sj hsj => (htaken sj hsj).1) hleft hwait
  | timedOut ha hcall hctx hkmd hfd hwait =>
    subst ha
    exact h.timedOut hI hk hC hcall hctx hkmd hfd hwait
  | cleaned ha hctx hkmd hfd hwait => exact h.cleaned hI hk ha hctx hkmd hfd hwait

end States

/-- **States of jobs.**  In every run in which RUNJOB is accepted and whose steps all meet the
condition, every step moves every job forward or leaves it as it is. -/
theorem job_states_move_forward {version : AipuVersion} {map : MemoryMap} {maxSchedNum : ℤ}
    (hmax : 0 ≤ maxSchedNum) {tr : List RuntimeEvent} {s : Runtime}
    (h : (runtimeSystem version map maxSchedNum).Run
      (fun s a => RunjobAccepted s a ∧ KeepsStates s a) tr s) :
    ∀ a s' es, RunjobAccepted s a → KeepsStates s a → runtimeStep s a = some (s', es) →
      ∀ id i, JobMove a i (s.ctx.job id i) (s'.ctx.job id i) := by
  suffices hinv : StatesInv s from fun a s' es haccepted hC hst =>
    (hinv.step (runtimeSystem_kernel hmax h) haccepted hC hst).2
  induction h with
  | @start s hs =>
    obtain ⟨-, hfd, hcall, hgraphs⟩ := hs
    have hlive : ∀ sj, ¬s.Live sj := by
      rintro sj ⟨⟨f, -, hfid, -⟩, -⟩
      rw [hfd] at hfid
      cases hfid
    refine ⟨fun sj h => absurd h (hlive sj), fun sj _ h => absurd h (hlive sj), ?_, ?_⟩
    · simp [Runtime.waitsFor, hcall]
    · intro id i job hjob
      obtain ⟨g, hg, hjob⟩ := Option.bind_eq_some_iff.mp hjob
      have hnil := (hgraphs g (MainContext.getGraphObject_eq_some hg).1).1
      simp [Graph.getJobPtr, hnil] at hjob
  | next hrun hC hst ih => exact (ih.step (runtimeSystem_kernel hmax hrun) hC.1 hC.2 hst).1

/-- Jobs are built only while there are none, and given up only when no session job may be
reported. -/
def SettlesFirst (s : Runtime) (a : RuntimeAction) : Prop :=
  RunjobAccepted s a ∧ match a with
    | .giveUp => ∀ f ∈ s.kmd.files, ∀ sj ∈ f.session.jobList, s.kmd.Dead sj.id
    | .createNewJob _ _ _ _ => ∀ g ∈ s.ctx.graphs, g.jobs = []
    | _ => True

instance : DecidableRel SettlesFirst := fun s a => by
  rcases a <;> unfold SettlesFirst <;> infer_instance

/-- Then the condition holds. -/
theorem SettlesFirst.keepsStates {s : Runtime} {a : RuntimeAction} (h : SettlesFirst s a) :
    RunjobAccepted s a ∧ KeepsStates s a := by
  refine ⟨h.1, ?_⟩
  have hsettled := h.2
  cases a with
  | giveUp =>
    rintro jobId - sj ⟨f, hf, -, hsj⟩ -
    exact hsettled f hf sj hsj
  | createNewJob id handle inRange config =>
    intro g hg _ jobId _
    simp [Graph.getJobPtr, hsettled g (MainContext.getGraphObject_eq_some hg).1]
  | _ => trivial

/-- A job is killed when its time is over, and then it is given up. -/
theorem job_states_move_forward_sample :
    ∃ (tr : List RuntimeEvent) (s s' : Runtime) (es : List RuntimeEvent),
      (runtimeSystem .zhouyiV2 sampleMap 1).Run
        (fun s a => RunjobAccepted s a ∧ KeepsStates s a) tr s ∧
      runtimeStep s .giveUp = some (s', es) ∧
      s.ctx.job 1 65536 = some ⟨0, 65536, .sched, 65536, {}⟩ ∧
      s'.ctx.job 1 65536 = some ⟨0, 65536, .timeout, 65536, {}⟩ ∧
      ∀ id i, JobMove .giveUp i (s.ctx.job id i) (s'.ctx.job id i) := by
  have hsome : ((runtimeSystem .zhouyiV2 sampleMap 1).exec SettlesFirst sampleRuntime
      [.openDevice 7 [], .createNewJob 1 65536 true {}, .flushJob 7 65536 [],
        .runSchedule true sampleMem, .waitForJobEnd 7 65536 1000, .pollCheck, .pollTimeout,
        .kill sampleMem]).map
      (fun r => (r.1.ctx.job 1 65536, decide (SettlesFirst r.1 .giveUp),
        (runtimeStep r.1 .giveUp).map fun r' => r'.1.ctx.job 1 65536)) =
      some (some ⟨0, 65536, .sched, 65536, {}⟩, true,
        some (some ⟨0, 65536, .timeout, 65536, {}⟩)) := by
    decide +kernel
  obtain ⟨⟨s, tr⟩, hexec, hsample⟩ := Option.map_eq_some_iff.mp hsome
  obtain ⟨hjob, hsample⟩ := Prod.mk.inj hsample
  obtain ⟨hsettles, hstep⟩ := Prod.mk.inj hsample
  obtain ⟨⟨s', es⟩, hst, hjob'⟩ := Option.map_eq_some_iff.mp hstep
  have hrun := (System.run_of_exec sampleRuntime_init hexec).mono
    fun _ _ => SettlesFirst.keepsStates
  have hkeeps := (of_decide_eq_true hsettles).keepsStates
  exact ⟨tr, s, s', es, hrun, hst, hjob, hjob',
    job_states_move_forward (by decide) hrun _ _ _ hkeeps.1 hkeeps.2 hst⟩

/-- A job that was given up becomes done, because it has ended before the kill. -/
theorem timed_out_job_becomes_done :
    ∃ (tr : List RuntimeEvent) (s s' : Runtime) (es : List RuntimeEvent),
      (runtimeSystem .zhouyiV2 sampleMap 1).Run RunjobAccepted tr s ∧
      RunjobAccepted s (.query true 0 0) ∧ runtimeStep s (.query true 0 0) = some (s', es) ∧
      ¬∀ id i, JobMove (.query true 0 0) i (s.ctx.job id i) (s'.ctx.job id i) := by
  have hsome : ((runtimeSystem .zhouyiV2 sampleMap 1).exec RunjobAccepted sampleRuntime
      (endsBeforeKill ++ [.pollJobStatus 7 0, .pollCheck])).map
      (fun r => (r.1.ctx.job 1 65536,
        (runtimeStep r.1 (.query true 0 0)).map fun r' => r'.1.ctx.job 1 65536)) =
      some (some ⟨0, 65536, .timeout, 65536, {}⟩, some (some ⟨0, 65536, .done, 65536, {}⟩)) := by
    decide +kernel
  obtain ⟨⟨s, tr⟩, hexec, hsample⟩ := Option.map_eq_some_iff.mp hsome
  obtain ⟨hjob, hstep⟩ := Prod.mk.inj hsample
  obtain ⟨⟨s', es⟩, hst, hjob'⟩ := Option.map_eq_some_iff.mp hstep
  refine ⟨tr, s, s', es, System.run_of_exec sampleRuntime_init hexec, id, hst, fun hmoves => ?_⟩
  have hmove := hmoves 1 65536
  rw [show s.ctx.job 1 65536 = _ from hjob, show s'.ctx.job 1 65536 = _ from hjob'] at hmove
  cases hmove with
  | ended hstate => cases hstate

end Aipu
