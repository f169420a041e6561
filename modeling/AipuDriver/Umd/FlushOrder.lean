import AipuDriver.Kmd.JobServer
import AipuDriver.Umd.Completion
import Mathlib.Data.List.Sort

/-!
# Jobs end in the order in which they are flushed

A context that makes one call at a time flushes its jobs one after the other.  The kernel numbers
its session jobs when RUNJOB adds them and its jobs when RUNJOB submits them, and other contexts
submit theirs in between.  `Kmd.RefsInv` follows the session jobs through the second numbering: they
are listed in the order of their submission, none of them twice.  The session jobs of the context
among them are in the order of its calls (`FlushInv`), and the job manager ends jobs in the order of
their submission.
-/

namespace Aipu

open FifoServer ListSearch Transition

/-! ## Submitted session jobs -/

/-- The session jobs whose ends were recorded in a trace. -/
def endedSessionJobs (jtr : List JmEvent) : List ℕ := jtr.filterMap JmEvent.endedSessionJob

/-- `refs` lists the session jobs of the jobs that were submitted, by their numbers. -/
structure JmState.RefsInv (refs : List ℕ) (jtr : List JmEvent) (s : JmState) : Prop where
  length : refs.length = s.nextJob
  queued : ∀ j ∈ s.jm.jobs, refs[j.id]? = some j.sessionJob
  ended : ∀ job sessionJob flag valid, .ended job sessionJob flag valid ∈ jtr →
    refs[job]? = some sessionJob

section JobManager

variable {max : ℤ} {jtr es : List JmEvent} {s s' : JmState} {refs : List ℕ}

/-- The ends are recorded for the session jobs of the jobs that end. -/
theorem JmState.RefsInv.endedSessionJobs_eq (h : s.RefsInv refs jtr) :
    endedSessionJobs jtr = (endedJobs jtr).filterMap (refs[·]?) := by
  rw [endedSessionJobs, endedJobs, List.filterMap_filterMap]
  refine List.filterMap_congr fun e he => ?_
  cases e with
  | ended job sessionJob flag valid => exact (h.ended job sessionJob flag valid he).symm
  | _ => rfl

/-- A job that is enqueued appends its reference. -/
theorem JmState.RefsInv.enqueue (hR : s.RefsInv refs jtr) (sub : Submission) :
    ({ s with
      jm := { s.jm with pendingQueue := s.jm.pendingQueue ++ [newJob s.nextJob sub] }
      nextJob := s.nextJob + 1 } : JmState).RefsInv (refs ++ [sub.sessionJob])
      (jtr ++ [.submitted s.nextJob]) := by
  have hold : ∀ {i x : ℕ}, refs[i]? = some x → (refs ++ [sub.sessionJob])[i]? = some x := by
    intro i x hx
    obtain ⟨hlt, -⟩ := List.getElem?_eq_some_iff.mp hx
    rw [List.getElem?_append_left hlt, hx]
  refine ⟨by simp [hR.length], fun j hj => ?_, fun job sessionJob flag valid hmem => ?_⟩
  · simp only [AipuJobManager.jobs, List.mem_append, List.mem_singleton] at hj
    rcases hj with (hj | rfl) | hj
    · exact hold (hR.queued j (List.mem_append_left _ hj))
    · change (refs ++ [sub.sessionJob])[s.nextJob]? = some sub.sessionJob
      rw [← hR.length]
      exact List.getElem?_concat_length
    · exact hold (hR.queued j (List.mem_append_right _ hj))
  · refine hold (hR.ended job sessionJob flag valid ?_)
    simpa using hmem

/-- A move that submits no job changes no reference. -/
theorem JmMove.refsInv_same (hinv : JobQueueInv max jtr s) (h : JmMove s es s')
    (hes : submittedJobs es = []) (hR : s.RefsInv refs jtr) : s'.RefsInv refs (jtr ++ es) := by
  have hnext : s'.nextJob = s.nextJob := by
    have hafter := (hinv.move h).submitted
    rw [submittedJobs, List.filterMap_append, ← submittedJobs, ← submittedJobs, hes,
      List.append_nil, hinv.submitted] at hafter
    simpa using congrArg List.length hafter.symm
  refine ⟨hR.length.trans hnext.symm, fun j' hj' => ?_, fun job sessionJob flag valid hmem => ?_⟩
  · obtain ⟨j, hj, hev⟩ := h.evolves hinv hes j' hj'
    rw [hev.id, hev.sessionJob]
    exact hR.queued j hj
  · rcases List.mem_append.mp hmem with hmem | hmem
    · exact hR.ended job sessionJob flag valid hmem
    cases h with
    | @finish c flag hqueue =>
      obtain ⟨rfl, rfl, -, -⟩ : job = c.entry.id ∧ sessionJob = c.entry.sessionJob ∧ _ ∧ _ := by
        simpa using hmem
      exact hR.queued c.entry (List.mem_append_right _ (hqueue ▸ c.entry_mem))
    | control => cases hmem
    | note he =>
      obtain rfl := List.mem_singleton.mp hmem
      cases he
    | enqueue | trigger | invalidate | remove | retire => simp at hmem

/-- A move appends the references of the jobs that it submits. -/
theorem JmMove.refsInv (hinv : JobQueueInv max jtr s) (h : JmMove s es s')
    (hR : s.RefsInv refs jtr) : ∃ new, s'.RefsInv (refs ++ new) (jtr ++ es) := by
  by_cases hes : submittedJobs es = []
  · exact ⟨[], (refs.append_nil).symm ▸ h.refsInv_same hinv hes hR⟩
  · cases h with
    | enqueue sub => exact ⟨[sub.sessionJob], hR.enqueue sub⟩
    | @note e he => cases e <;> first | exact absurd rfl hes | cases he
    | control | trigger | finish | invalidate | remove | retire => exact absurd rfl hes

/-- Moves that do not advance the number of the next job change no reference. -/
theorem JmMoves.refsInv (hinv : JobQueueInv max jtr s) (h : JmMoves s es s')
    (hnext : s'.nextJob = s.nextJob) (hR : s.RefsInv refs jtr) : s'.RefsInv refs (jtr ++ es) := by
  have hkept : ∃ new, s'.RefsInv (refs ++ new) (jtr ++ es) := by
    refine h.invariant (I := fun jtr s => ∃ new, s.RefsInv (refs ++ new) jtr) ?_ hinv
      ⟨[], by simpa using hR⟩
    rintro jtr s es s' hinv hmove ⟨new, hnew⟩
    obtain ⟨more, hmore⟩ := hmove.refsInv hinv hnew
    exact ⟨new ++ more, by rwa [← List.append_assoc]⟩
  obtain ⟨new, hnew⟩ := hkept
  -- as many references as jobs, so none is new
  have hlength := hnew.length
  rw [List.length_append, hR.length, hnext] at hlength
  obtain rfl : new = [] := List.eq_nil_of_length_eq_zero (by omega)
  simpa using hnew

/-- A step changes no reference, or it submits a job and appends its reference. -/
theorem jmStep_refsInv {a : JmAction} (hinv : JobQueueInv max jtr s) (hbh : s.BhInv)
    (h : jmStep s a = some (s', es)) (hR : s.RefsInv refs jtr) :
    s'.RefsInv refs (jtr ++ es) ∨ ∃ mem sub, a = .submit mem sub ∧
      s'.RefsInv (refs ++ [sub.sessionJob]) (jtr ++ es) := by
  obtain ⟨hmoves, -⟩ := jmStep_moves hinv hbh h
  have hkeep : s'.nextJob = s.nextJob → s'.RefsInv refs (jtr ++ es) ∨
      ∃ mem sub, a = .submit mem sub ∧ s'.RefsInv (refs ++ [sub.sessionJob]) (jtr ++ es) :=
    fun hnext => .inl (hmoves.refsInv hinv hnext hR)
  cases a with
  | submit mem sub =>
    refine .inr ⟨mem, sub, rfl, ?_⟩
    obtain ⟨rfl, rfl⟩ := jmStep_submit_cases h
    -- the job is enqueued, and then the job manager schedules
    rw [List.append_cons jtr]
    exact (aipuSchedulePendingJobNoLock_moves (s := { s with
      jm := { s.jm with pendingQueue := s.jm.pendingQueue ++ [newJob s.nextJob sub] }
      nextJob := s.nextJob + 1 }) rfl).refsInv (hinv.enqueue sub) rfl (hR.enqueue sub)
  | upperHalf | kill | cancel =>
    obtain ⟨rfl, -⟩ := Prod.mk.inj (Option.some.inj h)
    exact hkeep rfl
  | queueWork =>
    obtain ⟨-, rfl, -⟩ := jmStep_queueWork_cases h
    exact hkeep rfl
  | bhStart =>
    obtain ⟨-, -, rfl, -⟩ := jmStep_bhStart_cases h
    exact hkeep rfl
  | bhDone =>
    obtain ⟨curr, next, -, rfl, -⟩ := jmStep_bhDone_cases h
    exact hkeep rfl
  | bhResume =>
    obtain ⟨curr, next, -, rfl, -⟩ := jmStep_bhResume_cases h
    exact hkeep rfl

end JobManager

/-- The session jobs of the jobs that were submitted: none of them twice, and none of them that of a
RUNJOB call in progress. -/
structure Kmd.RefsInv (refs : List ℕ) (jtr : List JmEvent) (k : Kmd) : Prop where
  jobs : k.js.RefsInv refs jtr
  nodup : refs.Nodup
  lt : ∀ sessionJob ∈ refs, sessionJob < k.nextSessionJob
  apart : ∀ p ∈ k.runJobs, p.2 ∉ refs

/-- A step submits the session job of a RUNJOB call, which ends, or none. -/
theorem kmdStep_refsInv {k k' : Kmd} {a : KmdAction} {es : List KmdEvent} {max : ℤ}
    {jtr : List JmEvent} {refs : List ℕ} (hI : k.JobsInv) (hq : JobQueueInv max jtr k.js)
    (hbh : k.js.BhInv) (h : kmdStep k a = some (k', es)) (hR : k.RefsInv refs jtr) :
    k'.RefsInv refs (jtr ++ es.filterMap KmdEvent.jm) ∨ ∃ p ∈ k.runJobs,
      k'.RefsInv (refs ++ [p.2]) (jtr ++ es.filterMap KmdEvent.jm) := by
  have hruns := kmdStep_runJobs h
  have hlt : ∀ sessionJob ∈ refs, sessionJob < k'.nextSessionJob := fun x hx =>
    (hR.lt x hx).trans_le hruns.next_le
  have hapart : ∀ p ∈ k'.runJobs, p.2 ∉ refs := by
    intro p hp
    rcases hruns.mem hp with hp | ⟨-, hnew, -⟩
    · exact hR.apart p hp
    · rw [hnew]
      exact fun hmem => (hR.lt _ hmem).ne rfl
  rcases kmdStep_jm h with ⟨-, hjs, hes, -⟩ | ⟨b, jes, hb, hst, hes, -⟩
  · rw [hes, List.append_nil]
    exact .inl ⟨hjs ▸ hR.jobs, hR.nodup, hlt, hapart⟩
  rw [hes]
  rcases jmStep_refsInv hq hbh hst hR.jobs with hkeep | ⟨mem, sub, rfl, hnew⟩
  · exact .inl ⟨hkeep, hR.nodup, hlt, hapart⟩
  · obtain ⟨hcall, hother⟩ := hruns.submits hI hb
    refine .inr ⟨_, hcall, hnew, ?_, fun x hx => ?_, fun p hp hmem => ?_⟩
    · exact List.nodup_append.mpr ⟨hR.nodup, List.nodup_singleton _, fun x hx y hy heq =>
        hR.apart _ hcall (List.mem_singleton.mp hy ▸ heq ▸ hx)⟩
    · rcases List.mem_append.mp hx with hx | hx
      · exact hlt x hx
      · rw [List.mem_singleton.mp hx]
        exact (hI.callsLt _ hcall).trans_le hruns.next_le
    · rcases List.mem_append.mp hmem with hmem | hmem
      · exact hapart p hp hmem
      · exact hother p hp (List.mem_singleton.mp hmem)

/-! ## Flushed jobs -/

/-- The session job that the kernel has made of a job that is flushed. -/
def RuntimeEvent.flushes : RuntimeEvent → Option ℕ
  | .runjob _ sessionJob => some sessionJob
  | _ => none

/-- The session jobs of the jobs flushed in a trace. -/
def flushedJobs (tr : List RuntimeEvent) : List ℕ := tr.filterMap RuntimeEvent.flushes

/-- The session job of the `flush_job` call that is running, between the two steps of RUNJOB. -/
def UmdCall.flushing : UmdCall → Option ℕ
  | .runjob _ _ kernJob => some kernJob.id
  | _ => none

/-- The session job of the `flush_job` call of the context. -/
def Runtime.flushing (s : Runtime) : Option ℕ := s.call.bind UmdCall.flushing

/-- What a step does to the session jobs that the context flushes. -/
inductive FlushStep (s s' : Runtime) (es : List RuntimeEvent) : Prop
  /-- The call goes on as it was, or none of `flush_job` is running. -/
  | same (hes : flushedJobs es = []) (h : s'.flushing = s.flushing ∨ s.flushing = none)
  /-- RUNJOB has its first step. -/
  | started (hes : flushedJobs es = [s.kmd.nextSessionJob]) (hnone : s.flushing = none)
      (hnew : s'.flushing = some s.kmd.nextSessionJob)
      (hnext : s'.kmd.nextSessionJob = s.kmd.nextSessionJob + 1)
  /-- RUNJOB has its second step. -/
  | finished (hes : flushedJobs es = []) {sessionJob : ℕ} (hold : s.flushing = some sessionJob)
      (hend : ∀ p ∈ s'.kmd.runJobs, p.2 ≠ sessionJob)

section FlushStep

variable {s s' : Runtime} {a : RuntimeAction} {es : List RuntimeEvent} {fd : ℕ}

/-- A step of the kernel driver flushes no job of the context. -/
theorem flushedJobs_kmd (kes : List KmdEvent) (more : List RuntimeEvent) :
    flushedJobs (kes.map .kmd ++ more) = flushedJobs more := by
  rw [flushedJobs, List.filterMap_append, List.filterMap_map]
  have hnil : kes.filterMap (RuntimeEvent.flushes ∘ RuntimeEvent.kmd) = [] :=
    List.filterMap_eq_nil_iff.mpr fun _ _ => rfl
  rw [hnil]
  rfl

/-- A call that returns has flushed no job. -/
theorem Runtime.return_flushed {ret : AipuStatus} {status : Option AipuJobStatus}
    (h : s.return ret status = some (s', es)) : flushedJobs es = [] := by
  obtain ⟨-, rfl⟩ := Runtime.return_cases h
  rfl

/-- A system call flushes what follows it flushes. -/
theorem Runtime.ioctl_flushed {b : KmdAction}
    {f : Runtime → List KmdEvent → Option (Runtime × List RuntimeEvent)}
    (h : s.ioctl b f = some (s', es))
    (hf : ∀ s₁ kes s₂ more, f s₁ kes = some (s₂, more) → flushedJobs more = []) :
    flushedJobs es = [] := by
  obtain ⟨kmd, kes, more, -, hcont, rfl⟩ := Runtime.ioctl_cases h
  rw [flushedJobs_kmd]
  exact hf _ _ _ _ hcont

/-- Nor does the registration of `poll` flush a job. -/
theorem Runtime.poll_flushed {p : DevPoll} (h : s.poll fd p = some (s', es)) :
    flushedJobs es = [] := by
  apply Runtime.ioctl_flushed h
  rintro s₁ kes s₂ more ⟨⟩
  rfl

/-- Nor does what is done with the records. -/
theorem Runtime.pollStatus_flushed {p : DevPoll} {jobsStatus : List JobStatusDesc}
    (h : s.pollStatus p jobsStatus = some (s', es)) : flushedJobs es = [] := by
  unfold Runtime.pollStatus at h
  split at h
  · split at h
    · obtain ⟨-, rfl⟩ := Prod.mk.inj (Option.some.inj h)
      rfl
    · exact Runtime.return_flushed h
  · exact Runtime.return_flushed h

/-- `flush_job` issues RUNJOB, unless the job is not built or the kernel has no memory for it. -/
theorem Runtime.flushJob_flushStep {tid : ℤ} {jobId : ℕ} {kz : Oracle} (hcall : s.flushing = none)
    (h : s.flushJob fd tid jobId kz = some (s', es)) : FlushStep s s' es := by
  unfold Runtime.flushJob at h
  split at h
  · exact .same (Runtime.return_flushed h) (.inr hcall)
  split at h
  · exact .same (Runtime.return_flushed h) (.inr hcall)
  obtain ⟨kmd, kes, more, hst, hcont, rfl⟩ := Runtime.ioctl_cases h
  split_ifs at hcont with hcode
  · obtain ⟨rfl, rfl⟩ := Prod.mk.inj (Option.some.inj hcont)
    obtain ⟨c, -, ⟨waitQueue, userJob, -, -, -, hkmd⟩ | ⟨-, hkes⟩⟩ := runjobAdd_cases hst
    · exact .started (flushedJobs_kmd kes _) hcall rfl (congrArg Kmd.nextSessionJob hkmd)
    · rw [hkes] at hcode
      cases hcode
  · refine .same ?_ (.inr hcall)
    rw [flushedJobs_kmd]
    exact Runtime.return_flushed hcont

/-- The start of a call, as seen from the flushed jobs. -/
theorem runtimeStart_flushStep (hcall : s.call = none)
    (h : runtimeStart s fd a = some (s', es)) : FlushStep s s' es := by
  have hnone : s.flushing = none := by
    rw [Runtime.flushing, hcall]
    rfl
  cases a with
  | flushJob tid jobId kz => exact Runtime.flushJob_flushStep hnone h
  | createNewJob id handle inRange config =>
    simp only [runtimeStart] at h
    split at h
    · cases h
    · exact .same (Runtime.return_flushed h) (.inr hnone)
  | waitForJobEnd tid jobId timeOut =>
    refine .same ?_ (.inr hnone)
    simp only [runtimeStart, Runtime.waitForJobEnd] at h
    split at h
    · exact Runtime.return_flushed h
    split at h
    · obtain ⟨-, rfl⟩ := Prod.mk.inj (Option.some.inj h)
      rfl
    · exact Runtime.poll_flushed h
  | pollJobStatus tid timeOut => exact .same (Runtime.poll_flushed h) (.inr hnone)
  | setRuntimeConfig | cleanJob => exact .same (Runtime.return_flushed h) (.inr hnone)
  | kmd | openDevice | runSchedule | pollCheck | pollTimeout | pollFail | query | wakeUp | kill
  | giveUp => cases h

/-- A RUNJOB call has ended after its second step. -/
theorem runjobSchedule_ends {k k' : Kmd} {file : ℕ} {userJob : UserJob} {kernJob : SessionJob}
    {kzOk : Bool} {stale : SessionMem} {kes : List KmdEvent} (hI : k.JobsInv)
    (h : runjobSchedule k file userJob kernJob kzOk stale = some (k', kes)) :
    ∀ p ∈ k'.runJobs, p.2 ≠ kernJob.id := by
  obtain ⟨hop, hcase⟩ := runjobSchedule_cases h
  have hruns : k'.runJobs =
      (k.ops.erase (.runjob file userJob kernJob)).filterMap KmdOp.runJob := by
    obtain ⟨-, js, jes, -, rfl, -⟩ | ⟨-, rfl, -⟩ := hcase <;> rfl
  have hperm : k.runJobs.Perm ((file, kernJob.id) :: k'.runJobs) := by
    rw [hruns]
    exact (List.perm_cons_erase hop).filterMap KmdOp.runJob
  have hnodup := (hperm.map Prod.snd).nodup_iff.mp hI.callsNodup
  intro p hp heq
  exact (List.nodup_cons.mp hnodup).1 (List.mem_map.mpr ⟨p, hp, heq⟩)

/-- The steps of a call that go on, as seen from the flushed jobs. -/
theorem runtimeContinue_flushStep (hI : s.kmd.JobsInv) {call : UmdCall} (hcall : s.call = some call)
    (h : runtimeContinue s fd call a = some (s', es)) : FlushStep s s' es := by
  -- a call other than `flush_job` has only to flush nothing
  have hother : call.flushing = none → flushedJobs es = [] → FlushStep s s' es := by
    intro hnone hes
    exact .same hes (.inr (by rw [Runtime.flushing, hcall]; exact hnone))
  cases a with
  | runSchedule kzOk stale =>
    cases call with
    | runjob jobId userJob kernJob =>
      have h : s.runSchedule fd jobId userJob kernJob kzOk stale = some (s', es) := h
      obtain ⟨kmd, kes, more, hst, hcont, rfl⟩ := Runtime.ioctl_cases h
      have hflushing : s.flushing = some kernJob.id := by
        rw [Runtime.flushing, hcall]
        rfl
      refine .finished ?_ hflushing ?_
      · rw [flushedJobs_kmd]
        exact Runtime.return_flushed hcont
      · obtain ⟨rfl, -⟩ := Runtime.return_cases hcont
        exact runjobSchedule_ends hI hst
    | _ => cases h
  | pollCheck =>
    cases call with
    | poll p checked =>
      have h : s.pollCheck fd p = some (s', es) := h
      refine hother rfl (Runtime.ioctl_flushed h ?_)
      rintro s₁ kes s₂ more ⟨⟩
      rfl
    | _ => cases h
  | pollTimeout =>
    simp only [runtimeContinue] at h
    split at h
    · split_ifs at h
      exact hother rfl (Runtime.pollStatus_flushed h)
    · cases h
  | pollFail =>
    cases call with
    | poll p checked => exact hother rfl (Runtime.return_flushed h)
    | _ => cases h
  | query kzOk notCopied notCopiedQuery =>
    cases call with
    | query p =>
      have h : s.query fd p kzOk notCopied notCopiedQuery = some (s', es) := h
      refine hother rfl (Runtime.ioctl_flushed h fun s₁ kes s₂ more hcont => ?_)
      split_ifs at hcont
      · exact Runtime.pollStatus_flushed hcont
      · exact Runtime.return_flushed hcont
    | _ => cases h
  | wakeUp =>
    cases call with
    | sleep tid jobId timeOut =>
      simp only [runtimeContinue, Runtime.wakeUp] at h
      refine hother rfl ?_
      split at h
      · exact Runtime.return_flushed h
      · split_ifs at h
        obtain ⟨-, rfl⟩ := Prod.mk.inj (Option.some.inj h)
        rfl
    | _ => cases h
  | kill stale =>
    cases call with
    | kill tid jobId =>
      simp only [runtimeContinue] at h
      refine hother rfl (Runtime.ioctl_flushed h ?_)
      rintro s₁ kes s₂ more ⟨⟩
      rfl
    | _ => cases h
  | giveUp =>
    cases call with
    | giveUp jobId => exact hother rfl (Runtime.return_flushed h)
    | _ => cases h
  | kmd | openDevice | setRuntimeConfig | createNewJob | flushJob | waitForJobEnd | pollJobStatus
  | cleanJob => cases h

/-- **One step.**  What a step does to the session jobs that the context flushes. -/
theorem runtimeStep_flushStep (hI : s.kmd.JobsInv) (h : runtimeStep s a = some (s', es)) :
    FlushStep s s' es := by
  have hcalls : runtimeCall s a = some (s', es) → FlushStep s s' es := by
    intro h
    obtain ⟨fd, -, ⟨hcall, hstart⟩ | ⟨call, hcall, hcont⟩⟩ := runtimeCall_cases h
    · exact runtimeStart_flushStep hcall hstart
    · exact runtimeContinue_flushStep hI hcall hcont
  cases a with
  | kmd b =>
    simp only [runtimeStep] at h
    split_ifs at h
    obtain ⟨kmd, kes, more, -, hcont, rfl⟩ := Runtime.ioctl_cases h
    obtain ⟨rfl, rfl⟩ := Prod.mk.inj (Option.some.inj hcont)
    exact .same (flushedJobs_kmd kes []) (.inl rfl)
  | openDevice pid kz =>
    simp only [runtimeStep, Runtime.openDevice] at h
    split_ifs at h
    obtain ⟨kmd, kes, more, -, hcont, rfl⟩ := Runtime.ioctl_cases h
    obtain ⟨rfl, rfl⟩ := Prod.mk.inj (Option.some.inj hcont)
    refine .same (flushedJobs_kmd kes []) (.inl ?_)
    split <;> rfl
  | _ => exact hcalls h

end FlushStep

/-! ## The order -/

/-- The session jobs that the context has flushed, against the submitted ones. -/
structure FlushInv (refs : List ℕ) (tr : List RuntimeEvent) (s : Runtime) : Prop where
  submitted : s.kmd.RefsInv refs (jmTrace tr)
  sorted : (flushedJobs tr).Pairwise (· < ·)
  lt : ∀ sessionJob ∈ flushedJobs tr, sessionJob < s.kmd.nextSessionJob
  /-- A RUNJOB call for the context is the one that is running, and the latest. -/
  calls : ∀ p ∈ s.kmd.runJobs, p.2 ∈ flushedJobs tr →
    s.flushing = some p.2 ∧ ∀ sessionJob ∈ flushedJobs tr, sessionJob ≤ p.2
  /-- What is submitted for the context is submitted in the order in which it is flushed. -/
  order : (refs.filter (· ∈ flushedJobs tr)).Pairwise (· < ·)

section Order

variable {s s' : Runtime} {a : RuntimeAction} {tr es : List RuntimeEvent} {max : ℤ} {refs : List ℕ}

theorem flushedJobs_append (tr es : List RuntimeEvent) :
    flushedJobs (tr ++ es) = flushedJobs tr ++ flushedJobs es := List.filterMap_append

/-- A step submits the session job of a RUNJOB call, or none. -/
theorem KernelInv.submitted (hI : KernelInv max tr s) (h : s.KernelStep s' es)
    (hR : s.kmd.RefsInv refs (jmTrace tr)) :
    s'.kmd.RefsInv refs (jmTrace (tr ++ es)) ∨ ∃ p ∈ s.kmd.runJobs,
      s'.kmd.RefsInv (refs ++ [p.2]) (jmTrace (tr ++ es)) := by
  rw [jmTrace, List.filterMap_append, List.filterMap_append]
  rcases h with ⟨hkmd, hes⟩ | ⟨b, hb⟩
  · rw [hkmd, hes, List.filterMap_nil, List.append_nil]
    exact .inl hR
  · exact kmdStep_refsInv hI.jobs hI.queue hI.bh hb hR

/-- RUNJOB calls do not come from nowhere. -/
theorem Runtime.KernelStep.runJobs (h : s.KernelStep s' es) :
    s.kmd.nextSessionJob ≤ s'.kmd.nextSessionJob ∧
      ∀ p ∈ s'.kmd.runJobs, p ∈ s.kmd.runJobs ∨ p.2 = s.kmd.nextSessionJob := by
  rcases h with ⟨hkmd, -⟩ | ⟨b, hb⟩
  · rw [hkmd]
    exact ⟨le_rfl, fun p hp => .inl hp⟩
  · have hruns := kmdStep_runJobs hb
    exact ⟨hruns.next_le, fun p hp => (hruns.mem hp).imp_right fun h => h.2.1⟩

/-- What a step flushes is new. -/
theorem FlushStep.flushed (h : FlushStep s s' es) :
    flushedJobs es = [] ∨ (flushedJobs es = [s.kmd.nextSessionJob] ∧
      s'.kmd.nextSessionJob = s.kmd.nextSessionJob + 1) := by
  cases h with
  | same hes => exact .inl hes
  | started hes _ _ hnext => exact .inr ⟨hes, hnext⟩
  | finished hes => exact .inl hes

/-- So an older session job is flushed after the step if it was before. -/
theorem FlushStep.mem_iff (h : FlushStep s s' es) {sessionJob : ℕ}
    (hlt : sessionJob < s.kmd.nextSessionJob) :
    sessionJob ∈ flushedJobs (tr ++ es) ↔ sessionJob ∈ flushedJobs tr := by
  rw [flushedJobs_append, List.mem_append]
  rcases h.flushed with hes | ⟨hes, -⟩
  · simp [hes]
  · simp [hes, hlt.ne]

/-- The calls after a step. -/
theorem FlushInv.calls_step (h : FlushInv refs tr s)
    (hk : s.KernelStep s' es) (hf : FlushStep s s' es) :
    ∀ p ∈ s'.kmd.runJobs, p.2 ∈ flushedJobs (tr ++ es) →
      s'.flushing = some p.2 ∧ ∀ sessionJob ∈ flushedJobs (tr ++ es), sessionJob ≤ p.2 := by
  intro p hp hmem
  -- a call about a session job that was flushed before is an old one
  have hold : p.2 ∈ flushedJobs tr →
      s.flushing = some p.2 ∧ ∀ sessionJob ∈ flushedJobs tr, sessionJob ≤ p.2 := by
    intro hmem
    rcases hk.runJobs.2 p hp with hp | hnew
    · exact h.calls p hp hmem
    · exact absurd (h.lt _ hmem) (by omega)
  cases hf with
  | same hes hcall =>
    rw [flushedJobs_append, hes, List.append_nil] at hmem ⊢
    obtain ⟨hflushing, hle⟩ := hold hmem
    rcases hcall with hcall | hcall
    · exact ⟨hcall.trans hflushing, hle⟩
    · rw [hcall] at hflushing
      cases hflushing
  | started hes hnone hnew hnext =>
    rw [flushedJobs_append, hes, List.mem_append, List.mem_singleton] at hmem
    rcases hmem with hmem | hmem
    · obtain ⟨hflushing, -⟩ := hold hmem
      rw [hnone] at hflushing
      cases hflushing
    · refine ⟨hmem ▸ hnew, fun sessionJob hsj => ?_⟩
      rw [flushedJobs_append, hes, List.mem_append, List.mem_singleton] at hsj
      rcases hsj with hsj | hsj
      · exact hmem ▸ (h.lt _ hsj).le
      · exact (hsj.trans hmem.symm).le
  | finished hes hcall hend =>
    rw [flushedJobs_append, hes, List.append_nil] at hmem
    obtain ⟨hflushing, -⟩ := hold hmem
    rw [hcall] at hflushing
    exact absurd (Option.some.inj hflushing).symm (hend p hp)

/-- **One step.**  Every step keeps the order. -/
theorem FlushInv.step (h : FlushInv refs tr s) (hI : KernelInv max tr s)
    (hst : runtimeStep s a = some (s', es)) : ∃ refs', FlushInv refs' (tr ++ es) s' := by
  obtain ⟨hk, -⟩ := runtimeStep_moves hI.jobs.files hst
  have hf := runtimeStep_flushStep hI.jobs hst
  have hnext := hk.runJobs.1
  have hsorted : (flushedJobs (tr ++ es)).Pairwise (· < ·) := by
    rw [flushedJobs_append]
    rcases hf.flushed with hes | ⟨hes, -⟩
    · rw [hes, List.append_nil]
      exact h.sorted
    · rw [hes]
      exact List.pairwise_append.mpr ⟨h.sorted, List.pairwise_singleton .., fun x hx y hy =>
        List.mem_singleton.mp hy ▸ h.lt x hx⟩
  have hlt : ∀ sessionJob ∈ flushedJobs (tr ++ es), sessionJob < s'.kmd.nextSessionJob := by
    intro x hx
    rw [flushedJobs_append, List.mem_append] at hx
    rcases hx with hx | hx
    · exact (h.lt x hx).trans_le hnext
    rcases hf.flushed with hes | ⟨hes, hnew⟩
    · rw [hes] at hx
      cases hx
    · rw [hes] at hx
      obtain rfl := List.mem_singleton.mp hx
      omega
  have hcalls := h.calls_step hk hf
  -- what was submitted before is older than what this step flushes
  have hrefs : refs.filter (· ∈ flushedJobs (tr ++ es)) = refs.filter (· ∈ flushedJobs tr) :=
    List.filter_congr fun x hx => decide_eq_decide.mpr (hf.mem_iff (h.submitted.lt x hx))
  rcases hI.submitted hk h.submitted with hR | ⟨p, hp, hR⟩
  · exact ⟨refs, hR, hsorted, hlt, hcalls, hrefs ▸ h.order⟩
  · refine ⟨_, hR, hsorted, hlt, hcalls, ?_⟩
    rw [List.filter_append, hrefs]
    refine List.pairwise_append.mpr ⟨h.order, (List.pairwise_singleton ..).filter _, ?_⟩
    intro x hx y hy
    obtain ⟨hy, hflushed⟩ := List.mem_filter.mp hy
    obtain rfl := List.mem_singleton.mp hy
    obtain ⟨hx, hxflushed⟩ := List.mem_filter.mp hx
    have hmem := (hf.mem_iff (hI.jobs.callsLt p hp)).mp (of_decide_eq_true hflushed)
    have hle := (h.calls p hp hmem).2 x (of_decide_eq_true hxflushed)
    have hne : x ≠ p.2 := by
      rintro rfl
      exact h.submitted.apart p hp hx
    omega

/-- The elements of a list, looked up one after the other. -/
theorem filterMap_range_getElem? {α : Type*} (l : List α) :
    (List.range l.length).filterMap (l[·]?) = l := by
  induction l using List.reverseRecOn with
  | nil => rfl
  | append_singleton l x ih =>
    rw [List.length_append, List.length_singleton, List.range_succ, List.filterMap_append]
    have hold : (List.range l.length).filterMap ((l ++ [x])[·]?) =
        (List.range l.length).filterMap (l[·]?) :=
      List.filterMap_congr fun i hi => List.getElem?_append_left (List.mem_range.mp hi)
    rw [hold, ih]
    simp

/-- The ends are recorded in the order of the submissions. -/
theorem JmState.RefsInv.ends_sublist {js : JmState} {jtr : List JmEvent}
    (hR : js.RefsInv refs jtr) (hq : JobQueueInv max jtr js)
    (hrunning : triggeredJobs jtr = endedJobs jtr ++ js.jm.schedJobs) :
    (endedSessionJobs jtr).Sublist refs := by
  have htriggered : (endedJobs jtr).Sublist (triggeredJobs jtr) := by
    rw [hrunning]
    apply List.sublist_append_left
  have hended : (endedJobs jtr).Sublist (List.range refs.length) := by
    rw [hR.length]
    exact htriggered.trans ((List.sublist_append_left ..).trans hq.fifo)
  have hsub := hended.filterMap (refs[·]?)
  rw [filterMap_range_getElem?] at hsub
  exact hR.endedSessionJobs_eq ▸ hsub

/-- A job that was submitted before one that has ended has ended too, or is no longer queued. -/
theorem JmState.RefsInv.finished_before {js : JmState} {jtr : List JmEvent}
    (hR : js.RefsInv refs jtr) (hq : JobQueueInv max jtr js)
    (hrunning : triggeredJobs jtr = endedJobs jtr ++ js.jm.schedJobs) {j : AipuJob}
    (hj : j ∈ js.jm.jobs) {i sessionJob : ℕ} (hi : refs[i]? = some sessionJob) (hlt : j.id < i)
    (hnodup : refs.Nodup) (hended : sessionJob ∈ endedSessionJobs jtr) : j.state = .finished := by
  rw [hR.endedSessionJobs_eq, List.mem_filterMap] at hended
  obtain ⟨job, hjob, href⟩ := hended
  obtain ⟨hlen, -⟩ := List.getElem?_eq_some_iff.mp hi
  obtain rfl : i = job := (List.getElem?_inj hlen hnodup).mp (hi.trans href.symm)
  have hsorted : ((endedJobs jtr ++ js.jm.schedJobs) ++ jobIds js.jm.pendingQueue).Pairwise
      (· < ·) := by
    rw [← hrunning]
    exact List.pairwise_lt_range.sublist hq.fifo
  rcases List.mem_append.mp hj with hpending | hscheduled
  · have hafter := (List.pairwise_append.mp hsorted).2.2 i (List.mem_append_left _ hjob) j.id
      (mem_jobIds hpending)
    omega
  · rcases hq.schedState j hscheduled with hsched | hfinished
    · have hmem : j.id ∈ js.jm.schedJobs :=
        mem_jobIds (List.mem_filter.mpr ⟨hscheduled, decide_eq_true hsched⟩)
      have hafter := (List.pairwise_append.mp (List.pairwise_append.mp hsorted).1).2.2 i hjob j.id
        hmem
      omega
    · exact hfinished

/-- The context flushes its session jobs in the order in which they are submitted. -/
theorem FlushInv.index_lt (h : FlushInv refs tr s) {i i' x x' : ℕ} (hi : refs[i]? = some x)
    (hi' : refs[i']? = some x') (hx : x ∈ flushedJobs tr) (hx' : x' ∈ flushedJobs tr)
    (hlt : x < x') : i < i' := by
  obtain ⟨hlen, rfl⟩ := List.getElem?_eq_some_iff.mp hi
  obtain ⟨hlen', rfl⟩ := List.getElem?_eq_some_iff.mp hi'
  have horder := List.pairwise_iff_getElem.mp (List.pairwise_filter.mp h.order)
  rcases Nat.lt_trichotomy i i' with hii | rfl | hii
  · exact hii
  · exact absurd hlt (Nat.lt_irrefl _)
  · have hgt := horder i' i hlen' hlen hii (decide_eq_true hx') (decide_eq_true hx)
    omega

/-- The invariant holds of every run. -/
theorem runtimeSystem_flushInv {version : AipuVersion} {map : MemoryMap} {maxSchedNum : ℤ}
    (hmax : 0 ≤ maxSchedNum) {C : Runtime → RuntimeAction → Prop}
    (h : (runtimeSystem version map maxSchedNum).Run C tr s) : ∃ refs, FlushInv refs tr s := by
  induction h with
  | @start s hs =>
    obtain ⟨⟨-, ⟨idle, hjs⟩, -, hops⟩, -⟩ := hs
    have hruns : s.kmd.runJobs = [] := by
      rw [Kmd.runJobs, hops]
      rfl
    have hjobs : s.kmd.js.RefsInv [] [] := by
      rw [hjs]
      exact ⟨rfl, by simp [JmState.initial, aipuInitJobManager, AipuJobManager.jobs], by simp⟩
    refine ⟨[], ⟨hjobs, List.nodup_nil, by simp, by simp⟩, ?_, by simp [flushedJobs], ?_, ?_⟩
    · exact List.Pairwise.nil
    · simp [hruns]
    · exact List.Pairwise.nil
  | next hrun _ hst ih =>
    obtain ⟨refs, hinv⟩ := ih
    exact hinv.step (runtimeSystem_kernel hmax hrun) hst

end Order

/-- **Jobs end in the order in which they are flushed.**  In every run of a context over the driver,
whatever other contexts do: each job that is flushed has a session job of its own; the ends of these
are recorded in the order in which the jobs were flushed, and each of them at most once; and when
one has ended, what was flushed before it is no longer on its way to the hardware or in it. -/
theorem jobs_end_in_flush_order {version : AipuVersion} {map : MemoryMap} {maxSchedNum : ℤ}
    (hmax : 0 ≤ maxSchedNum) {tr : List RuntimeEvent} {s : Runtime}
    (h : (runtimeSystem version map maxSchedNum).Run anyStep tr s) :
    (flushedJobs tr).Pairwise (· < ·) ∧
      ((endedSessionJobs (jmTrace tr)).filter (· ∈ flushedJobs tr)).Sublist (flushedJobs tr) ∧
      ∀ earlier ∈ flushedJobs tr, ∀ later ∈ flushedJobs tr, earlier < later →
        later ∈ endedSessionJobs (jmTrace tr) →
          (∀ p ∈ s.kmd.runJobs, p.2 ≠ earlier) ∧
            ∀ j ∈ s.kmd.js.jm.jobs, j.sessionJob = earlier → j.state = .finished := by
  obtain ⟨refs, hinv⟩ := runtimeSystem_flushInv hmax h
  have hq := (runtimeSystem_kernel hmax h).queue
  obtain ⟨t, hserver, -, -, rfl⟩ := (kmdSimulation version map hmax).run (runtimeSystem_kmd hmax h)
  have hrunning := (serverSystem_inv hserver).running
  rw [filterMap_kmdServer, starts_serverEvents, finishes_serverEvents] at hrunning
  have hends := hinv.submitted.jobs.ends_sublist hq hrunning
  refine ⟨hinv.sorted, ?_, fun earlier hearlier later hlater hlt hended => ⟨?_, ?_⟩⟩
  · have hsub := hends.filter (· ∈ flushedJobs tr)
    have hsorted := hinv.order.sublist hsub
    have hmem : (endedSessionJobs (jmTrace tr)).filter (· ∈ flushedJobs tr) ⊆ flushedJobs tr :=
      fun x hx => of_decide_eq_true (List.mem_filter.mp hx).2
    exact List.sublist_of_subperm_of_pairwise (List.subperm_of_subset hsorted.nodup hmem) hsorted
      hinv.sorted
  · intro p hp heq
    have hle := (hinv.calls p hp (heq ▸ hearlier)).2 later hlater
    omega
  · intro j hj hsj
    have href := hinv.submitted.jobs.queued j hj
    rw [hsj] at href
    obtain ⟨i, hi⟩ := List.mem_iff_getElem?.mp (hends.subset hended)
    have hbefore := hinv.index_lt href hi hearlier hlater hlt
    exact hinv.submitted.jobs.finished_before hq hrunning hj hi hbefore hinv.submitted.nodup hended

/-- Two jobs of a context, and between them one of another file, which is submitted last. -/
def flushesTwo : List RuntimeAction :=
  [.openDevice 7 [], .kmd (.openFile 8 []), .createNewJob 1 65536 true {},
    .createNewJob 1 65537 true {}, .flushJob 7 65537 [], .runSchedule true sampleMem,
    .kmd (.runAdd 1 8 { desc := {} } []), .flushJob 7 65536 [], .runSchedule true sampleMem,
    .kmd (.runSchedule 1 { desc := {} } (initSessionJob 1 8 {}) true sampleMem),
    .kmd (.upperHalf 0 sampleMem), .kmd (.upperHalf 0 sampleMem), .kmd (.upperHalf 0 sampleMem)]

/-- All three end. -/
theorem jobs_end_in_flush_order_sample :
    ∃ tr s, (runtimeSystem .zhouyiV2 sampleMap 1).Run anyStep tr s ∧ flushedJobs tr = [0, 2] ∧
      endedSessionJobs (jmTrace tr) = [0, 2, 1] ∧
      ((endedSessionJobs (jmTrace tr)).filter (· ∈ flushedJobs tr)).Sublist (flushedJobs tr) := by
  have hsome : ((runtimeSystem .zhouyiV2 sampleMap 1).exec anyStep sampleRuntime flushesTwo).map
      (fun r => (flushedJobs r.2, endedSessionJobs (jmTrace r.2))) =
      some ([0, 2], [0, 2, 1]) := by
    decide +kernel
  obtain ⟨⟨s, tr⟩, hexec, hsample⟩ := Option.map_eq_some_iff.mp hsome
  obtain ⟨hflushed, hended⟩ := Prod.mk.inj hsample
  have hrun := System.run_of_exec sampleRuntime_init hexec
  exact ⟨tr, s, hrun, hflushed, hended, (jobs_end_in_flush_order (by decide) hrun).2.1⟩

end Aipu
