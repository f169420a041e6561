import AipuDriver.Umd.GraphObject

/-!
# Jobs and their thread buffers

A job refers to its thread buffer by the handle, the buffer only says whether it is in use, and
handles are given away again.  `GraphObject.Exclusive` says that this is enough: a buffer to which a
stored job refers exists and is in use, and by that job alone.  The calls keep it, whatever the
kernel answers: a job takes only a free buffer, `free_thread_buffer` refuses a buffer in use, and
`clean_job` frees a buffer together with the job that refers to it.
-/

namespace Aipu

open KeyedList Transition UnusedId

/-- Each stored job has a thread buffer of its own, which is in use. -/
structure GraphObject.Exclusive (g : GraphObject) : Prop where
  keyed : g.Keyed
  used : ∀ jobId job, g.getJobPtr jobId = some job →
    ∃ tbuf, g.getTbufPtr job.bufHandle = some tbuf ∧ tbuf.isFree = false
  apart : ∀ jobId jobId' job job', g.getJobPtr jobId = some job → g.getJobPtr jobId' = some job' →
    job.bufHandle = job'.bufHandle → jobId = jobId'

/-- `free_thread_buffer` refuses a buffer to which a stored job refers: nothing is freed. -/
def GraphObject.KeepsBuffers (g : GraphObject) : Prop :=
  ∀ jobId job oks, g.getJobPtr jobId = some job →
    g.freeThreadBuffer job.bufHandle oks = (.errorBusyHandle, g, [])

section Exclusive

variable {g g' : GraphObject} {ret : AipuStatus} {new : Option ℕ}

/-- A buffer in use is not freed. -/
theorem GraphObject.Exclusive.keepsBuffers (h : g.Exclusive) : g.KeepsBuffers := by
  intro jobId job oks hjob
  obtain ⟨tbuf, htbuf, hbusy⟩ := h.used jobId job hjob
  rw [GraphObject.freeThreadBuffer, htbuf]
  dsimp only
  rw [hbusy, if_neg Bool.false_ne_true]

/-- A free buffer is the one of no job. -/
theorem GraphObject.Exclusive.bufHandle_ne (h : g.Exclusive) {handle jobId : ℕ}
    {tbuf : ThreadBufferInfo} (htbuf : g.getTbufPtr handle = some tbuf) (hfree : tbuf.isFree = true)
    {job : JobDesc} (hjob : g.getJobPtr jobId = some job) : job.bufHandle ≠ handle := by
  rintro rfl
  obtain ⟨tbuf', htbuf', hbusy⟩ := h.used jobId job hjob
  rw [Option.some.inj (htbuf'.symm.trans htbuf), hfree] at hbusy
  cases hbusy

/-- New states of jobs leave the buffers exclusive. -/
theorem GraphObject.Exclusive.setsStates (h : g.Exclusive) (hset : g.SetsStates g') :
    g'.Exclusive := by
  refine ⟨hset.keyed h.keyed, fun jobId job' hjob' => ?_, fun i i' job₁ job₂ h₁ h₂ heq => ?_⟩
  · obtain ⟨job, hjob, hhandle⟩ := hset.jobs jobId job' hjob'
    rw [GraphObject.getTbufPtr, hset.tbufs, ← hhandle]
    exact h.used jobId job hjob
  · obtain ⟨job, hjob, hhandle⟩ := hset.jobs i job₁ h₁
    obtain ⟨job', hjob', hhandle'⟩ := hset.jobs i' job₂ h₂
    exact h.apart i i' job job' hjob hjob' (by rw [hhandle, hhandle', heq])

/-- `alloc_thread_buffer` takes a handle that no buffer has. -/
theorem GraphObject.Exclusive.allocThreadBuffer (h : g.Exclusive) {kernel : ThreadBufferMalloc}
    {es : List BufferEvent} (hstep : g.allocThreadBuffer kernel = some (ret, g', new, es)) :
    g'.Exclusive := by
  rcases GraphObject.allocThreadBuffer_cases hstep with ⟨rfl, -⟩ | ⟨tbuf, -, -, hid, -, rfl, -⟩
  · exact h
  · have hunused : g.getTbufPtr tbuf.handle = none := by
      simpa using not_used_of_firstUnused (Nat.mod_lt _ (by decide)) hid
    refine ⟨⟨h.keyed.tbufs.insert rfl, h.keyed.jobs⟩, fun jobId job hjob => ?_, h.apart⟩
    obtain ⟨tbuf', htbuf', hbusy⟩ := h.used jobId job hjob
    refine ⟨tbuf', ?_, hbusy⟩
    rw [GraphObject.getTbufPtr, lookup_insert, if_neg]
    · exact htbuf'
    · intro heq
      rw [heq, hunused] at htbuf'
      cases htbuf'

/-- `free_thread_buffer` removes a buffer that no job uses. -/
theorem GraphObject.Exclusive.freeThreadBuffer (h : g.Exclusive) (handle : ℕ) (oks : Oracle) :
    (g.freeThreadBuffer handle oks).2.1.Exclusive := by
  rcases g.freeThreadBuffer_cases handle oks with heq | ⟨tbuf, htbuf, hfree, heq⟩
  · rwa [heq]
  · rw [heq]
    refine ⟨⟨h.keyed.tbufs.erase, h.keyed.jobs⟩, fun jobId job hjob => ?_, h.apart⟩
    obtain ⟨tbuf', htbuf', hbusy⟩ := h.used jobId job hjob
    refine ⟨tbuf', ?_, hbusy⟩
    rw [GraphObject.getTbufPtr, lookup_erase, if_neg (h.bufHandle_ne htbuf hfree hjob)]
    exact htbuf'

/-- A buffer that is taken stays there for the jobs that use it. -/
theorem GraphObject.Exclusive.take (h : g.Exclusive) (handle : ℕ) :
    ({ g with tbufs := adjust g.tbufs handle fun tbuf => { tbuf with isFree := false } } :
      GraphObject).Exclusive := by
  have htbufs : KeyedList.Keyed TbufInfo.handle ThreadBufferInfo.info
      (adjust g.tbufs handle fun tbuf => { tbuf with isFree := false }) :=
    h.keyed.tbufs.adjust fun _ => rfl
  refine ⟨⟨htbufs, h.keyed.jobs⟩, fun jobId job hjob => ?_, h.apart⟩
  obtain ⟨tbuf, htbuf, hbusy⟩ := h.used jobId job hjob
  refine ⟨if job.bufHandle = handle then { tbuf with isFree := false } else tbuf, ?_, ?_⟩
  · rw [GraphObject.getTbufPtr, lookup_adjust]
    rw [GraphObject.getTbufPtr] at htbuf
    rw [htbuf, Option.map_some]
  · split
    · rfl
    · exact hbusy

/-- `build_new_job` gives a free buffer to the new job; a job that had the id before is lost. -/
theorem GraphObject.Exclusive.buildNewJob (h : g.Exclusive) {handle addr : ℕ}
    {writes : List HostWrite}
    (hstep : g.buildNewJob handle addr = some (ret, g', new, writes)) : g'.Exclusive := by
  rcases GraphObject.buildNewJob_cases hstep with ⟨rfl, -⟩ | ⟨tbuf, g₁, htbuf, hfree, hg₁, hg'⟩
  · exact h
  · have htake : g₁.Exclusive := hg₁ ▸ h.take handle
    have hjobs : g₁.jobs = g.jobs := by rw [hg₁]
    rcases hg' with ⟨rfl, -⟩ | ⟨new, -, -, hhandle, -, -, rfl⟩
    · exact htake
    · have hnew : g₁.getTbufPtr new.bufHandle = some { tbuf with isFree := false } := by
        rw [hhandle, hg₁, GraphObject.getTbufPtr, lookup_adjust]
        rw [GraphObject.getTbufPtr] at htbuf
        rw [htbuf, Option.map_some, if_pos rfl]
      have hother : ∀ jobId job, g₁.getJobPtr jobId = some job → job.bufHandle ≠ new.bufHandle := by
        intro jobId job hjob
        rw [GraphObject.getJobPtr, hjobs] at hjob
        rw [hhandle]
        exact h.bufHandle_ne htbuf hfree hjob
      have hget : ∀ jobId,
          ({ g₁ with jobs := insert g₁.jobs new.id new } : GraphObject).getJobPtr jobId =
          if jobId = new.id then some new else g₁.getJobPtr jobId := fun _ => lookup_insert
      refine ⟨⟨htake.keyed.tbufs, htake.keyed.jobs.insert rfl⟩, fun jobId job hjob => ?_,
        fun i i' job job' hjob hjob' heq => ?_⟩
      · rw [hget] at hjob
        split_ifs at hjob
        · obtain rfl : new = job := Option.some.inj hjob
          exact ⟨_, hnew, rfl⟩
        · exact htake.used jobId job hjob
      · rw [hget] at hjob hjob'
        split_ifs at hjob hjob' with hi hi' hi'
        · rw [hi, hi']
        · obtain rfl : new = job := Option.some.inj hjob
          exact absurd heq.symm (hother i' job' hjob')
        · obtain rfl : new = job' := Option.some.inj hjob'
          exact absurd heq (hother i job hjob)
        · exact htake.apart i i' job job' hjob hjob' heq

/-- `clean_job` frees a buffer that no other job uses. -/
theorem GraphObject.Exclusive.cleanJob (h : g.Exclusive) (jobId : ℕ) :
    (g.cleanJob jobId).2.Exclusive := by
  rcases g.cleanJob_cases jobId with heq | ⟨job, hjob, -, -, heq⟩
  · rwa [heq]
  · have hid : job.id = jobId := h.keyed.jobs.lookup hjob
    have hget : ∀ i, (g.cleanJob jobId).2.getJobPtr i = if i = jobId then none
        else g.getJobPtr i := by
      intro i
      rw [heq, hid]
      exact lookup_erase
    have hkeyed : (g.cleanJob jobId).2.Keyed := by
      rw [heq]
      exact ⟨h.keyed.tbufs.adjust (f := fun tbuf => { tbuf with isFree := true }) fun _ => rfl,
        h.keyed.jobs.erase⟩
    refine ⟨hkeyed, fun i job' hjob' => ?_, fun i i' job₁ job₂ h₁ h₂ hhandle => ?_⟩
    · rw [hget] at hjob'
      split_ifs at hjob' with hi
      obtain ⟨tbuf, htbuf, hbusy⟩ := h.used i job' hjob'
      have hne : job'.bufHandle ≠ job.bufHandle :=
        fun heq => hi (h.apart i jobId job' job hjob' hjob heq)
      refine ⟨tbuf, ?_, hbusy⟩
      rw [heq, GraphObject.getTbufPtr, lookup_adjust]
      rw [GraphObject.getTbufPtr] at htbuf
      rw [htbuf, Option.map_some, if_neg hne]
    · rw [hget] at h₁ h₂
      split_ifs at h₁ h₂
      exact h.apart i i' job₁ job₂ h₁ h₂ hhandle

/-- Every call keeps the buffers exclusive. -/
theorem GraphObject.Exclusive.step (h : g.Exclusive) {a : GraphCall} {es : List BufferEvent}
    (hstep : graphObjectStep g a = some (g', es)) : g'.Exclusive := by
  cases a with
  | allocThreadBuffer kernel =>
    obtain ⟨⟨ret, g₁, new, es₁⟩, hcall, heq⟩ := Option.map_eq_some_iff.mp hstep
    obtain ⟨rfl, rfl⟩ := Prod.mk.inj heq
    exact h.allocThreadBuffer hcall
  | freeThreadBuffer handle oks =>
    have hcall := h.freeThreadBuffer handle oks
    rwa [Option.some.inj hstep] at hcall
  | buildNewJob handle addr =>
    obtain ⟨⟨ret, g₁, new, writes⟩, hcall, heq⟩ := Option.map_eq_some_iff.mp hstep
    obtain ⟨rfl, rfl⟩ := Prod.mk.inj heq
    exact h.buildNewJob hcall
  | flushJob jobId accepted =>
    obtain ⟨rfl, rfl⟩ := Prod.mk.inj (Option.some.inj hstep)
    exact h.setsStates (g.flushJob_marks jobId accepted).setsStates
  | waitForJobEnd pollOpt jobId timeOut reply =>
    obtain ⟨⟨ret, g₁⟩, hcall, heq⟩ := Option.map_eq_some_iff.mp hstep
    obtain ⟨rfl, rfl⟩ := Prod.mk.inj heq
    exact h.setsStates (GraphObject.waitForJobEnd_marks hcall).setsStates
  | pollJobStatus reply =>
    obtain ⟨rfl, rfl⟩ := Prod.mk.inj (Option.some.inj hstep)
    exact h.setsStates (g.pollJobStatus_marks reply).setsStates
  | cleanJob jobId =>
    obtain ⟨rfl, rfl⟩ := Prod.mk.inj (Option.some.inj hstep)
    exact h.cleanJob jobId

/-- A graph that has just been loaded has no jobs. -/
theorem GraphObject.Loaded.exclusive (h : g.Loaded) : g.Exclusive := by
  obtain ⟨htbufs, hjobs⟩ := h.empty
  refine ⟨⟨by simp [htbufs, KeyedList.Keyed], by simp [hjobs, KeyedList.Keyed]⟩,
    fun i job hjob => ?_, fun i i' job job' hjob => ?_⟩
  all_goals
    rw [GraphObject.getJobPtr, hjobs] at hjob
    cases hjob

/-- In every run the stored jobs have buffers of their own, which are in use and are not freed. -/
theorem buffers_exclusive {tr : List BufferEvent} (h : graphObjectSystem.Run anyStep tr g) :
    g.Exclusive ∧ g.KeepsBuffers := by
  have hexcl : g.Exclusive := by
    refine h.stateInvariant (fun g hg => ?_) fun g a g' es hg _ hstep => hg.step hstep
    exact GraphObject.Loaded.exclusive hg
  exact ⟨hexcl, hexcl.keepsBuffers⟩

/-- A buffer is given from a job that has timed out to the next one, and then refused to be
freed. -/
theorem buffers_exclusive_sample : ∃ tr g, graphObjectSystem.Run anyStep tr g ∧ g.jobs ≠ [] ∧
    g.Exclusive ∧ g.KeepsBuffers := by
  obtain ⟨⟨g, es⟩, hexec, hjobs⟩ : ∃ s, graphObjectSystem.exec anyStep (sampleObject 0 16 64)
      [.allocThreadBuffer sampleMalloc, .buildNewJob 0x10000 0, .flushJob 0x10000 true,
        .waitForJobEnd false 0x10000 5 (some []), .cleanJob 0x10000, .buildNewJob 0x10000 1,
        .freeThreadBuffer 0x10000 []] = some s ∧ s.1.jobs ≠ [] := ⟨_, rfl, by decide +kernel⟩
  have hloaded : (sampleObject 0 16 64).Loaded := ⟨_, _, _, _, sampleObject_loaded 0 16 64⟩
  have hrun := System.run_of_exec hloaded hexec
  exact ⟨es, g, hrun, hjobs, buffers_exclusive hrun⟩

end Exclusive

end Aipu
