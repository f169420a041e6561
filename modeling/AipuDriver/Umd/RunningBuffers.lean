import AipuDriver.Kmd.JobEffects
import AipuDriver.Kmd.Ownership
import AipuDriver.Umd.BuildWrites

/-!
# The thread buffers of running jobs

A context builds jobs on its thread buffers, hands them to the kernel driver, waits for them and
cleans them.  Without logic reset the kernel driver cannot stop a job: a kill clears the valid flag
of a scheduled job, and the device works on. The thread buffer of a scheduled job is in use, and it
is neither freed nor written, as long as

* a job is cleaned only when the kernel driver has no unfinished job on its thread buffer, and
* what `build_new_job` writes while a job is scheduled fits in its buffers.

`clean_job` refuses a job that is scheduled, but not one whose wait was too long.  After a timeout
the context forgets the job, and gives its thread buffer to the next one while the device still
works on it.

The kernel driver refuses a request with an error code only, and the memory that it grants shares no
byte with the buffers that the context has.
-/

namespace Aipu

open ByteReader KeyedList Transition UnusedId Word

/-! ## A context and the jobs in the kernel driver -/

/-- The graphs of a context under their ids, and the job manager of the kernel driver. -/
structure JobContext where
  graphs : List (ℕ × GraphObject)
  js : JmState

/-- What a step does to the memory, and what the job manager logs. -/
inductive JobContextEvent
  | buffer (e : BufferEvent)
  | write (w : HostWrite)
  | job (e : JmEvent)
deriving DecidableEq, Repr

/-- A call of the context, or a step of the job manager in between. -/
inductive JobContextAction
  /-- A call in which no job is submitted. -/
  | call (id : ℕ) (c : GraphCall)
  /-- `flush_job` in the thread `tid`, when the job is submitted. -/
  | flushJob (id jobId : ℕ) (mem : SessionMem) (tid : ℤ) (session sessionJob : ℕ)
  /-- An interrupt, a part of the bottom half, a kill or a cancel. -/
  | kernel (a : JmAction)

/-- `get_graph_object` -/
def JobContext.getGraphObject (s : JobContext) (id : ℕ) : Option GraphObject := lookup s.graphs id

/-- A job is submitted in the call. -/
def GraphCall.submits : GraphCall → Bool
  | .flushJob _ accepted => accepted
  | _ => false

/-- What a call writes to buffers: only `build_new_job` does. -/
def GraphObject.hostWrites (g : GraphObject) : GraphCall → List HostWrite
  | .buildNewJob handle addr =>
    ((g.buildNewJob handle addr).map fun (_, _, _, writes) => writes).getD []
  | _ => []

/-- A call on a graph. -/
def JobContext.call (s : JobContext) (id : ℕ) (c : GraphCall) :
    Option (JobContext × List JobContextEvent) :=
  match s.getGraphObject id with
  | none => none
  | some g =>
    (graphObjectStep g c).map fun (g', es) =>
      ({ s with graphs := adjust s.graphs id fun _ => g' },
        (g.hostWrites c).map JobContextEvent.write ++ es.map JobContextEvent.buffer)

/-- A step of the job manager. -/
def JobContext.kernel (s : JobContext) (a : JmAction) :
    Option (JobContext × List JobContextEvent) :=
  (jmStep s.js a).map fun (js, es) => ({ s with js := js }, es.map JobContextEvent.job)

/-- One step. -/
def jobContextStep (s : JobContext) : JobContextAction → Option (JobContext × List JobContextEvent)
  | .call id c => if c.submits then none else s.call id c
  | .flushJob id jobId mem tid session sessionJob =>
    match (s.getGraphObject id).bind (·.getJobPtr jobId) with
    | none => none
    | some job =>
      if job.state = .built then
        let desc := { job.config with jobId := job.id }
        (s.call id (.flushJob jobId true)).bind fun (s, _) =>
          s.kernel (.submit mem { uthreadId := tid, desc := desc, session := session,
                                  sessionJob := sessionJob })
      else none
  | .kernel a => if a.submittedSessionJob = none then s.kernel a else none

/-- The graph has been parsed and has just been loaded, and the kernel has answered soundly to the
request for the text. -/
def GraphObject.LoadedSoundly (g : GraphObject) (shmOffset : ℕ) : Prop :=
  ∃ ctrl mem graph size info id kernel es, (parseGraph ctrl mem graph size).value = .ok info ∧
    GraphObject.load id shmOffset info kernel = some (.success, g, es) ∧ kernel.text.Sound

/-- The runs of a context with loaded graphs, over a kernel driver without logic reset. -/
def jobContextSystem (maxSchedNum : ℤ) (shmOffset : ℕ) :
    System JobContext JobContextAction JobContextEvent where
  init s := (∃ idle, s.js = .initial maxSchedNum false idle) ∧
    ∀ e ∈ s.graphs, e.2.LoadedSoundly shmOffset
  step := jobContextStep

/-! ## The property -/

/-- The device addresses of the rodata, the stack and the reuse area in a descriptor. -/
def UserJobDesc.areas (desc : UserJobDesc) :
    List ℕ := [desc.data0Addr, desc.data1Addr, desc.reuseAddr]

/-- The device addresses of the rodata, the stack and the reuse area of a thread buffer. -/
def GraphObject.areas (g : GraphObject) (tbuf : ThreadBufferInfo) : List ℕ :=
  tbuf.bufs.map fun buf => g.host2dev buf.pa

/-- The descriptor names the rodata, the stack or the reuse area of the thread buffer. -/
def GraphObject.Names (g : GraphObject) (desc : UserJobDesc) (tbuf : ThreadBufferInfo) : Prop :=
  ∃ addr ∈ desc.areas, addr ∈ g.areas tbuf

/-- The context has the thread buffer under the handle. -/
def JobContext.Holds (s : JobContext) (id handle : ℕ) (g : GraphObject)
    (tbuf : ThreadBufferInfo) : Prop :=
  s.getGraphObject id = some g ∧ g.getTbufPtr handle = some tbuf

/-- The kernel driver has a scheduled job whose descriptor names the thread buffer. -/
def JobContext.Runs (s : JobContext) (g : GraphObject) (tbuf : ThreadBufferInfo) : Prop :=
  ∃ job ∈ s.js.jm.jobs, job.state = .sched ∧ g.Names job.desc tbuf

/-- The context has the thread buffer of each scheduled job, and every thread buffer that a
scheduled job names is in use. -/
structure JobContext.RunningBusy (s : JobContext) : Prop where
  held : ∀ job ∈ s.js.jm.jobs, job.state = .sched →
    ∃ id handle g tbuf, s.Holds id handle g tbuf ∧ job.desc.areas = g.areas tbuf
  busy : ∀ id handle g tbuf, s.Holds id handle g tbuf → s.Runs g tbuf → tbuf.isFree = false

/-- Two buffers share no byte of the memory and none of the addresses at which they are mapped. -/
structure BufferDesc.Separate (x y : BufferDesc) : Prop where
  physical : RangesDisjoint (x.pa, x.size) (y.pa, y.size)
  mapped : RangesDisjoint (x.va, x.size) (y.va, y.size)

/-- No memory of the thread buffer is freed, and its rodata with the descriptor is not written. -/
def JobContextEvent.Spares (e : JobContextEvent) (tbuf : ThreadBufferInfo) : Prop :=
  match e with
  | .buffer (.freed buf) => ∀ own ∈ tbuf.bufs, buf.Separate own
  | .write w => ∀ p, w.span.1 ≤ p → p < w.span.1 + w.span.2 →
      ¬(tbuf.rodata.va ≤ p ∧ p < tbuf.rodata.va + tbuf.rodata.size)
  | _ => True

/-- A step leaves the thread buffers of the scheduled jobs alone. -/
def JobContext.SparesRunning (s s' : JobContext) (es : List JobContextEvent) : Prop :=
  ∀ id handle g tbuf, s.Holds id handle g tbuf → s.Runs g tbuf →
    (∃ g' tbuf', s'.Holds id handle g' tbuf' ∧ tbuf'.bufs = tbuf.bufs) ∧ ∀ e ∈ es, e.Spares tbuf

/-! ## The conditions -/

/-- A text or a buffer of a thread buffer of the context. -/
def JobContext.Mapped (s : JobContext) (buf : BufferDesc) : Prop :=
  (∃ id g, s.getGraphObject id = some g ∧ buf = g.pbuf.text) ∨
    ∃ id handle g tbuf, s.Holds id handle g tbuf ∧ buf ∈ tbuf.bufs

/-- The kernel answers soundly, and what it grants shares nothing with the buffers of the
context. -/
def JobContext.ServedApart (s : JobContext) : JobContextAction → Prop
  | .call id c => ∀ g, s.getGraphObject id = some g → SoundAnswers g c ∧
      ∀ g' es buf, graphObjectStep g c = some (g', es) → .allocated buf ∈ es →
        ∀ own, s.Mapped own → buf.Separate own
  | _ => True

/-- When `clean_job` cleans a job, the kernel driver has no unfinished job that names its thread
buffer; and when `build_new_job` takes a thread buffer while a job is scheduled, what it writes
fits. -/
def JobContext.KeepsRunning (s : JobContext) : JobContextAction → Prop
  | .call id (.cleanJob jobId) =>
    ∀ g job tbuf, s.getGraphObject id = some g → g.getJobPtr jobId = some job →
      job.state ≠ .built → job.state ≠ .sched → g.getTbufPtr job.bufHandle = some tbuf →
        ∀ kernJob ∈ s.js.jm.jobs, kernJob.state ≠ .finished → ¬g.Names kernJob.desc tbuf
  | .call id (.buildNewJob handle _) => ∀ g tbuf, s.Holds id handle g tbuf → tbuf.isFree = true →
      (∃ kernJob ∈ s.js.jm.jobs, kernJob.state = .sched) → g.OffsetsFit tbuf
  | _ => True

/-! ## The areas of thread buffers -/

section Areas

variable {g : GraphObject} {tbuf : ThreadBufferInfo} {handle : ℕ}

/-- The descriptor of a job names the areas of its thread buffer. -/
theorem GraphObject.areas_config (g : GraphObject) (tbuf : ThreadBufferInfo) :
    (g.config tbuf).areas = g.areas tbuf := rfl

/-- The buffers of a thread buffer were granted. -/
theorem GraphObject.GrantedBy.bufs (h : g.GrantedBy ThreadBufferMalloc.Sound)
    (hreuse : g.info.tbufTempl.reuseSections ≠ [])
    (htbuf : g.getTbufPtr handle = some tbuf) : ∀ buf ∈ tbuf.bufs, 0 < buf.size ∧ buf.Within := by
  obtain ⟨kernel, _, _, _, ⟨hstackSound, hrodataSound, hreuseSound⟩, halloc⟩ :=
    h.tbufs handle tbuf htbuf
  obtain ⟨hstack, hstackLarge, hstackWithin⟩ := mallocBuf_ok hstackSound halloc.stack
  obtain ⟨⟨hrodata, hrodataWithin, -⟩, -⟩ := allocRodataBuffer_ok hrodataSound halloc.rodata
  have hgroup := allocGroupBuffers_ok hreuseSound halloc.reuse
  intro buf hbuf
  simp only [ThreadBufferInfo.bufs, List.mem_cons, List.not_mem_nil, or_false] at hbuf
  rcases hbuf with rfl | rfl | rfl
  · exact ⟨hrodata, hrodataWithin⟩
  · exact ⟨hstack.trans_le hstackLarge, hstackWithin⟩
  · exact ⟨hgroup.pos hreuse, hgroup.within hreuse⟩

/-- The buffers of a thread buffer are those that its allocation reports. -/
theorem ThreadBufferInfo.Allocated.allocated {kernel : ThreadBufferMalloc} {regionId : ℕ}
    {info : GraphInfo} {es₁ es₂ es₃ : List BufferEvent}
    (h : tbuf.Allocated kernel regionId info es₁ es₂ es₃) (hsound : kernel.Sound)
    (hreuse : info.tbufTempl.reuseSections ≠ []) :
    ∀ buf ∈ tbuf.bufs, .allocated buf ∈ es₁ ++ es₂ ++ es₃ := by
  obtain ⟨hstackSound, hrodataSound, hreuseSound⟩ := hsound
  obtain ⟨⟨-, -, rfl⟩, -⟩ := allocRodataBuffer_ok hrodataSound h.rodata
  obtain ⟨-, rfl, -⟩ := hstackSound.tells.mallocBuf_granted h.stack
  obtain rfl := allocGroupBuffers_events hreuseSound.tells h.reuse hreuse
  intro buf hbuf
  simp only [ThreadBufferInfo.bufs, List.mem_cons, List.not_mem_nil, or_false] at hbuf
  rcases hbuf with rfl | rfl | rfl <;> simp

/-- Different addresses are different for the device. -/
theorem GraphObject.host2dev_inj {a b : ℕ} (ha : a < 2 ^ 64) (hb : b < 2 ^ 64)
    (h : g.host2dev a = g.host2dev b) : a = b := by
  have hword := wrap_lt 64 g.shmOffset
  unfold GraphObject.host2dev wrapSub at h
  omega

/-- Buffers that share nothing are at different addresses. -/
theorem BufferDesc.Separate.pa_ne {x y : BufferDesc} (h : x.Separate y) (hx : 0 < x.size)
    (hy : 0 < y.size) :
    x.pa ≠ y.pa := by
  have hphysical := h.physical
  unfold RangesDisjoint at hphysical
  omega

/-- It does not matter which one is named first. -/
theorem BufferDesc.Separate.symm {x y : BufferDesc} (h : x.Separate y) :
    y.Separate x := ⟨h.physical.symm, h.mapped.symm⟩

end Areas

/-! ## The calls on a graph -/

section Calls

variable {g g' : GraphObject} {c : GraphCall} {es : List BufferEvent} {tbuf : ThreadBufferInfo}
    {handle : ℕ}

/-- `alloc_thread_buffer` changes no thread buffer that there was. -/
theorem GraphObject.allocThreadBuffer_getTbufPtr {kernel : ThreadBufferMalloc} {ret : AipuStatus}
    {new : Option ℕ}
    (h : g.allocThreadBuffer kernel = some (ret, g', new, es))
    (htbuf : g.getTbufPtr handle = some tbuf) :
    g'.getTbufPtr handle = some tbuf := by
  rcases GraphObject.allocThreadBuffer_cases h with ⟨rfl, -⟩ | ⟨tbuf', -, -, hid, -, rfl, -⟩
  · exact htbuf
  · have hunused : g.getTbufPtr tbuf'.handle = none := by
      simpa using not_used_of_firstUnused (Nat.mod_lt _ (by decide)) hid
    rw [GraphObject.getTbufPtr, lookup_insert, if_neg]
    · exact htbuf
    · rintro rfl
      rw [hunused] at htbuf
      cases htbuf

/-- A thread buffer that stays keeps its areas. -/
theorem graphObjectStep_areas (h : graphObjectStep g c = some (g', es)) {tbuf' : ThreadBufferInfo}
    (htbuf : g.getTbufPtr handle = some tbuf) (htbuf' : g'.getTbufPtr handle = some tbuf') :
    tbuf'.bufs = tbuf.bufs ∧ g'.areas tbuf' = g.areas tbuf := by
  rcases graphObjectStep_places h with hkeep | ⟨kernel, ret, new, rfl, hcall⟩
  · obtain ⟨tbuf₀, htbuf₀, heq⟩ := hkeep.tbufs handle tbuf' htbuf'
    obtain rfl := Option.some.inj (htbuf.symm.trans htbuf₀)
    rw [heq]
    refine ⟨rfl, ?_⟩
    unfold GraphObject.areas GraphObject.host2dev
    rw [hkeep.shmOffset]
    rfl
  · have hsame := GraphObject.allocThreadBuffer_getTbufPtr hcall htbuf
    obtain rfl := Option.some.inj (hsame.symm.trans htbuf')
    rcases GraphObject.allocThreadBuffer_cases hcall with ⟨rfl, -⟩ | ⟨tbuf₁, -, -, -, -, rfl, -⟩
    · exact ⟨rfl, rfl⟩
    · exact ⟨rfl, rfl⟩

/-- A thread buffer in use stays as it is, unless its job is cleaned. -/
theorem graphObjectStep_busy (h : graphObjectStep g c = some (g', es))
    (htbuf : g.getTbufPtr handle = some tbuf) (hbusy : tbuf.isFree = false) :
    g'.getTbufPtr handle = some tbuf ∨ ∃ jobId job, c = .cleanJob jobId ∧
      g.getJobPtr jobId = some job ∧
      job.bufHandle = handle ∧ job.state ≠ .built ∧ job.state ≠ .sched ∧
      g'.getTbufPtr handle = some { tbuf with isFree := true } := by
  have hne : ∀ {i : ℕ} {other : ThreadBufferInfo}, g.getTbufPtr i = some other →
      other.isFree = true → handle ≠ i := by
    rintro i other hother hfree rfl
    obtain rfl := Option.some.inj (htbuf.symm.trans hother)
    rw [hbusy] at hfree
    cases hfree
  cases c with
  | allocThreadBuffer kernel =>
    obtain ⟨⟨ret, g₁, new, es₁⟩, hcall, heq⟩ := Option.map_eq_some_iff.mp h
    obtain ⟨rfl, rfl⟩ := Prod.mk.inj heq
    exact .inl (GraphObject.allocThreadBuffer_getTbufPtr hcall htbuf)
  | freeThreadBuffer i oks =>
    have hg' : (g.freeThreadBuffer i oks).2.1 = g' := congrArg Prod.fst (Option.some.inj h)
    rw [← hg']
    rcases g.freeThreadBuffer_cases i oks with heq | ⟨other, hother, hfree, heq⟩
    · rw [heq]
      exact .inl htbuf
    · rw [heq, GraphObject.getTbufPtr, lookup_erase, if_neg (hne hother hfree)]
      exact .inl htbuf
  | buildNewJob i addr =>
    obtain ⟨⟨ret, g₁, new, writes⟩, hcall, heq⟩ := Option.map_eq_some_iff.mp h
    obtain ⟨rfl, rfl⟩ := Prod.mk.inj heq
    rcases GraphObject.buildNewJob_cases hcall with ⟨rfl, -⟩ | ⟨other, g₂, hother, hfree, rfl, hg₁⟩
    · exact .inl htbuf
    · have htaken : (g.taken i).getTbufPtr handle = some tbuf := by
        rw [GraphObject.getTbufPtr_taken, htbuf, Option.map_some, if_neg (hne hother hfree)]
      rcases hg₁ with ⟨rfl, -⟩ | ⟨job, -, -, -, -, -, rfl⟩
      · exact .inl htaken
      · exact .inl htaken
  | flushJob jobId accepted =>
    obtain ⟨rfl, rfl⟩ := Prod.mk.inj (Option.some.inj h)
    rw [GraphObject.getTbufPtr, (g.flushJob_marks jobId accepted).setsStates.tbufs]
    exact .inl htbuf
  | waitForJobEnd pollOpt jobId timeOut reply =>
    obtain ⟨⟨ret, g₁⟩, hcall, heq⟩ := Option.map_eq_some_iff.mp h
    obtain ⟨rfl, rfl⟩ := Prod.mk.inj heq
    rw [GraphObject.getTbufPtr, (GraphObject.waitForJobEnd_marks hcall).setsStates.tbufs]
    exact .inl htbuf
  | pollJobStatus reply =>
    obtain ⟨rfl, rfl⟩ := Prod.mk.inj (Option.some.inj h)
    rw [GraphObject.getTbufPtr, (g.pollJobStatus_marks reply).setsStates.tbufs]
    exact .inl htbuf
  | cleanJob jobId =>
    obtain ⟨rfl, rfl⟩ := Prod.mk.inj (Option.some.inj h)
    rcases g.cleanJob_cases jobId with heq | ⟨job, hjob, hbuilt, hsched, heq⟩
    · rw [heq]
      exact .inl htbuf
    · have hget : (g.cleanJob jobId).2.getTbufPtr handle =
          some (if handle = job.bufHandle then { tbuf with isFree := true } else tbuf) := by
        rw [GraphObject.getTbufPtr] at htbuf
        rw [heq, GraphObject.getTbufPtr, lookup_adjust, htbuf, Option.map_some]
      rw [hget]
      split_ifs with hhandle
      · exact .inr ⟨jobId, job, rfl, hjob, hhandle.symm, hbuilt, hsched, rfl⟩
      · exact .inl rfl

/-- A stored job was stored before, in some state, or it has just been built. -/
theorem graphObjectStep_jobs (h : graphObjectStep g c = some (g', es)) {i : ℕ} {job' : JobDesc}
    (hjob' : g'.getJobPtr i = some job') :
    (∃ job, g.getJobPtr i = some job ∧ job' = { job with state := job'.state }) ∨
      ∃ tbuf, g.getTbufPtr job'.bufHandle = some tbuf ∧ job'.config = g.config tbuf := by
  have hsame : ∀ {g₁ : GraphObject}, g₁.jobs = g.jobs → g₁.getJobPtr i = some job' →
      ∃ job, g.getJobPtr i = some job ∧ job' = { job with state := job'.state } := by
    intro g₁ hjobs hjob
    rw [GraphObject.getJobPtr, hjobs] at hjob
    exact ⟨job', hjob, rfl⟩
  cases c with
  | allocThreadBuffer kernel =>
    obtain ⟨⟨ret, g₁, new, es₁⟩, hcall, heq⟩ := Option.map_eq_some_iff.mp h
    obtain ⟨rfl, rfl⟩ := Prod.mk.inj heq
    rcases GraphObject.allocThreadBuffer_cases hcall with ⟨rfl, -⟩ | ⟨tbuf, -, -, -, -, rfl, -⟩
    · exact .inl (hsame rfl hjob')
    · exact .inl (hsame rfl hjob')
  | freeThreadBuffer handle oks =>
    have hg' : (g.freeThreadBuffer handle oks).2.1 = g' := congrArg Prod.fst (Option.some.inj h)
    rw [← hg'] at hjob'
    rcases g.freeThreadBuffer_cases handle oks with heq | ⟨tbuf, -, -, heq⟩
    · exact .inl (hsame (by rw [heq]) hjob')
    · exact .inl (hsame (by rw [heq]) hjob')
  | buildNewJob handle addr =>
    obtain ⟨⟨ret, g₁, new, writes⟩, hcall, heq⟩ := Option.map_eq_some_iff.mp h
    obtain ⟨rfl, rfl⟩ := Prod.mk.inj heq
    rcases GraphObject.buildNewJob_cases hcall with ⟨rfl, -⟩ | ⟨tbuf, g₂, htbuf, -, rfl, hg₁⟩
    · exact .inl (hsame rfl hjob')
    · rcases hg₁ with ⟨rfl, -⟩ | ⟨job, -, -, hhandle, -, hconfig, rfl⟩
      · exact .inl (hsame rfl hjob')
      · rw [GraphObject.getJobPtr, lookup_insert] at hjob'
        split_ifs at hjob'
        · obtain rfl := Option.some.inj hjob'
          exact .inr ⟨tbuf, by rw [hhandle]; exact htbuf, hconfig⟩
        · exact .inl ⟨job', hjob', rfl⟩
  | flushJob jobId accepted =>
    obtain ⟨rfl, rfl⟩ := Prod.mk.inj (Option.some.inj h)
    exact .inl ((g.flushJob_marks jobId accepted).getJobPtr hjob')
  | waitForJobEnd pollOpt jobId timeOut reply =>
    obtain ⟨⟨ret, g₁⟩, hcall, heq⟩ := Option.map_eq_some_iff.mp h
    obtain ⟨rfl, rfl⟩ := Prod.mk.inj heq
    exact .inl ((GraphObject.waitForJobEnd_marks hcall).getJobPtr hjob')
  | pollJobStatus reply =>
    obtain ⟨rfl, rfl⟩ := Prod.mk.inj (Option.some.inj h)
    exact .inl ((g.pollJobStatus_marks reply).getJobPtr hjob')
  | cleanJob jobId =>
    obtain ⟨rfl, rfl⟩ := Prod.mk.inj (Option.some.inj h)
    rcases g.cleanJob_cases jobId with heq | ⟨job, -, -, -, heq⟩
    · exact .inl (hsame (by rw [heq]) hjob')
    · rw [heq, GraphObject.getJobPtr, lookup_erase] at hjob'
      split_ifs at hjob'
      exact .inl ⟨job', hjob', rfl⟩

/-- `free_buf` frees the buffer. -/
theorem BufferDesc.mem_freeEvents {x : BufferDesc} {e : BufferEvent} (h : e ∈ x.freeEvents) :
    e = .freed x := by
  unfold BufferDesc.freeEvents at h
  split_ifs at h
  · cases h
  · exact List.mem_singleton.mp h

/-- `malloc_buf` frees nothing. -/
theorem mallocBuf_freed {kernel : KernelMalloc} {dtype size alignInPage regionId : ℕ}
    {old buf : BufferDesc} {res : Except AipuStatus BufferDesc}
    (h : mallocBuf kernel dtype size alignInPage regionId old = (res, es)) : .freed buf ∉ es := by
  by_cases hsize : size = 0
  · rw [mallocBuf, if_pos hsize] at h
    obtain ⟨-, rfl⟩ := Prod.mk.inj h
    exact List.not_mem_nil
  · rw [mallocBuf_of_ne_zero hsize] at h
    split at h
    all_goals
      obtain ⟨-, rfl⟩ := Prod.mk.inj h
      simp

/-- `alloc_rodata_buffer` frees nothing. -/
theorem allocRodataBuffer_freed {kernel : KernelMalloc} {regionId : ℕ} {templ : TbufAllocTempl}
    {old buf : BufferDesc} {res : Except AipuStatus (BufferDesc × BufferDesc)}
    (h : allocRodataBuffer kernel regionId templ old = (res, es)) : .freed buf ∉ es := by
  unfold allocRodataBuffer at h
  split at h
  next hcall =>
    obtain ⟨-, rfl⟩ := Prod.mk.inj h
    exact mallocBuf_freed hcall
  next hcall =>
    obtain ⟨-, rfl⟩ := Prod.mk.inj h
    exact mallocBuf_freed hcall

/-- `alloc_group_buffers` frees nothing. -/
theorem allocGroupBuffers_freed {kernel : KernelMalloc} {sections : List SectionDesc} {dtype : ℕ}
    {old group buf : BufferDesc} {res : Except AipuStatus (List BufferDesc × BufferDesc)}
    (h : allocGroupBuffers kernel sections dtype old group = some (res, es)) :
    .freed buf ∉ es := by
  unfold allocGroupBuffers at h
  split at h
  · obtain ⟨-, rfl⟩ := Prod.mk.inj (Option.some.inj h)
    exact List.not_mem_nil
  · obtain ⟨⟨offsets, totBytes⟩, -, h⟩ := Option.map_eq_some_iff.mp h
    dsimp only at h
    split at h
    next hcall =>
      obtain ⟨-, rfl⟩ := Prod.mk.inj h
      exact mallocBuf_freed hcall
    next hcall =>
      obtain ⟨-, rfl⟩ := Prod.mk.inj h
      exact mallocBuf_freed hcall

/-- `alloc_thread_buffer` frees only what it has allocated. -/
theorem GraphObject.allocThreadBuffer_freed {kernel : ThreadBufferMalloc} {ret : AipuStatus}
    {new : Option ℕ} (hsound : kernel.Sound)
    (h : g.allocThreadBuffer kernel = some (ret, g', new, es)) {buf : BufferDesc}
    (hbuf : .freed buf ∈ es) :
    .allocated buf ∈ es := by
  unfold GraphObject.allocThreadBuffer at h
  dsimp only at h
  split at h
  next hstack =>
    obtain ⟨-, -, -, rfl⟩ : _ ∧ _ ∧ _ ∧ _ = es := by simpa using h
    exact absurd hbuf (mallocBuf_freed hstack)
  next stack es₁ hstack =>
    obtain ⟨-, rfl, -⟩ := hsound.1.tells.mallocBuf_granted hstack
    split at h
    next hrodata =>
      obtain ⟨-, -, -, rfl⟩ : _ ∧ _ ∧ _ ∧ _ = es := by simpa using h
      simp only [List.mem_cons, List.mem_append, reduceCtorEq, false_or] at hbuf
      rcases hbuf with hbuf | hbuf
      · exact absurd hbuf (allocRodataBuffer_freed hrodata)
      · obtain rfl := BufferEvent.freed.inj (BufferDesc.mem_freeEvents hbuf)
        simp
    next rodata descriptor es₂ hrodata =>
      obtain ⟨⟨-, -, rfl⟩, -⟩ := allocRodataBuffer_ok hsound.2.1 hrodata
      obtain ⟨group, hgroup, h⟩ := Option.bind_eq_some_iff.mp h
      split at h
      next es₃ =>
        obtain ⟨-, -, -, rfl⟩ : _ ∧ _ ∧ _ ∧ _ = es := by simpa using h
        simp only [List.mem_cons, List.mem_append, reduceCtorEq, false_or] at hbuf
        rcases hbuf with hbuf | hbuf | hbuf
        · exact absurd hbuf (allocGroupBuffers_freed hgroup)
        · obtain rfl := BufferEvent.freed.inj (BufferDesc.mem_freeEvents hbuf)
          simp
        · obtain rfl := BufferEvent.freed.inj (BufferDesc.mem_freeEvents hbuf)
          simp
      next es₃ =>
        obtain ⟨iobuf, -, h⟩ := Option.bind_eq_some_iff.mp h
        obtain ⟨handle, -, h⟩ := Option.bind_eq_some_iff.mp h
        obtain ⟨-, -, -, rfl⟩ : _ ∧ _ ∧ _ ∧ _ = es := by simpa using h
        exact absurd hbuf (by simp [allocGroupBuffers_freed hgroup])

/-- `freeBufs` frees some of the buffers. -/
theorem freeBufs_events {oks : Oracle} {bufs : List BufferDesc} {e : BufferEvent}
    (h : e ∈ (freeBufs oks bufs).2) :
    ∃ buf ∈ bufs, e = .freed buf := by
  induction bufs generalizing oks with
  | nil => cases h
  | cons first rest ih =>
    rw [freeBufs] at h
    split at h
    · rcases List.mem_cons.mp h with rfl | h
      · exact ⟨first, List.mem_cons_self, rfl⟩
      · obtain ⟨buf, hbuf, rfl⟩ := ih h
        exact ⟨buf, List.mem_cons_of_mem _ hbuf, rfl⟩
    · cases h

/-- `free_thread_buffer` frees buffers of a free thread buffer. -/
theorem GraphObject.freeThreadBuffer_events {oks : Oracle} {e : BufferEvent}
    (h : e ∈ (g.freeThreadBuffer handle oks).2.2) :
    ∃ tbuf, g.getTbufPtr handle = some tbuf ∧ tbuf.isFree = true ∧
      ∃ buf ∈ tbuf.bufs, e = .freed buf := by
  rw [GraphObject.freeThreadBuffer] at h
  split at h
  · cases h
  next tbuf htbuf =>
    split_ifs at h with hfree
    · have hfreed : ∀ {ret : AipuStatus} {es₁ : List BufferEvent},
          freeBufs oks tbuf.bufs = (ret, es₁) →
          e ∈ es₁ → ∃ buf ∈ tbuf.bufs, e = .freed buf := by
        intro ret es₁ heq hmem
        refine @freeBufs_events oks _ _ ?_
        rw [heq]
        exact hmem
      split at h
      · exact ⟨tbuf, htbuf, hfree, hfreed ‹_› h⟩
      · exact ⟨tbuf, htbuf, hfree, hfreed ‹_› h⟩
    · cases h

/-- Only `alloc_thread_buffer` allocates, and what another call frees are buffers of a free thread
buffer. -/
theorem graphObjectStep_events (h : graphObjectStep g c = some (g', es)) :
    (∃ kernel ret new, c = .allocThreadBuffer kernel ∧
      g.allocThreadBuffer kernel = some (ret, g', new, es)) ∨
      ∀ e ∈ es, ∃ handle tbuf, g.getTbufPtr handle = some tbuf ∧ tbuf.isFree = true ∧
        ∃ buf ∈ tbuf.bufs, e = .freed buf := by
  cases c with
  | allocThreadBuffer kernel =>
    obtain ⟨⟨ret, g₁, new, es₁⟩, hcall, heq⟩ := Option.map_eq_some_iff.mp h
    obtain ⟨rfl, rfl⟩ := Prod.mk.inj heq
    exact .inl ⟨kernel, ret, new, rfl, hcall⟩
  | freeThreadBuffer handle oks =>
    have hes : (g.freeThreadBuffer handle oks).2.2 = es := congrArg Prod.snd (Option.some.inj h)
    rw [← hes]
    exact .inr fun e he => ⟨handle, GraphObject.freeThreadBuffer_events he⟩
  | buildNewJob handle addr =>
    obtain ⟨⟨ret, g₁, new, writes⟩, -, heq⟩ := Option.map_eq_some_iff.mp h
    obtain ⟨-, rfl⟩ := Prod.mk.inj heq
    exact .inr (by simp)
  | waitForJobEnd pollOpt jobId timeOut reply =>
    obtain ⟨⟨ret, g₁⟩, -, heq⟩ := Option.map_eq_some_iff.mp h
    obtain ⟨-, rfl⟩ := Prod.mk.inj heq
    exact .inr (by simp)
  | flushJob | pollJobStatus | cleanJob =>
    obtain ⟨-, rfl⟩ := Prod.mk.inj (Option.some.inj h)
    exact .inr (by simp)

/-- A buffer that is freed was allocated in the same call, or it is one of a free thread buffer. -/
theorem graphObjectStep_freed (hsound : SoundAnswers g c)
    (h : graphObjectStep g c = some (g', es)) {buf : BufferDesc} (hbuf : .freed buf ∈ es) :
    .allocated buf ∈ es ∨ ∃ handle tbuf, g.getTbufPtr handle = some tbuf ∧ tbuf.isFree = true ∧
      buf ∈ tbuf.bufs := by
  rcases graphObjectStep_events h with ⟨kernel, ret, new, rfl, hcall⟩ | hfrees
  · exact .inl (GraphObject.allocThreadBuffer_freed hsound hcall hbuf)
  · obtain ⟨handle, tbuf, htbuf, hfree, own, hown, heq⟩ := hfrees _ hbuf
    rw [BufferEvent.freed.inj heq]
    exact .inr ⟨handle, tbuf, htbuf, hfree, hown⟩

/-- What a call writes lies in the rodata of a free thread buffer or in the text, when the offsets
fit. -/
theorem GraphObject.GrantedBy.hostWrites_inside (h : g.GrantedBy ThreadBufferMalloc.Sound)
    {w : HostWrite}
    (hw : w ∈ g.hostWrites c)
    (hfit : ∀ handle addr tbuf, c = .buildNewJob handle addr → g.getTbufPtr handle = some tbuf →
      tbuf.isFree = true → g.OffsetsFit tbuf) :
    ∃ handle tbuf, g.getTbufPtr handle = some tbuf ∧ tbuf.isFree = true ∧
      (w.Inside tbuf.rodata ∨ w.Inside g.pbuf.text) := by
  cases c with
  | buildNewJob handle addr =>
    rw [GraphObject.hostWrites] at hw
    cases hcall : g.buildNewJob handle addr with
    | none =>
      rw [hcall] at hw
      cases hw
    | some r =>
      obtain ⟨ret, g', new, writes⟩ := r
      rw [hcall] at hw
      replace hw : w ∈ writes := hw
      by_cases hfree : ∃ tbuf, g.getTbufPtr handle = some tbuf ∧ tbuf.isFree = true
      · obtain ⟨tbuf, htbuf, hfree⟩ := hfree
        refine ⟨handle, tbuf, htbuf, hfree, ?_⟩
        obtain ⟨front, links, rfl, hfront, hlinks⟩ :=
          ((h.mono fun _ hsound => hsound.2.1).writesInside_iff htbuf hfree hcall).mpr
            (hfit handle addr tbuf rfl htbuf hfree)
        rcases List.mem_append.mp hw with hw | hw
        · exact .inl (hfront w hw)
        · have hnode : ∃ node, w.Inside (g.nodeBuf tbuf node) := by
            clear hcall hfront
            generalize g.writtenNodes ret = nodes at hlinks
            induction hlinks with
            | nil => cases hw
            | cons hinside _ ih =>
              rcases List.mem_cons.mp hw with rfl | hw
              · exact ⟨_, hinside⟩
              · exact ih (List.mem_append_right _ hw) hw
          obtain ⟨node, hinside⟩ := hnode
          unfold GraphObject.nodeBuf at hinside
          split_ifs at hinside
          · exact .inr hinside
          · exact .inl hinside
      · have hbusy : ∀ tbuf, g.getTbufPtr handle = some tbuf → tbuf.isFree = false := by
          intro tbuf htbuf
          by_contra hfree'
          exact hfree ⟨tbuf, htbuf, by simpa using hfree'⟩
        obtain ⟨ret', -, hcall'⟩ := GraphObject.buildNewJob_busy addr hbusy
        obtain ⟨-, heq⟩ := Prod.mk.inj (Option.some.inj (hcall.symm.trans hcall'))
        obtain ⟨-, heq⟩ := Prod.mk.inj heq
        obtain ⟨-, rfl⟩ := Prod.mk.inj heq
        cases hw
  | allocThreadBuffer | freeThreadBuffer | flushJob | waitForJobEnd | pollJobStatus
  | cleanJob => cases hw

/-- What is kept for each graph: the buffers are as they were granted, each job has a thread buffer
of its own, and its configuration names the areas of that one. -/
structure GraphObject.Kept (g : GraphObject) (shmOffset : ℕ) : Prop where
  shmOffset : g.shmOffset = shmOffset
  granted : g.GrantedBy ThreadBufferMalloc.Sound
  exclusive : g.Exclusive
  reuse : g.info.tbufTempl.reuseSections ≠ []
  areas : ∀ jobId job tbuf, g.getJobPtr jobId = some job → g.getTbufPtr job.bufHandle = some tbuf →
    job.config.areas = g.areas tbuf

/-- A graph that has just been loaded. -/
theorem GraphObject.LoadedSoundly.kept {shmOffset : ℕ} (h : g.LoadedSoundly shmOffset) :
    g.Kept shmOffset := by
  obtain ⟨ctrl, mem, graph, size, info, id, kernel, es, hparsed, hload, htext⟩ := h
  obtain ⟨hinfo, hshm⟩ := GraphObject.load_info hload
  have hloaded : g.Loaded := ⟨id, shmOffset, info, kernel, es, hload⟩
  obtain ⟨-, hjobs⟩ := hloaded.empty
  refine ⟨hshm, GraphObject.load_grantedBy _ htext hload, hloaded.exclusive,
    hinfo ▸ parsed_reuseSections hparsed, fun jobId job tbuf hjob => ?_⟩
  rw [GraphObject.getJobPtr, hjobs] at hjob
  cases hjob

/-- A call keeps it. -/
theorem GraphObject.Kept.step {shmOffset : ℕ} (hkept : g.Kept shmOffset) (hsound : SoundAnswers g c)
    (h : graphObjectStep g c = some (g', es)) : g'.Kept shmOffset := by
  have hsteps : graphObjectSystem.Steps SoundAnswers g ([] ++ es) g' := .tail .refl hsound h
  obtain ⟨hinfo, hshm, -⟩ := graphObjectSystem_loaded hsteps
  refine ⟨hshm.trans hkept.shmOffset, hkept.granted.steps hsteps, hkept.exclusive.step h,
    by rw [hinfo]; exact hkept.reuse, fun jobId job' tbuf' hjob' htbuf' => ?_⟩
  rcases graphObjectStep_jobs h hjob' with ⟨job, hjob, heq⟩ | ⟨tbuf, htbuf, hconfig⟩
  · have hhandle : job'.bufHandle = job.bufHandle := by rw [heq]
    obtain ⟨tbuf, htbuf, -⟩ := hkept.exclusive.used jobId job hjob
    rw [hhandle] at htbuf'
    rw [(graphObjectStep_areas h htbuf htbuf').2, ← hkept.areas jobId job tbuf hjob htbuf, heq]
  · rw [(graphObjectStep_areas h htbuf htbuf').2, hconfig, GraphObject.areas_config]

end Calls

/-! ## The steps of a context -/

section Steps

variable {s s' : JobContext} {a : JobContextAction} {es : List JobContextEvent}

/-- A step is a call on a graph, a call in which a job is submitted, or a step of the job
manager. -/
theorem jobContextStep_cases (h : jobContextStep s a = some (s', es)) :
    (∃ id c g g' bufs, a = .call id c ∧ s.getGraphObject id = some g ∧
      graphObjectStep g c = some (g', bufs) ∧
      s' = { s with graphs := adjust s.graphs id fun _ => g' } ∧
      es = (g.hostWrites c).map JobContextEvent.write ++ bufs.map JobContextEvent.buffer) ∨
    (∃ id jobId g job mem sub js jes, s.getGraphObject id = some g ∧ g.getJobPtr jobId = some job ∧
      sub.desc = { job.config with jobId := job.id } ∧
      jmStep s.js (.submit mem sub) = some (js, jes) ∧
      s' = ⟨adjust s.graphs id fun _ => (g.flushJob jobId true).2, js⟩ ∧
        es = jes.map JobContextEvent.job) ∨
    ∃ ja js jes, ja.submittedSessionJob = none ∧ jmStep s.js ja = some (js, jes) ∧
      s' = { s with js := js } ∧
      es = jes.map JobContextEvent.job := by
  cases a with
  | call id c =>
    simp only [jobContextStep] at h
    split_ifs at h
    unfold JobContext.call at h
    split at h
    · cases h
    next g hg =>
      obtain ⟨⟨g', bufs⟩, hstep, heq⟩ := Option.map_eq_some_iff.mp h
      obtain ⟨rfl, rfl⟩ := Prod.mk.inj heq
      exact .inl ⟨id, c, g, g', bufs, rfl, hg, hstep, rfl, rfl⟩
  | flushJob id jobId mem tid session sessionJob =>
    simp only [jobContextStep] at h
    split at h
    · cases h
    next job hjob =>
      obtain ⟨g, hg, hjob⟩ := Option.bind_eq_some_iff.mp hjob
      split_ifs at h
      obtain ⟨⟨s₁, es₁⟩, hcall, hsubmit⟩ := Option.bind_eq_some_iff.mp h
      rw [JobContext.call, hg] at hcall
      obtain ⟨rfl, -⟩ := Prod.mk.inj (Option.some.inj hcall)
      obtain ⟨⟨js, jes⟩, hstep, heq⟩ := Option.map_eq_some_iff.mp hsubmit
      obtain ⟨rfl, rfl⟩ := Prod.mk.inj heq
      exact .inr (.inl ⟨id, jobId, g, job, mem, _, js, jes, hg, hjob, rfl, hstep, rfl, rfl⟩)
  | kernel ja =>
    simp only [jobContextStep] at h
    split_ifs at h with hsubmit
    obtain ⟨⟨js, jes⟩, hstep, heq⟩ := Option.map_eq_some_iff.mp h
    obtain ⟨rfl, rfl⟩ := Prod.mk.inj heq
    exact .inr (.inr ⟨ja, js, jes, hsubmit, hstep, rfl, rfl⟩)

/-- The graphs of a context, one of which has changed. -/
theorem JobContext.getGraphObject_adjust {id i : ℕ} {g g' : GraphObject}
    (hg : s.getGraphObject id = some g) (hs' : s'.graphs = adjust s.graphs id fun _ => g') :
    s'.getGraphObject i = if i = id then some g' else s.getGraphObject i := by
  rw [JobContext.getGraphObject, hs', lookup_adjust]
  rw [JobContext.getGraphObject] at hg ⊢
  split_ifs with hi
  · rw [hi, hg, Option.map_some]
  · exact Option.map_id'

/-- What holds of the buffers of a context: each graph is kept, and buffers of different thread
buffers, and these and the texts, share nothing. -/
structure JobContext.BuffersInv (s : JobContext) (shmOffset : ℕ) : Prop where
  kept : ∀ id g, s.getGraphObject id = some g → g.Kept shmOffset
  separate : ∀ id handle g tbuf id' handle' g' tbuf', s.Holds id handle g tbuf →
    s.Holds id' handle' g' tbuf' →
    (id, handle) ≠ (id', handle') → ∀ x ∈ tbuf.bufs, ∀ y ∈ tbuf'.bufs, x.Separate y
  texts : ∀ id handle g tbuf id' g', s.Holds id handle g tbuf → s.getGraphObject id' = some g' →
    ∀ x ∈ tbuf.bufs, x.Separate g'.pbuf.text

/-- The kernel driver still has a job for a thread buffer that is in use: the descriptor names the
areas of that one. -/
def JobContext.Carries (s : JobContext) (desc : UserJobDesc) : Prop :=
  ∃ id handle g tbuf, s.Holds id handle g tbuf ∧ tbuf.isFree = false ∧ desc.areas = g.areas tbuf

/-- The invariant: the job manager is as it should be, the buffers are, and each unfinished job has
its thread buffer. -/
structure JobContext.RunningInv (s : JobContext) (maxSchedNum : ℤ) (shmOffset : ℕ) : Prop where
  queues : ∃ tr, JobQueueInv maxSchedNum tr s.js
  bottomHalf : s.js.BhInv
  buffers : s.BuffersInv shmOffset
  carried : ∀ job ∈ s.js.jm.jobs, job.state ≠ .finished → s.Carries job.desc

variable {maxSchedNum : ℤ} {shmOffset : ℕ}

/-- Other jobs in the kernel driver do not matter to the buffers. -/
theorem JobContext.BuffersInv.of_graphs (h : s.BuffersInv shmOffset)
    (hgraphs : s'.graphs = s.graphs) :
    s'.BuffersInv shmOffset := by
  obtain ⟨graphs, js⟩ := s
  obtain ⟨graphs', js'⟩ := s'
  obtain rfl : graphs' = graphs := hgraphs
  exact ⟨h.kept, h.separate, h.texts⟩

/-- A descriptor that names an area of a thread buffer names no area of another one. -/
theorem JobContext.BuffersInv.eq_of_names (h : s.BuffersInv shmOffset) {id handle id' handle' : ℕ}
    {g g' : GraphObject} {tbuf tbuf' : ThreadBufferInfo} {desc : UserJobDesc}
    (hholds : s.Holds id handle g tbuf)
    (hareas : desc.areas = g.areas tbuf) (hholds' : s.Holds id' handle' g' tbuf')
    (hnames : g'.Names desc tbuf') : (id, handle) = (id', handle') := by
  by_contra hne
  obtain ⟨addr, hdesc, htbuf'⟩ := hnames
  rw [hareas] at hdesc
  obtain ⟨x, hx, hxaddr⟩ := List.mem_map.mp hdesc
  obtain ⟨y, hy, hyaddr⟩ := List.mem_map.mp htbuf'
  have hkept := h.kept id g hholds.1
  have hkept' := h.kept id' g' hholds'.1
  obtain ⟨hxpos, hxwithin⟩ := hkept.granted.bufs hkept.reuse hholds.2 x hx
  obtain ⟨hypos, hywithin⟩ := hkept'.granted.bufs hkept'.reuse hholds'.2 y hy
  have hseparate := h.separate id handle g tbuf id' handle' g' tbuf' hholds hholds' hne x hx y hy
  have hsame : g.host2dev x.pa = g.host2dev y.pa := by
    calc g.host2dev x.pa
      _ = addr := hxaddr
      _ = g'.host2dev y.pa := hyaddr.symm
      _ = g.host2dev y.pa := by
        rw [GraphObject.host2dev, GraphObject.host2dev, hkept.shmOffset, hkept'.shmOffset]
  have hxend := hxwithin.physical
  have hyend := hywithin.physical
  exact hseparate.pa_ne hxpos hypos (GraphObject.host2dev_inj (by omega) (by omega) hsame)

/-- A descriptor with the areas of a thread buffer names it. -/
theorem GraphObject.names_of_areas {g : GraphObject} {desc : UserJobDesc} {tbuf : ThreadBufferInfo}
    (h : desc.areas = g.areas tbuf) : g.Names desc tbuf := by
  refine ⟨desc.data0Addr, List.mem_cons_self, ?_⟩
  rw [← h]
  exact List.mem_cons_self

end Steps

/-! ## A call keeps the buffers apart -/

section Call

variable {s s' : JobContext} {id : ℕ} {g g' : GraphObject} {c : GraphCall} {bufs : List BufferEvent}
    {shmOffset : ℕ}

/-- After a call, a thread buffer was there before, or its buffers were allocated in the call. -/
theorem JobContext.holds_origin (hg : s.getGraphObject id = some g)
    (hreuse : g.info.tbufTempl.reuseSections ≠ []) (hsound : SoundAnswers g c)
    (hstep : graphObjectStep g c = some (g', bufs))
    (hs' : s'.graphs = adjust s.graphs id fun _ => g') :
    ∃ new : ℕ × ℕ, ∀ i handle g₁ tbuf₁, s'.Holds i handle g₁ tbuf₁ →
      (∃ g₀ tbuf₀, s.Holds i handle g₀ tbuf₀ ∧ tbuf₁.bufs = tbuf₀.bufs) ∨
        ((i, handle) = new ∧ ∀ buf ∈ tbuf₁.bufs, .allocated buf ∈ bufs) := by
  have hother : ∀ {i handle g₁ tbuf₁}, i ≠ id → s'.Holds i handle g₁ tbuf₁ →
      ∃ g₀ tbuf₀, s.Holds i handle g₀ tbuf₀ ∧ tbuf₁.bufs = tbuf₀.bufs := by
    rintro i handle g₁ tbuf₁ hi ⟨hg₁, htbuf₁⟩
    rw [JobContext.getGraphObject_adjust hg hs', if_neg hi] at hg₁
    exact ⟨g₁, tbuf₁, ⟨hg₁, htbuf₁⟩, rfl⟩
  have hsame : ∀ {g₁}, s'.getGraphObject id = some g₁ → g₁ = g' := by
    intro g₁ hg₁
    rw [JobContext.getGraphObject_adjust hg hs', if_pos rfl] at hg₁
    exact (Option.some.inj hg₁).symm
  rcases graphObjectStep_places hstep with hkeep | ⟨kernel, ret, new, rfl, hcall⟩
  · refine ⟨(0, 0), fun i handle g₁ tbuf₁ hholds => .inl ?_⟩
    by_cases hi : i = id
    · subst hi
      obtain rfl := hsame hholds.1
      obtain ⟨tbuf, htbuf, heq⟩ := hkeep.tbufs handle tbuf₁ hholds.2
      exact ⟨g, tbuf, ⟨hg, htbuf⟩, by rw [heq]; rfl⟩
    · exact hother hi hholds
  · rcases GraphObject.allocThreadBuffer_cases hcall with
      ⟨heq, -⟩ | ⟨tbuf, -, -, -, -, heq, es₁, es₂, es₃, halloc, rfl⟩
    · refine ⟨(0, 0), fun i handle g₁ tbuf₁ hholds => .inl ?_⟩
      by_cases hi : i = id
      · subst hi
        obtain rfl := hsame hholds.1
        rw [heq] at hholds
        exact ⟨g, tbuf₁, ⟨hg, hholds.2⟩, rfl⟩
      · exact hother hi hholds
    · refine ⟨(id, tbuf.handle), fun i handle g₁ tbuf₁ hholds => ?_⟩
      by_cases hi : i = id
      · subst hi
        obtain rfl := hsame hholds.1
        have htbuf₁ := hholds.2
        rw [heq, GraphObject.getTbufPtr, lookup_insert] at htbuf₁
        split_ifs at htbuf₁ with hhandle
        · obtain rfl := Option.some.inj htbuf₁
          exact .inr ⟨by rw [hhandle], halloc.allocated hsound hreuse⟩
        · exact .inl ⟨g, tbuf₁, ⟨hg, htbuf₁⟩, rfl⟩
      · exact .inl (hother hi hholds)

/-- A call whose requests are served apart keeps the buffers apart. -/
theorem JobContext.BuffersInv.call (hinv : s.BuffersInv shmOffset)
    (hg : s.getGraphObject id = some g)
    (hstep : graphObjectStep g c = some (g', bufs))
    (hs' : s'.graphs = adjust s.graphs id fun _ => g') (hsound : SoundAnswers g c)
    (hapart : ∀ buf, .allocated buf ∈ bufs → ∀ own, s.Mapped own → buf.Separate own) :
    s'.BuffersInv shmOffset := by
  obtain ⟨new, horigin⟩ :=
    JobContext.holds_origin hg (hinv.kept id g hg).reuse hsound hstep hs'
  have hsteps : graphObjectSystem.Steps SoundAnswers g ([] ++ bufs) g' := .tail .refl hsound hstep
  have htext : ∀ i g₁, s'.getGraphObject i = some g₁ →
      ∃ g₀, s.getGraphObject i = some g₀ ∧ g₁.pbuf = g₀.pbuf := by
    intro i g₁ hg₁
    rw [JobContext.getGraphObject_adjust hg hs'] at hg₁
    split_ifs at hg₁ with hi
    · obtain rfl := Option.some.inj hg₁
      exact ⟨g, by rw [hi]; exact hg, (graphObjectSystem_loaded hsteps).2.2⟩
    · exact ⟨g₁, hg₁, rfl⟩
  refine ⟨fun i g₁ hg₁ => ?_, ?_, ?_⟩
  · rw [JobContext.getGraphObject_adjust hg hs'] at hg₁
    split_ifs at hg₁
    · obtain rfl := Option.some.inj hg₁
      exact (hinv.kept id g hg).step hsound hstep
    · exact hinv.kept i g₁ hg₁
  · intro i handle g₁ tbuf₁ i' handle' g₂ tbuf₂ h₁ h₂ hne x hx y hy
    rcases horigin i handle g₁ tbuf₁ h₁ with ⟨g₀, tbuf₀, hold, hbufs⟩ | ⟨hnew, halloc⟩
    · rw [hbufs] at hx
      rcases horigin i' handle' g₂ tbuf₂ h₂ with ⟨g₀', tbuf₀', hold', hbufs'⟩ | ⟨-, halloc'⟩
      · rw [hbufs'] at hy
        exact hinv.separate i handle g₀ tbuf₀ i' handle' g₀' tbuf₀' hold hold' hne x hx y hy
      · exact (hapart y (halloc' y hy) x (.inr ⟨i, handle, g₀, tbuf₀, hold, hx⟩)).symm
    · rcases horigin i' handle' g₂ tbuf₂ h₂ with ⟨g₀', tbuf₀', hold', hbufs'⟩ | ⟨hnew', -⟩
      · rw [hbufs'] at hy
        exact hapart x (halloc x hx) y (.inr ⟨i', handle', g₀', tbuf₀', hold', hy⟩)
      · exact absurd (hnew.trans hnew'.symm) hne
  · intro i handle g₁ tbuf₁ i' g₂ h₁ h₂ x hx
    obtain ⟨g₀', hg₀', hpbuf⟩ := htext i' g₂ h₂
    rw [hpbuf]
    rcases horigin i handle g₁ tbuf₁ h₁ with ⟨g₀, tbuf₀, hold, hbufs⟩ | ⟨-, halloc⟩
    · rw [hbufs] at hx
      exact hinv.texts i handle g₀ tbuf₀ i' g₀' hold hg₀' x hx
    · exact hapart x (halloc x hx) _ (.inl ⟨i', g₀', hg₀', rfl⟩)

/-- A thread buffer in use stays, unless its job is cleaned. -/
theorem JobContext.Holds.call {i handle : ℕ} {g₁ : GraphObject} {tbuf : ThreadBufferInfo}
    (h : s.Holds i handle g₁ tbuf) (hbusy : tbuf.isFree = false) (hg : s.getGraphObject id = some g)
    (hstep : graphObjectStep g c = some (g', bufs))
    (hs' : s'.graphs = adjust s.graphs id fun _ => g')
    (hclean : ∀ jobId job, i = id → c = .cleanJob jobId → g.getJobPtr jobId = some job →
      job.state ≠ .built → job.state ≠ .sched → job.bufHandle ≠ handle) :
    ∃ g₂, s'.Holds i handle g₂ tbuf ∧ g₂.areas tbuf = g₁.areas tbuf := by
  by_cases hi : i = id
  · subst hi
    obtain rfl := Option.some.inj (hg.symm.trans h.1)
    have hg' : s'.getGraphObject i = some g' := by
      rw [JobContext.getGraphObject_adjust hg hs', if_pos rfl]
    rcases graphObjectStep_busy hstep h.2 hbusy with
      htbuf | ⟨jobId, job, rfl, hjob, hhandle, hbuilt, hsched, -⟩
    · exact ⟨g', ⟨hg', htbuf⟩, (graphObjectStep_areas hstep h.2 htbuf).2⟩
    · exact absurd hhandle (hclean jobId job rfl rfl hjob hbuilt hsched)
  · refine ⟨g₁, ⟨?_, h.2⟩, rfl⟩
    rw [JobContext.getGraphObject_adjust hg hs', if_neg hi]
    exact h.1

end Call

/-! ## Every run -/

section Runs

variable {s s' : JobContext} {a : JobContextAction} {es : List JobContextEvent} {maxSchedNum : ℤ}
    {shmOffset : ℕ}

/-- A call keeps the thread buffer of a job in the kernel driver, unless it cleans it. -/
theorem JobContext.Carries.call {desc : UserJobDesc} {id : ℕ} {g g' : GraphObject} {c : GraphCall}
    {bufs : List BufferEvent} (h : s.Carries desc) (hg : s.getGraphObject id = some g)
    (hstep : graphObjectStep g c = some (g', bufs))
    (hs' : s'.graphs = adjust s.graphs id fun _ => g')
    (hclean : ∀ jobId job tbuf, c = .cleanJob jobId → g.getJobPtr jobId = some job →
      job.state ≠ .built →
      job.state ≠ .sched → g.getTbufPtr job.bufHandle = some tbuf →
        ¬g.Names desc tbuf) : s'.Carries desc := by
  obtain ⟨i, handle, g₁, tbuf, hholds, hbusy, hareas⟩ := h
  have hother : ∀ jobId job, i = id → c = .cleanJob jobId → g.getJobPtr jobId = some job →
      job.state ≠ .built →
      job.state ≠ .sched → job.bufHandle ≠ handle := by
    rintro jobId job rfl hc hjob hbuilt hsched rfl
    obtain rfl := Option.some.inj (hg.symm.trans hholds.1)
    exact hclean jobId job tbuf hc hjob hbuilt hsched hholds.2 (GraphObject.names_of_areas hareas)
  obtain ⟨g₂, hholds', hareas'⟩ := hholds.call hbusy hg hstep hs' hother
  exact ⟨i, handle, g₂, tbuf, hholds', hbusy, hareas.trans hareas'.symm⟩

/-- A thread buffer that an unfinished job names is in use. -/
theorem JobContext.RunningInv.busy (hinv : s.RunningInv maxSchedNum shmOffset) {id handle : ℕ}
    {g : GraphObject}
    {tbuf : ThreadBufferInfo} (hholds : s.Holds id handle g tbuf) {job : AipuJob}
    (hjob : job ∈ s.js.jm.jobs)
    (hstate : job.state ≠ .finished) (hnames : g.Names job.desc tbuf) : tbuf.isFree = false := by
  obtain ⟨i, handle', g', tbuf', hholds', hbusy, hareas⟩ := hinv.carried job hjob hstate
  obtain ⟨rfl, rfl⟩ := Prod.mk.inj (hinv.buffers.eq_of_names hholds' hareas hholds hnames)
  obtain rfl := Option.some.inj (hholds'.1.symm.trans hholds.1)
  obtain rfl := Option.some.inj (hholds'.2.symm.trans hholds.2)
  exact hbusy

/-- Before the first call there are no thread buffers and no jobs. -/
theorem jobContextSystem_init (hmax : 0 ≤ maxSchedNum)
    (h : (jobContextSystem maxSchedNum shmOffset).init s) :
    s.RunningInv maxSchedNum shmOffset := by
  obtain ⟨⟨idle, hjs⟩, hloaded⟩ := h
  have hgraph : ∀ id g, s.getGraphObject id = some g → g.LoadedSoundly shmOffset :=
    fun id g hg => hloaded _ (mem_of_lookup hg)
  have hempty : ∀ id handle g tbuf, ¬s.Holds id handle g tbuf := by
    rintro id handle g tbuf ⟨hg, htbuf⟩
    obtain ⟨ctrl, mem, graph, size, info, id', kernel, es, -, hload, -⟩ := hgraph id g hg
    have hloaded : g.Loaded := ⟨id', shmOffset, info, kernel, es, hload⟩
    rw [GraphObject.getTbufPtr, hloaded.empty.1] at htbuf
    cases htbuf
  refine ⟨⟨[], hjs ▸ .init hmax idle⟩, fun curr hcurr => ?_,
    ⟨fun id g hg => (hgraph id g hg).kept, ?_, ?_⟩, fun job hjob => ?_⟩
  · rw [hjs] at hcurr
    cases hcurr
  · exact fun id handle g tbuf _ _ _ _ hholds => absurd hholds (hempty id handle g tbuf)
  · exact fun id handle g tbuf _ _ hholds => absurd hholds (hempty id handle g tbuf)
  · rw [hjs] at hjob
    cases hjob

/-- Every step that meets the conditions keeps the invariant. -/
theorem JobContext.RunningInv.step (hinv : s.RunningInv maxSchedNum shmOffset)
    (hserved : s.ServedApart a)
    (hkeeps : s.KeepsRunning a) (hstep : jobContextStep s a = some (s', es)) :
    s'.RunningInv maxSchedNum shmOffset := by
  obtain ⟨tr, hqueues⟩ := hinv.queues
  rcases jobContextStep_cases hstep with ⟨id, c, g, g', bufs, rfl, hg, hcall, rfl, -⟩ |
    ⟨id, jobId, g, job, mem, sub, js, jes, hg, hjob, hdesc, hjm, rfl, -⟩ |
      ⟨ja, js, jes, hsubmit, hjm, rfl, -⟩
  · obtain ⟨hsound, hapart⟩ := hserved g hg
    refine ⟨⟨tr, hqueues⟩, hinv.bottomHalf,
      hinv.buffers.call hg hcall rfl hsound fun buf => hapart g' bufs buf hcall,
        fun kernJob hkern hstate => ?_⟩
    refine (hinv.carried kernJob hkern hstate).call hg hcall rfl
      fun jobId job tbuf hc hjob hbuilt hsched htbuf => ?_
    subst hc
    exact hkeeps g job tbuf hg hjob hbuilt hsched htbuf kernJob hkern hstate
  · have hcall : graphObjectStep g (.flushJob jobId true) =
        some ((g.flushJob jobId true).2, []) := rfl
    have hcarries : ∀ {desc : UserJobDesc}, s.Carries desc →
        JobContext.Carries ⟨adjust s.graphs id fun _ => (g.flushJob jobId true).2, js⟩ desc := by
      intro desc h
      exact h.call hg hcall rfl fun _ _ _ hc => by cases hc
    obtain ⟨hmoves, hbh⟩ := jmStep_moves hqueues hinv.bottomHalf hjm
    refine ⟨⟨_, hqueues.moves hmoves⟩, hbh,
      hinv.buffers.call hg hcall rfl trivial fun _ h => (by cases h),
      fun kernJob hkern hstate => ?_⟩
    rcases jmStep_evolves hqueues hinv.bottomHalf hjm kernJob hkern with
      ⟨old, hold, hev⟩ | ⟨_, _, heq, hev⟩
    · rw [hev.desc]
      exact hcarries (hinv.carried old hold (hev.not_finished hstate))
    · -- the job that is submitted has the configuration of a stored job
      obtain ⟨-, rfl⟩ := JmAction.submit.inj heq
      have hkept := hinv.buffers.kept id g hg
      obtain ⟨tbuf, htbuf, hbusy⟩ := hkept.exclusive.used jobId job hjob
      have hareas : kernJob.desc.areas = g.areas tbuf := by
        calc kernJob.desc.areas
          _ = sub.desc.areas := congrArg UserJobDesc.areas hev.desc
          _ = job.config.areas := by rw [hdesc]; rfl
          _ = g.areas tbuf := hkept.areas jobId job tbuf hjob htbuf
      exact hcarries ⟨id, job.bufHandle, g, tbuf, ⟨hg, htbuf⟩, hbusy, hareas⟩
  · obtain ⟨hmoves, hbh⟩ := jmStep_moves hqueues hinv.bottomHalf hjm
    refine ⟨⟨_, hqueues.moves hmoves⟩, hbh, hinv.buffers.of_graphs rfl,
      fun kernJob hkern hstate => ?_⟩
    rcases jmStep_evolves hqueues hinv.bottomHalf hjm kernJob hkern with
      ⟨old, hold, hev⟩ | ⟨_, _, rfl, -⟩
    · rw [hev.desc]
      exact hinv.carried old hold (hev.not_finished hstate)
    · cases hsubmit

/-- A call leaves the memory of a thread buffer in use alone. -/
theorem JobContext.BuffersInv.spares (hinv : s.BuffersInv shmOffset) {i handle id : ℕ}
    {g g₁ g' : GraphObject}
    {tbuf : ThreadBufferInfo} {c : GraphCall} {bufs : List BufferEvent}
    (hholds : s.Holds i handle g₁ tbuf)
    (hbusy : tbuf.isFree = false) (hg : s.getGraphObject id = some g)
    (hsound : SoundAnswers g c) (hcall : graphObjectStep g c = some (g', bufs))
    (hapart : ∀ buf, .allocated buf ∈ bufs → ∀ own, s.Mapped own → buf.Separate own)
    (hfit : ∀ handle addr tbuf, c = .buildNewJob handle addr → g.getTbufPtr handle = some tbuf →
      tbuf.isFree = true → g.OffsetsFit tbuf) :
    ∀ e ∈ (g.hostWrites c).map JobContextEvent.write ++ bufs.map JobContextEvent.buffer,
      e.Spares tbuf := by
  have hne : ∀ {handle' : ℕ} {free : ThreadBufferInfo}, g.getTbufPtr handle' = some free →
      free.isFree = true →
      (id, handle') ≠ (i, handle) := by
    rintro handle' free hget hfree heq
    obtain ⟨rfl, rfl⟩ := Prod.mk.inj heq
    obtain rfl := Option.some.inj (hg.symm.trans hholds.1)
    obtain rfl := Option.some.inj (hget.symm.trans hholds.2)
    rw [hbusy] at hfree
    cases hfree
  have hrodata : tbuf.rodata ∈ tbuf.bufs := List.mem_cons_self
  intro e he
  rcases List.mem_append.mp he with he | he
  · obtain ⟨w, hw, rfl⟩ := List.mem_map.mp he
    obtain ⟨handle', free, hget, hfree, hinside⟩ :=
      (hinv.kept id g hg).granted.hostWrites_inside hw hfit
    intro p hp hlt hown
    rcases hinside with hinside | hinside
    · have hseparate :=
        (hinv.separate id handle' g free i handle g₁ tbuf ⟨hg, hget⟩ hholds (hne hget hfree)
        free.rodata List.mem_cons_self tbuf.rodata hrodata).mapped
      have hbyte := hinside p hp hlt
      unfold RangesDisjoint at hseparate
      omega
    · have hseparate := (hinv.texts i handle g₁ tbuf id g hholds hg tbuf.rodata hrodata).mapped
      have hbyte := hinside p hp hlt
      unfold RangesDisjoint at hseparate
      omega
  · obtain ⟨b, hb, rfl⟩ := List.mem_map.mp he
    cases b with
    | allocated buf => trivial
    | lost desc => trivial
    | freed buf =>
      intro own hown
      rcases graphObjectStep_freed hsound hcall hb with halloc | ⟨handle', free, hget, hfree, hmem⟩
      · exact hapart buf halloc own (.inr ⟨i, handle, g₁, tbuf, hholds, hown⟩)
      · exact hinv.separate id handle' g free i handle g₁ tbuf ⟨hg, hget⟩ hholds
          (hne hget hfree) buf hmem own hown

/-- Every step that meets the conditions leaves the thread buffers of the scheduled jobs alone. -/
theorem JobContext.RunningInv.spares (hinv : s.RunningInv maxSchedNum shmOffset)
    (hserved : s.ServedApart a)
    (hkeeps : s.KeepsRunning a) (hstep : jobContextStep s a = some (s', es)) :
    s.SparesRunning s' es := by
  rintro i handle g₁ tbuf hholds ⟨kernJob, hkern, hsched, hnames⟩
  have hstate : kernJob.state ≠ .finished := by simp [hsched]
  have hbusy := hinv.busy hholds hkern hstate hnames
  have hjobs : ∀ {jes : List JmEvent}, ∀ e ∈ jes.map JobContextEvent.job, e.Spares tbuf := by
    intro jes e he
    obtain ⟨_, -, rfl⟩ := List.mem_map.mp he
    trivial
  rcases jobContextStep_cases hstep with ⟨id, c, g, g', bufs, rfl, hg, hcall, hs', rfl⟩ |
    ⟨id, jobId, g, job, mem, sub, js, jes, hg, -, -, -, hs', rfl⟩ | ⟨ja, js, jes, -, -, rfl, rfl⟩
  · obtain ⟨hsound, hapart⟩ := hserved g hg
    refine ⟨?_, hinv.buffers.spares hholds hbusy hg hsound hcall
      (fun buf => hapart g' bufs buf hcall) ?_⟩
    · have hother : ∀ jobId job, i = id → c = .cleanJob jobId → g.getJobPtr jobId = some job →
          job.state ≠ .built → job.state ≠ .sched → job.bufHandle ≠ handle := by
        rintro jobId job rfl rfl hjob hbuilt hnotSched rfl
        obtain rfl := Option.some.inj (hg.symm.trans hholds.1)
        exact hkeeps g job tbuf hg hjob hbuilt hnotSched hholds.2 kernJob hkern hstate hnames
      obtain ⟨g₂, hholds', -⟩ := hholds.call hbusy hg hcall (congrArg JobContext.graphs hs') hother
      exact ⟨g₂, tbuf, hholds', rfl⟩
    · rintro handle' addr free rfl hget hfree
      exact hkeeps g free ⟨hg, hget⟩ hfree ⟨kernJob, hkern, hsched⟩
  · have hcall : graphObjectStep g (.flushJob jobId true) =
        some ((g.flushJob jobId true).2, []) := rfl
    obtain ⟨g₂, hholds', -⟩ :=
      hholds.call hbusy hg hcall (congrArg JobContext.graphs hs') fun _ _ _ hc => by cases hc
    exact ⟨⟨g₂, tbuf, hholds', rfl⟩, hjobs⟩
  · exact ⟨⟨g₁, tbuf, hholds, rfl⟩, hjobs⟩

/-- **The thread buffers of running jobs.**  In every state that a context and a kernel driver
without logic reset reach by steps that meet the conditions, the thread buffer of each scheduled job
is in use, and the next such step leaves it alone. -/
theorem running_buffers_kept (hmax : 0 ≤ maxSchedNum) {tr : List JobContextEvent}
    (h : (jobContextSystem maxSchedNum shmOffset).Run
      (fun s a => s.ServedApart a ∧ s.KeepsRunning a) tr s) :
    s.RunningBusy ∧ ∀ a s' es, s.ServedApart a → s.KeepsRunning a →
      jobContextStep s a = some (s', es) →
      s.SparesRunning s' es := by
  have hinv : s.RunningInv maxSchedNum shmOffset :=
    h.stateInvariant (fun _ hs => jobContextSystem_init hmax hs) fun _ _ _ _ hI hC hst =>
      hI.step hC.1 hC.2 hst
  refine ⟨⟨fun job hjob hsched => ?_, ?_⟩,
    fun a s' es hserved hkeeps hst => hinv.spares hserved hkeeps hst⟩
  · obtain ⟨id, handle, g, tbuf, hholds, -, hareas⟩ := hinv.carried job hjob (by simp [hsched])
    exact ⟨id, handle, g, tbuf, hholds, hareas⟩
  · rintro id handle g tbuf hholds ⟨job, hjob, hsched, hnames⟩
    exact hinv.busy hholds hjob (by simp [hsched]) hnames

/-- A step that cleans the job of a scheduled job's thread buffer breaks the property at once. -/
theorem cleanJob_frees_running {id jobId : ℕ} {g : GraphObject} {job : JobDesc}
    {tbuf : ThreadBufferInfo}
    (hg : s.getGraphObject id = some g) (hjob : g.getJobPtr jobId = some job)
    (hbuilt : job.state ≠ .built)
    (hnotSched : job.state ≠ .sched) (htbuf : g.getTbufPtr job.bufHandle = some tbuf)
    (hruns : s.Runs g tbuf)
    (hstep : jobContextStep s (.call id (.cleanJob jobId)) = some (s', es)) : ¬s'.RunningBusy := by
  have hcleaned : (g.cleanJob jobId).2 = { g with
      tbufs := adjust g.tbufs job.bufHandle fun tbuf => { tbuf with isFree := true }
      sched := g.sched.erase jobId
      jobs := erase g.jobs job.id } := by
    unfold GraphObject.cleanJob
    rw [hjob]
    dsimp only
    split
    · exact absurd ‹_› hbuilt
    · exact absurd ‹_› hnotSched
    · rfl
  have hs' : s' = { s with graphs := adjust s.graphs id fun _ => (g.cleanJob jobId).2 } := by
    rw [jobContextStep, if_neg (by simp [GraphCall.submits]), JobContext.call, hg] at hstep
    exact (Prod.mk.inj (Option.some.inj hstep)).1.symm
  have hget : s'.getGraphObject id = some (g.cleanJob jobId).2 := by
    rw [JobContext.getGraphObject_adjust hg (congrArg JobContext.graphs hs'), if_pos rfl]
  have hfree : (g.cleanJob jobId).2.getTbufPtr job.bufHandle =
      some { tbuf with isFree := true } := by
    rw [GraphObject.getTbufPtr] at htbuf
    rw [hcleaned, GraphObject.getTbufPtr, lookup_adjust, htbuf, Option.map_some, if_pos rfl]
  obtain ⟨kernJob, hkern, hsched, hnames⟩ := hruns
  intro hbusy
  have hsame : (g.cleanJob jobId).2.Names kernJob.desc { tbuf with isFree := true } := by
    rw [hcleaned]
    exact hnames
  have hjobs : s'.js = s.js := by rw [hs']
  have htrue := hbusy.busy id job.bufHandle _ _ ⟨hget, hfree⟩
    ⟨kernJob, by rw [hjobs]; exact hkern, hsched, hsame⟩
  cases htrue

end Runs

/-! ## A sample -/

/-- A call that is not `alloc_thread_buffer`, or a step of the kernel driver. -/
def JobContextAction.asksNothing : JobContextAction → Bool
  | .call _ (.allocThreadBuffer _) => false
  | _ => true

/-- The kernel has nothing to grant. -/
theorem JobContext.servedApart_of_asksNothing {s : JobContext} {a : JobContextAction}
    (h : a.asksNothing = true) :
    s.ServedApart a := by
  cases a with
  | call id c =>
    intro g _
    refine ⟨?_, fun g' es buf hcall hbuf own _ => ?_⟩
    · cases c with
      | allocThreadBuffer => cases h
      | _ => trivial
    · rcases graphObjectStep_events hcall with ⟨kernel, ret, new, rfl, -⟩ | hfrees
      · cases h
      · obtain ⟨_, _, _, _, _, _, heq⟩ := hfrees _ hbuf
        cases heq
  | flushJob | kernel => trivial

/-- A context with the sample graph. -/
def sampleContext (g : GraphObject) : JobContext where
  graphs := [(1, g)]
  js := .initial 1 false []

/-- The sample has a thread buffer. -/
theorem sampleContext_run :
    ∃ tr, (jobContextSystem 1 0).Run (fun s a => s.ServedApart a ∧ s.KeepsRunning a) tr
    (sampleContext (allocatedObject 0 16 64)) := by
  have hinit : (jobContextSystem 1 0).init (sampleContext (sampleObject 0 16 64)) := by
    refine ⟨⟨[], rfl⟩, fun e he => ?_⟩
    obtain rfl := List.mem_singleton.mp he
    obtain ⟨es, hload⟩ := sampleObject_loaded 0 16 64
    exact ⟨sampleZhouyiV2, Memory.ofBytes 4096 (sampleFile 16 64), 4096, 220, _, 1, _, es,
      by decide +kernel, hload, grantAt_sound (by decide) (by decide)⟩
  obtain ⟨es, hes⟩ : ∃ es, es = [BufferEvent.allocated (sampleTbuf 16 64).stack,
      .allocated (sampleTbuf 16 64).rodata, .allocated (sampleTbuf 16 64).reuseGroup] := ⟨_, rfl⟩
  have hcall : graphObjectStep (sampleObject 0 16 64) (.allocThreadBuffer sampleMalloc) =
      some (allocatedObject 0 16 64, es) := by
    rw [hes]
    rfl
  have hstep : jobContextStep (sampleContext (sampleObject 0 16 64))
      (.call 1 (.allocThreadBuffer sampleMalloc)) =
      some (sampleContext (allocatedObject 0 16 64), es.map JobContextEvent.buffer) := by
    rw [hes]
    rfl
  have hgraph : ∀ id g, (sampleContext (sampleObject 0 16 64)).getGraphObject id = some g →
      g = sampleObject 0 16 64 :=
    fun id g hg => congrArg Prod.snd (List.mem_singleton.mp (mem_of_lookup hg))
  have hserved : (sampleContext (sampleObject 0 16 64)).ServedApart
      (.call 1 (.allocThreadBuffer sampleMalloc)) := by
    intro g hg
    rw [hgraph 1 g hg]
    refine ⟨⟨grantAt_sound (by decide) (by decide), grantAt_sound (by decide) (by decide),
      grantAt_sound (by decide) (by decide)⟩, fun g' es' buf hcall' hbuf own hown => ?_⟩
    -- the only buffer of the context is the text
    have htext : own = (sampleObject 0 16 64).pbuf.text := by
      rcases hown with ⟨id, g, hg, rfl⟩ | ⟨id, handle, g, tbuf, ⟨hg, htbuf⟩, -⟩
      · rw [hgraph id g hg]
      · rw [hgraph id g hg] at htbuf
        cases htbuf
    obtain ⟨-, rfl⟩ := Prod.mk.inj (Option.some.inj (hcall.symm.trans hcall'))
    rw [htext]
    rw [hes] at hbuf
    simp only [List.mem_cons, BufferEvent.allocated.injEq, List.not_mem_nil, or_false] at hbuf
    rcases hbuf with rfl | rfl | rfl
    all_goals exact ⟨.inr (by decide), .inr (by decide)⟩
  exact ⟨_, (System.Run.start hinit).next ⟨hserved, trivial⟩ hstep⟩

/-- A job is scheduled on the thread buffer of the sample. -/
theorem running_buffers_kept_sample : ∃ s : JobContext, (∃ job ∈ s.js.jm.jobs, job.state = .sched) ∧
    s.RunningBusy ∧ ∀ a s' es, s.ServedApart a → s.KeepsRunning a →
      jobContextStep s a = some (s', es) →
      s.SparesRunning s' es := by
  obtain ⟨tr, hrun⟩ := sampleContext_run
  obtain ⟨s₁, es₁, s₂, es₂, hbuild, hflush, hsched⟩ : ∃ s₁ es₁ s₂ es₂,
      jobContextStep (sampleContext (allocatedObject 0 16 64)) (.call 1 (.buildNewJob 0x10000 0)) =
      some (s₁, es₁) ∧
      jobContextStep s₁ (.flushJob 1 0x10000 ⟨fun _ => 0, fun _ => 0⟩ 7 0 0) = some (s₂, es₂) ∧
      ∃ job ∈ s₂.js.jm.jobs, job.state = .sched :=
    ⟨_, _, _, _, rfl, rfl, _, List.mem_singleton.mpr rfl, rfl⟩
  have hidle : (sampleContext (allocatedObject 0 16 64)).KeepsRunning
      (.call 1 (.buildNewJob 0x10000 0)) := by
    rintro g tbuf - - ⟨job, hjob, -⟩
    cases hjob
  have hbuilt := hrun.next ⟨JobContext.servedApart_of_asksNothing rfl, hidle⟩ hbuild
  have hsubmit : s₁.ServedApart (.flushJob 1 0x10000 ⟨fun _ => 0, fun _ => 0⟩ 7 0 0) ∧
      s₁.KeepsRunning (.flushJob 1 0x10000 ⟨fun _ => 0, fun _ => 0⟩ 7 0 0) := ⟨trivial, trivial⟩
  have hflushed := hbuilt.next hsubmit hflush
  exact ⟨s₂, hsched, running_buffers_kept (by decide) hflushed⟩

/-- A job runs too long: the wait for it ends, the kill only marks it, and it is cleaned while it is
scheduled.  The next job is built on its thread buffer, or the thread buffer is freed. -/
theorem running_buffers_reused :
    ∃ tr s g tbuf job, (jobContextSystem 1 0).Run JobContext.ServedApart tr s ∧
    job ∈ s.js.jm.jobs ∧ job.state = .sched ∧ s.Holds 1 0x10000 g tbuf ∧ g.Names job.desc tbuf ∧
    tbuf.isFree = true ∧
    (∃ s' es, jobContextStep s (.call 1 (.buildNewJob 0x10000 0)) = some (s', es) ∧
      .write (.load tbuf.rodata.va 4204 4) ∈ es) ∧
    (∃ s' es, jobContextStep s (.call 1 (.freeThreadBuffer 0x10000 [])) = some (s', es) ∧
      .buffer (.freed tbuf.rodata) ∈ es) ∧ ¬s.RunningBusy := by
  obtain ⟨tr, hrun⟩ := sampleContext_run
  obtain ⟨s, es, hexec, job, g, tbuf, hjob, hsched, hholds, hnames, hfree, hbuild, hfreed⟩ : ∃ s es,
      (jobContextSystem 1 0).exec (fun _ a => a.asksNothing = true)
        (sampleContext (allocatedObject 0 16 64))
        [.call 1 (.buildNewJob 0x10000 0), .flushJob 1 0x10000 ⟨fun _ => 0, fun _ => 0⟩ 7 0 0,
          .kernel (.kill ⟨fun _ => 0, fun _ => 0⟩ 7 0x10000),
            .call 1 (.waitForJobEnd false 0x10000 5 (some [])),
          .call 1 (.cleanJob 0x10000)] = some (s, es) ∧
      ∃ job g tbuf, job ∈ s.js.jm.jobs ∧ job.state = .sched ∧ s.Holds 1 0x10000 g tbuf ∧
        g.Names job.desc tbuf ∧
        tbuf.isFree = true ∧
        (∃ s' es, jobContextStep s (.call 1 (.buildNewJob 0x10000 0)) = some (s', es) ∧
          .write (.load tbuf.rodata.va 4204 4) ∈ es) ∧
        ∃ s' es, jobContextStep s (.call 1 (.freeThreadBuffer 0x10000 [])) = some (s', es) ∧
          .buffer (.freed tbuf.rodata) ∈ es :=
    ⟨_, _, rfl, _, _, _, List.mem_singleton.mpr rfl, rfl, ⟨rfl, rfl⟩,
      ⟨_, List.mem_cons_self, List.mem_cons_self⟩, rfl, ⟨_, _, rfl, List.mem_cons_self⟩, _, _, rfl,
        List.mem_cons_self⟩
  have hsteps : (jobContextSystem 1 0).Steps JobContext.ServedApart
      (sampleContext (allocatedObject 0 16 64)) es s :=
    (System.steps_of_exec hexec).mono fun _ _ => JobContext.servedApart_of_asksNothing
  refine ⟨_, s, g, tbuf, job, (hrun.mono fun _ _ hC => hC.1).steps hsteps, hjob, hsched, hholds,
    hnames, hfree, hbuild, hfreed, fun h => ?_⟩
  rw [h.busy 1 0x10000 g tbuf hholds ⟨job, hjob, hsched, hnames⟩] at hfree
  cases hfree

end Aipu
