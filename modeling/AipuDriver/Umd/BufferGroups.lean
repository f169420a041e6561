import AipuDriver.Umd.GraphObject

/-!
# Where the sections of a group are

`alloc_group_buffers` puts the sections of a group one after the other into one buffer.  The place
of a section in it depends on the sections alone (`groupOffset`); it is a word, and so is the number
of bytes that is asked for, so that a section need not end within the buffer.  `Grouped` says what
the call leaves behind when the kernel answers soundly.  Whatever is called after `load`, the
buffers of each thread buffer are those that the kernel has answered with
(`GraphObject.AllocatedBy.steps`).
-/

namespace Aipu

open KeyedList Transition UnusedId Word

/-! ## Layout -/

/-- The place of a section in the buffer of its group. -/
def groupOffset (sections : List SectionDesc) (i : ℕ) : Option ℕ :=
  match sections with
  | [] => none
  | first :: rest => (groupLayout 0 first rest).bind fun layout => layout.1[i]?

/-- An aligned address is a word. -/
theorem getAlignedAddr_lt {base alignInPage addr : ℕ}
    (h : getAlignedAddr base alignInPage = some addr) :
    addr < 2 ^ 32 := by
  obtain ⟨n, -, rfl⟩ := Option.map_eq_some_iff.mp h
  exact wrap_lt 32 _

/-- There is a place for each section, and it is a word. -/
theorem groupLayout_spec {offset totBytes : ℕ} {sec : SectionDesc} {rest : List SectionDesc}
    {offsets : List ℕ} (hoffset : offset < 2 ^ 32)
    (h : groupLayout offset sec rest = some (offsets, totBytes)) :
    offsets.length = (sec :: rest).length ∧ ∀ o ∈ offsets, o < 2 ^ 32 := by
  induction rest generalizing offset totBytes sec offsets with
  | nil =>
    obtain ⟨rfl, -⟩ := Prod.mk.inj (Option.some.inj h)
    exact ⟨rfl, by simpa using hoffset⟩
  | cons next rest ih =>
    obtain ⟨nextOffset, hnext, h⟩ := Option.bind_eq_some_iff.mp h
    obtain ⟨⟨nextOffsets, _⟩, hrest, h⟩ := Option.bind_eq_some_iff.mp h
    obtain ⟨rfl, -⟩ := Prod.mk.inj (Option.some.inj h)
    obtain ⟨hlength, hwords⟩ := ih (getAlignedAddr_lt hnext) hrest
    refine ⟨by rw [List.length_cons, hlength]; rfl, fun o ho => ?_⟩
    rcases List.mem_cons.mp ho with rfl | ho
    · exact hoffset
    · exact hwords o ho

/-! ## Sound answers -/

/-- The kernel grants at least what is asked for, within the physical addresses, and `mmap` maps it
into the lower half of the addresses; and it refuses with an error code only. -/
structure KernelMalloc.Sound (kernel : KernelMalloc) : Prop where
  tells : kernel.TellsErrors
  large : ∀ req desc ptr hbytes hptr, kernel req = .mapped desc ptr hbytes hptr →
    req.bytes ≤ desc.bytes
  physical : ∀ req desc ptr hbytes hptr, kernel req = .mapped desc ptr hbytes hptr →
    desc.pa + desc.bytes ≤ 2 ^ 64
  mapped : ∀ req desc ptr hbytes hptr, kernel req = .mapped desc ptr hbytes hptr →
    ptr + desc.bytes ≤ 2 ^ 63

/-- What the sample of answers grants. -/
theorem grantAt_cases {pa va : ℕ} {req : BufRequest} {desc : BufDesc} {ptr : ℕ}
    {hbytes : desc.bytes ≠ 0} {hptr : ptr ≠ 0}
    (h : grantAt pa va req = .mapped desc ptr hbytes hptr) :
    req.bytes ≤ desc.bytes ∧ desc.pa = pa ∧ desc.bytes = 4096 ∧ ptr = va := by
  unfold grantAt at h
  split_ifs at h with hsmall
  obtain ⟨rfl, rfl⟩ := MallocAnswer.mapped.inj h
  exact ⟨hsmall.1, rfl, rfl, rfl⟩

/-- The answers of a sample are sound. -/
theorem grantAt_sound {pa va : ℕ} (hpa : pa ≤ 2 ^ 63) (hva : va ≤ 2 ^ 62) :
    (grantAt pa va).Sound := by
  refine ⟨fun req granted h => ?_, ?_, ?_, ?_⟩
  · unfold grantAt at h
    split_ifs at h
  all_goals
    intro req desc ptr hbytes hptr h
    obtain ⟨hlarge, hdesc, hsize, hplace⟩ := grantAt_cases h
    omega

/-- A buffer is within the physical addresses, and within the lower half of the virtual ones. -/
structure BufferDesc.Within (buf : BufferDesc) : Prop where
  physical : buf.pa + buf.size ≤ 2 ^ 64
  mapped : buf.va + buf.size ≤ 2 ^ 63

/-- A buffer that was granted. -/
theorem mallocBuf_ok {kernel : KernelMalloc} (hsound : kernel.Sound) {dtype size align regionId : ℕ}
    {old buf : BufferDesc} {es : List BufferEvent}
    (h : mallocBuf kernel dtype size align regionId old = (.ok buf, es)) :
    0 < size ∧ size ≤ buf.size ∧ buf.Within := by
  obtain ⟨hpos, -, desc, ptr, hbytes, hptr, hgrant, rfl⟩ := hsound.tells.mallocBuf_granted h
  exact ⟨hpos, hsound.large _ _ _ _ _ hgrant, hsound.physical _ _ _ _ _ hgrant,
    hsound.mapped _ _ _ _ _ hgrant⟩

/-! ## Groups -/

/-- The buffers are those of the sections, in their places in the buffer of the group. -/
structure Grouped (sections : List SectionDesc) (bufs : List BufferDesc)
    (group : BufferDesc) : Prop where
  child : ∀ (i : ℕ) (sec : SectionDesc), sections[i]? = some sec → ∃ offset < 2 ^ 32,
    groupOffset sections i = some offset ∧ bufs[i]? = some (childBuf group sec offset)
  outside : ∀ i : ℕ, sections[i]? = none → bufs[i]? = none
  pos : sections ≠ [] → 0 < group.size
  within : sections ≠ [] → group.Within

/-- What `alloc_group_buffers` asks the kernel for, and what it makes of the buffer. -/
theorem allocGroupBuffers_cases {kernel : KernelMalloc} {sections : List SectionDesc} {dtype : ℕ}
    {bufs : List BufferDesc} {garbage old group : BufferDesc} {es : List BufferEvent}
    (h : allocGroupBuffers kernel sections dtype garbage old = some (.ok (bufs, group), es)) :
    (sections = [] ∧ bufs = [] ∧ group = old ∧ es = []) ∨ ∃ first rest offsets totBytes,
      sections = first :: rest ∧ groupLayout 0 first rest = some (offsets, totBytes) ∧
      mallocBuf kernel dtype totBytes first.alignInPage.toNat 0 garbage = (.ok group, es) ∧
      bufs = List.zipWith (childBuf group) sections offsets := by
  unfold allocGroupBuffers at h
  split at h
  · obtain ⟨heq, rfl⟩ := Prod.mk.inj (Option.some.inj h)
    obtain ⟨rfl, rfl⟩ := Prod.mk.inj (Except.ok.inj heq)
    exact .inl ⟨rfl, rfl, rfl, rfl⟩
  next first rest =>
    obtain ⟨⟨offsets, totBytes⟩, hlayout, h⟩ := Option.map_eq_some_iff.mp h
    dsimp only at h
    split at h
    · cases h
    next groupBuf es' hbuf =>
      obtain ⟨heq, rfl⟩ := Prod.mk.inj h
      obtain ⟨rfl, rfl⟩ := Prod.mk.inj (Except.ok.inj heq)
      exact .inr ⟨first, rest, offsets, totBytes, rfl, hlayout, hbuf, rfl⟩

/-- What `alloc_group_buffers` leaves behind. -/
theorem allocGroupBuffers_ok {kernel : KernelMalloc} (hsound : kernel.Sound)
    {sections : List SectionDesc} {dtype : ℕ} {bufs : List BufferDesc}
    {garbage old group : BufferDesc} {es : List BufferEvent}
    (h : allocGroupBuffers kernel sections dtype garbage old = some (.ok (bufs, group), es)) :
    Grouped sections bufs group := by
  rcases allocGroupBuffers_cases h with
    ⟨rfl, rfl, rfl, -⟩ | ⟨first, rest, offsets, totBytes, rfl, hlayout, hbuf, rfl⟩
  · exact ⟨by simp, by simp, by simp, by simp⟩
  · obtain ⟨hlength, hwords⟩ := groupLayout_spec (by decide) hlayout
    have hplace : ∀ i, groupOffset (first :: rest) i = offsets[i]? := by
      intro i
      rw [groupOffset, hlayout]
      rfl
    obtain ⟨hpos, hlarge, hwithin⟩ := mallocBuf_ok hsound hbuf
    refine ⟨fun i sec hsec => ?_, fun i hnone => ?_, fun _ => hpos.trans_le hlarge,
      fun _ => hwithin⟩
    · have hi : i < offsets.length := by
        rw [hlength]
        exact (List.getElem?_eq_some_iff.mp hsec).1
      have hoffset : offsets[i]? = some offsets[i] := List.getElem?_eq_getElem hi
      refine ⟨offsets[i], hwords _ (List.getElem_mem hi), by rw [hplace, hoffset], ?_⟩
      rw [List.getElem?_zipWith, hsec, hoffset]
    · rw [List.getElem?_zipWith, hnone]

/-- What `alloc_group_buffers` reports when the kernel tells its errors. -/
theorem allocGroupBuffers_events {kernel : KernelMalloc} (hkernel : kernel.TellsErrors)
    {sections : List SectionDesc} {dtype : ℕ} {bufs : List BufferDesc}
    {garbage old group : BufferDesc} {es : List BufferEvent}
    (h : allocGroupBuffers kernel sections dtype garbage old = some (.ok (bufs, group), es))
    (hsections : sections ≠ []) : es = [.allocated group] := by
  rcases allocGroupBuffers_cases h with ⟨hnone, -⟩ | ⟨_, _, _, _, -, -, hbuf, -⟩
  · exact absurd hnone hsections
  · exact (hkernel.mallocBuf_granted hbuf).2.1

/-! ## The buffers of a graph -/

/-- Each thread buffer was allocated with answers as described. -/
def GraphObject.AllocatedBy (P : ThreadBufferMalloc → Prop) (g : GraphObject) : Prop :=
  ∀ handle tbuf, g.getTbufPtr handle = some tbuf → ∃ kernel es₁ es₂ es₃,
    P kernel ∧ tbuf.Allocated kernel g.pbuf.text.regionId g.info es₁ es₂ es₃

/-- The answers to the requests of `alloc_thread_buffer` are as described. -/
def AnswersBy (P : ThreadBufferMalloc → Prop) (_ : GraphObject) : GraphCall → Prop
  | .allocThreadBuffer kernel => P kernel
  | _ => True

/-- The kernel answers soundly. -/
def ThreadBufferMalloc.Sound (kernel : ThreadBufferMalloc) : Prop :=
  kernel.stack.Sound ∧ kernel.rodata.Sound ∧ kernel.reuse.Sound

/-- The kernel answers soundly. -/
abbrev SoundAnswers := AnswersBy ThreadBufferMalloc.Sound

/-- The kernel answers soundly to the requests for rodata, which ask for an alignment of a page. -/
abbrev SoundRodata := AnswersBy fun kernel => kernel.rodata.Sound

/-- The kernel answers soundly to the requests for reuse groups. -/
abbrev SoundReuse := AnswersBy fun kernel => kernel.reuse.Sound

/-- The graph is the same one, and its thread buffers are among those that it had, in use or not. -/
structure GraphObject.KeepsPlaces (g g' : GraphObject) : Prop where
  info : g'.info = g.info
  shmOffset : g'.shmOffset = g.shmOffset
  pbuf : g'.pbuf = g.pbuf
  tbufs : ∀ handle tbuf', g'.getTbufPtr handle = some tbuf' →
    ∃ tbuf, g.getTbufPtr handle = some tbuf ∧ tbuf' = { tbuf with isFree := tbuf'.isFree }

section Places

variable {g g' : GraphObject} {tr es : List BufferEvent}

/-- Nothing has changed. -/
theorem GraphObject.KeepsPlaces.refl (g : GraphObject) : g.KeepsPlaces g :=
  ⟨rfl, rfl, rfl, fun _ tbuf htbuf => ⟨tbuf, htbuf, rfl⟩⟩

/-- Only states of jobs have changed. -/
theorem GraphObject.SetsStates.keepsPlaces (h : g.SetsStates g') : g.KeepsPlaces g' := by
  refine ⟨h.info, h.shmOffset, h.pbuf, fun handle tbuf htbuf => ⟨tbuf, ?_, rfl⟩⟩
  rwa [GraphObject.getTbufPtr, h.tbufs] at htbuf

/-- The flag of one thread buffer has changed. -/
theorem GraphObject.KeepsPlaces.of_adjust {handle : ℕ} {isFree : Bool} (hinfo : g'.info = g.info)
    (hshm : g'.shmOffset = g.shmOffset) (hpbuf : g'.pbuf = g.pbuf)
    (htbufs : g'.tbufs = adjust g.tbufs handle fun tbuf => { tbuf with isFree := isFree }) :
    g.KeepsPlaces g' := by
  refine ⟨hinfo, hshm, hpbuf, fun i tbuf' htbuf' => ?_⟩
  rw [GraphObject.getTbufPtr, htbufs, lookup_adjust] at htbuf'
  obtain ⟨tbuf, htbuf, rfl⟩ := Option.map_eq_some_iff.mp htbuf'
  refine ⟨tbuf, htbuf, ?_⟩
  split <;> rfl

/-- A call keeps the graph and its thread buffers, or it is `alloc_thread_buffer`. -/
theorem graphObjectStep_places {a : GraphCall} (h : graphObjectStep g a = some (g', es)) :
    g.KeepsPlaces g' ∨ ∃ kernel ret new, a = .allocThreadBuffer kernel ∧
      g.allocThreadBuffer kernel = some (ret, g', new, es) := by
  cases a with
  | allocThreadBuffer kernel =>
    obtain ⟨⟨ret, g₁, new, es₁⟩, hcall, heq⟩ := Option.map_eq_some_iff.mp h
    obtain ⟨rfl, rfl⟩ := Prod.mk.inj heq
    exact .inr ⟨kernel, ret, new, rfl, hcall⟩
  | freeThreadBuffer handle oks =>
    have hg' : (g.freeThreadBuffer handle oks).2.1 = g' := congrArg Prod.fst (Option.some.inj h)
    rcases g.freeThreadBuffer_cases handle oks with heq | ⟨tbuf, -, -, heq⟩
    · rw [← hg', heq]
      exact .inl (.refl g)
    · rw [← hg', heq]
      refine .inl ⟨rfl, rfl, rfl, fun i tbuf' htbuf' => ⟨tbuf', ?_, rfl⟩⟩
      rw [GraphObject.getTbufPtr, lookup_erase] at htbuf'
      split_ifs at htbuf'
      exact htbuf'
  | buildNewJob handle addr =>
    obtain ⟨⟨ret, g₁, new, writes⟩, hcall, heq⟩ := Option.map_eq_some_iff.mp h
    obtain ⟨rfl, rfl⟩ := Prod.mk.inj heq
    rcases GraphObject.buildNewJob_cases hcall with ⟨rfl, -⟩ | ⟨tbuf, g₂, -, -, rfl, hg₁⟩
    · exact .inl (.refl _)
    · rcases hg₁ with ⟨rfl, -⟩ | ⟨job, -, -, -, -, -, rfl⟩
      · exact .inl (.of_adjust rfl rfl rfl rfl)
      · exact .inl (.of_adjust rfl rfl rfl rfl)
  | flushJob jobId accepted =>
    obtain ⟨rfl, rfl⟩ := Prod.mk.inj (Option.some.inj h)
    exact .inl (g.flushJob_marks jobId accepted).setsStates.keepsPlaces
  | waitForJobEnd pollOpt jobId timeOut reply =>
    obtain ⟨⟨ret, g₁⟩, hcall, heq⟩ := Option.map_eq_some_iff.mp h
    obtain ⟨rfl, rfl⟩ := Prod.mk.inj heq
    exact .inl (GraphObject.waitForJobEnd_marks hcall).setsStates.keepsPlaces
  | pollJobStatus reply =>
    obtain ⟨rfl, rfl⟩ := Prod.mk.inj (Option.some.inj h)
    exact .inl (g.pollJobStatus_marks reply).setsStates.keepsPlaces
  | cleanJob jobId =>
    obtain ⟨rfl, rfl⟩ := Prod.mk.inj (Option.some.inj h)
    rcases g.cleanJob_cases jobId with heq | ⟨job, -, -, -, heq⟩
    · rw [heq]
      exact .inl (.refl g)
    · rw [heq]
      exact .inl (.of_adjust rfl rfl rfl rfl)

/-- The thread buffer that `alloc_thread_buffer` returns was allocated in the call. -/
theorem GraphObject.allocThreadBuffer_new {kernel : ThreadBufferMalloc} {ret : AipuStatus}
    {handle : ℕ} {tbuf : ThreadBufferInfo}
    (h : g.allocThreadBuffer kernel = some (ret, g', some handle, es))
    (htbuf : g'.getTbufPtr handle = some tbuf) :
    g'.info = g.info ∧ ∃ es₁ es₂ es₃,
      tbuf.Allocated kernel g.pbuf.text.regionId g.info es₁ es₂ es₃ ∧ es = es₁ ++ es₂ ++ es₃ := by
  rcases GraphObject.allocThreadBuffer_cases h with
    ⟨-, hnone⟩ | ⟨new, -, hnew, -, -, rfl, hallocated⟩
  · cases hnone
  · obtain rfl := Option.some.inj hnew
    rw [GraphObject.getTbufPtr, lookup_insert, if_pos rfl] at htbuf
    obtain rfl := Option.some.inj htbuf
    exact ⟨rfl, hallocated⟩

/-- The calls after `load` do not change the graph that was loaded. -/
theorem graphObjectSystem_loaded {C : GraphObject → GraphCall → Prop}
    (hsteps : graphObjectSystem.Steps C g tr g') :
    g'.info = g.info ∧ g'.shmOffset = g.shmOffset ∧ g'.pbuf = g.pbuf := by
  induction hsteps with
  | refl => exact ⟨rfl, rfl, rfl⟩
  | tail _ _ hstep ih =>
    rcases graphObjectStep_places hstep with hkeep | ⟨kernel, ret, new, rfl, hcall⟩
    · rw [hkeep.info, hkeep.shmOffset, hkeep.pbuf]
      exact ih
    · rcases GraphObject.allocThreadBuffer_cases hcall with ⟨rfl, -⟩ | ⟨tbuf, -, -, -, -, rfl, -⟩
      · exact ih
      · exact ih

/-- A graph that has just been loaded has no thread buffers. -/
theorem GraphObject.Loaded.allocatedBy (P : ThreadBufferMalloc → Prop) (h : g.Loaded) :
    g.AllocatedBy P := by
  intro handle tbuf htbuf
  rw [GraphObject.getTbufPtr, h.empty.1] at htbuf
  cases htbuf

/-- All calls after `load` keep the thread buffers as they were allocated. -/
theorem GraphObject.AllocatedBy.steps {P : ThreadBufferMalloc → Prop} (h : g.AllocatedBy P)
    (hsteps : graphObjectSystem.Steps (AnswersBy P) g tr g') : g'.AllocatedBy P := by
  induction hsteps with
  | refl => exact h
  | tail _ hanswers hstep ih =>
    rename_i g₁ a g₂ es₁ hprev
    intro handle tbuf' htbuf'
    rcases graphObjectStep_places hstep with hkeep | ⟨kernel, ret, new, rfl, hcall⟩
    · obtain ⟨tbuf, htbuf, heq⟩ := hkeep.tbufs handle tbuf' htbuf'
      obtain ⟨kernel, es₁, es₂, es₃, hkernel, halloc⟩ := ih handle tbuf htbuf
      rw [hkeep.info, hkeep.pbuf, heq]
      exact ⟨kernel, es₁, es₂, es₃, hkernel, halloc.stack, halloc.rodata, halloc.reuse,
        halloc.tensors⟩
    · rcases GraphObject.allocThreadBuffer_cases hcall with
        ⟨rfl, -⟩ | ⟨tbuf, -, -, -, -, rfl, es₁, es₂, es₃, halloc, -⟩
      · exact ih handle tbuf' htbuf'
      · rw [GraphObject.getTbufPtr, lookup_insert] at htbuf'
        split_ifs at htbuf'
        · obtain rfl := Option.some.inj htbuf'
          exact ⟨kernel, es₁, es₂, es₃, hanswers, halloc⟩
        · exact ih handle tbuf' htbuf'

/-- The reuse group of a thread buffer, when the requests for groups are answered soundly. -/
theorem GraphObject.AllocatedBy.reuse (h : g.AllocatedBy fun kernel => kernel.reuse.Sound)
    {handle : ℕ} {tbuf : ThreadBufferInfo} (htbuf : g.getTbufPtr handle = some tbuf) :
    Grouped g.info.tbufTempl.reuseSections tbuf.reuseBuf tbuf.reuseGroup := by
  obtain ⟨kernel, es₁, es₂, es₃, hsound, halloc⟩ := h handle tbuf htbuf
  exact allocGroupBuffers_ok hsound halloc.reuse

/-- The tensors of a thread buffer are those of its reuse sections. -/
theorem GraphObject.AllocatedBy.tensors {P : ThreadBufferMalloc → Prop} (h : g.AllocatedBy P)
    {handle : ℕ} {tbuf : ThreadBufferInfo} (htbuf : g.getTbufPtr handle = some tbuf) :
    createIobufInfos tbuf.reuseBuf g.info = some tbuf.iobuf := by
  obtain ⟨kernel, es₁, es₂, es₃, -, halloc⟩ := h handle tbuf htbuf
  exact halloc.tensors

/-- The text of a graph is mapped, and each thread buffer was allocated with answers as
described. -/
structure GraphObject.GrantedBy (P : ThreadBufferMalloc → Prop) (g : GraphObject) : Prop where
  text : g.pbuf.text.Within
  tbufs : g.AllocatedBy P

/-- A text that was granted is large enough. -/
theorem allocTextBuffer_ok {kernel : KernelMalloc} (hsound : kernel.Sound)
    {templ : PbufAllocTempl} {old text : BufferDesc}
    (h : allocTextBuffer kernel templ old = (.ok text, es)) :
    templ.textSize.toNat ≤ text.size ∧ text.Within ∧ es = [.allocated text] := by
  unfold allocTextBuffer at h
  split_ifs at h
  · cases h
  · obtain ⟨-, hlarge, hwithin⟩ := mallocBuf_ok hsound h
    exact ⟨hlarge, hwithin, (hsound.tells.mallocBuf_granted h).2.1⟩

/-- `load` asks for the text. -/
theorem GraphObject.load_grantedBy {id shmOffset : ℕ} {info : GraphInfo} {kernel : LoadMalloc}
    (P : ThreadBufferMalloc → Prop) (htext : kernel.text.Sound)
    (h : GraphObject.load id shmOffset info kernel = some (.success, g, es)) : g.GrantedBy P := by
  have hloaded : g.Loaded := ⟨id, shmOffset, info, kernel, es, h⟩
  obtain ⟨textBuf, es₁, _, _, _, htextBuf, -, -, rfl, -⟩ := GraphObject.load_cases h
  exact ⟨(allocTextBuffer_ok htext htextBuf).2.1, hloaded.allocatedBy P⟩

/-- `load` puts the sections of the file into the static group. -/
theorem GraphObject.load_static {id shmOffset : ℕ} {info : GraphInfo} {kernel : LoadMalloc}
    (hstatic : kernel.static.Sound)
    (h : GraphObject.load id shmOffset info kernel = some (.success, g, es)) :
    Grouped g.info.pbufTempl.staticSections g.pbuf.staticBuf g.pbuf.staticGroup := by
  obtain ⟨_, _, _, _, _, -, -, hgroup, rfl, -⟩ := GraphObject.load_cases h
  exact allocGroupBuffers_ok hstatic hgroup

/-- The graph is that of the file, on a board with the offset. -/
theorem GraphObject.load_info {id shmOffset : ℕ} {info : GraphInfo} {kernel : LoadMalloc}
    (h : GraphObject.load id shmOffset info kernel = some (.success, g, es)) :
    g.info = info ∧ g.shmOffset = shmOffset := by
  obtain ⟨_, _, _, _, _, -, -, -, rfl, -⟩ := GraphObject.load_cases h
  exact ⟨rfl, rfl⟩

/-- All calls after `load` keep the buffers as they were granted. -/
theorem GraphObject.GrantedBy.steps {P : ThreadBufferMalloc → Prop} (h : g.GrantedBy P)
    (hsteps : graphObjectSystem.Steps (AnswersBy P) g tr g') : g'.GrantedBy P := by
  refine ⟨?_, h.tbufs.steps hsteps⟩
  rw [(graphObjectSystem_loaded hsteps).2.2]
  exact h.text

/-- Answers that are as described are also as described by what follows from it. -/
theorem GraphObject.GrantedBy.mono {P Q : ThreadBufferMalloc → Prop} (h : g.GrantedBy P)
    (hPQ : ∀ kernel, P kernel → Q kernel) : g.GrantedBy Q := by
  refine ⟨h.text, fun handle tbuf htbuf => ?_⟩
  obtain ⟨kernel, es₁, es₂, es₃, hkernel, halloc⟩ := h.tbufs handle tbuf htbuf
  exact ⟨kernel, es₁, es₂, es₃, hPQ kernel hkernel, halloc⟩

/-- Steps with sound answers are steps with sound answers to some of the requests. -/
theorem AnswersBy.mono {P Q : ThreadBufferMalloc → Prop} (hPQ : ∀ kernel, P kernel → Q kernel)
    (hsteps : graphObjectSystem.Steps (AnswersBy P) g tr g') :
    graphObjectSystem.Steps (AnswersBy Q) g tr g' := by
  refine hsteps.mono fun g c hanswers => ?_
  cases c with
  | allocThreadBuffer kernel => exact hPQ kernel hanswers
  | _ => trivial

end Places

end Aipu
