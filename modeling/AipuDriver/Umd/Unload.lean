import AipuDriver.Umd.BufferGroups

/-!
# Unloading a graph

`unload` looks only at the states of the jobs before it begins.  It then deletes the jobs, frees the
text and the static group, and calls `free_thread_buffer` in a loop over the thread buffers; it
returns at the first error.  A thread buffer whose job has ended but was not cleaned is still in use
and stops the loop, when the text and the static group are gone.  And `free_thread_buffer` erases
the element at which the iterator of the loop stands, so that the increment after it is not defined.
All or nothing is what remains when there are no thread buffers (`unload_whole_iff`).

The ARM build is modelled.  `unload` is `none` where what it does is not defined.
-/

namespace Aipu

open KeyedList Transition

/-! ## The call -/

/-- `is_unload_ok` -/
def GraphObject.isUnloadOk (g : GraphObject) : Bool :=
  g.jobs.all fun (_, job) => job.state = .done ∨ job.state = .exception

/-- The jobs are deleted, and what `unload` clears beside them. -/
def GraphObject.clearJobs (g : GraphObject) : GraphObject :=
  { g with
    jobs := []
    info := { g.info with
      paramMap := [], inputs := [], outputs := [], interDumps := [], plogData := [] } }

/-- The text is freed, and its address is cleared. -/
def GraphObject.unloadText (g : GraphObject) (oks : Oracle) :
    AipuStatus × GraphObject × List BufferEvent × Oracle :=
  if g.pbuf.text.va = 0 then (.success, g, [], oks)
  else match freeBuf g.pbuf.text oks.next.1 with
    | .success =>
      (.success, { g with
        pbuf := { g.pbuf with text := { g.pbuf.text with va := 0, pa := 0, size := 0 } } },
        [.freed g.pbuf.text], oks.next.2)
    | e => (e, g, [], oks.next.2)

/-- The static group is freed; its address stays. -/
def GraphObject.unloadStatic (g : GraphObject) (oks : Oracle) :
    AipuStatus × GraphObject × List BufferEvent × Oracle :=
  let cleared := { g with pbuf := { g.pbuf with staticBuf := [] } }
  if g.pbuf.staticGroup.va = 0 then (.success, cleared, [], oks)
  else match freeBuf g.pbuf.staticGroup oks.next.1 with
    | .success => (.success, cleared, [.freed g.pbuf.staticGroup], oks.next.2)
    | e => (e, g, [], oks.next.2)

/-- The loop over the thread buffers, from the least handle on.  It does not come to a second
buffer: it ends with an error, or it increments an iterator whose element was erased. -/
def GraphObject.unloadTbufs (g : GraphObject) (oks : Oracle) :
    Option (AipuStatus × GraphObject × List BufferEvent) :=
  match (g.tbufs.map Prod.fst).min? with
  | none => some (.success, g, [])
  | some handle =>
    match g.freeThreadBuffer handle oks with
    | (.success, _) => none
    | (e, g, es) => some (e, g, es)

/-- `unload`, with the answers of the kernel to FREEBUF. -/
def GraphObject.unload (g : GraphObject) (oks : Oracle) :
    Option (AipuStatus × GraphObject × List BufferEvent) :=
  if g.isUnloadOk then
    match g.clearJobs.unloadText oks with
    | (.success, g, textEvents, oks) =>
      match g.unloadStatic oks with
      | (.success, g, staticEvents, oks) =>
        (g.unloadTbufs oks).map fun (ret, g, es) => (ret, g, textEvents ++ staticEvents ++ es)
      | (e, g, staticEvents, _) => some (e, g, textEvents ++ staticEvents)
    | (e, g, textEvents, _) => some (e, g, textEvents)
  else some (.errorInvalidOp, g, [])

/-! ## The property -/

/-- The buffers that the kernel has granted to the graph. -/
def GraphObject.kernelBufs (g : GraphObject) : List BufferDesc :=
  (g.pbuf.text :: g.pbuf.staticGroup :: g.tbufs.flatMap fun (_, tbuf) => tbuf.bufs).filter
    (·.size ≠ 0)

/-- `unload` is defined.  When it may begin and the kernel frees what it is asked to, it succeeds
and frees each buffer of the graph once; when it returns an error, it has left jobs and buffers
alone. -/
def GraphObject.UnloadsWhole (g : GraphObject) (oks : Oracle) : Prop :=
  ∃ ret g' es, g.unload oks = some (ret, g', es) ∧
    (g.isUnloadOk = true → (∀ ok ∈ oks, ok = true) →
      ret = .success ∧ es.Perm (g.kernelBufs.map BufferEvent.freed)) ∧
    (ret ≠ .success → g'.jobs = g.jobs ∧ g'.tbufs = g.tbufs ∧ g'.pbuf = g.pbuf ∧ es = [])

/-- `unload` refuses to begin; or there are no jobs, and the text cannot be freed; or the text and
the static group can be freed, and there are no thread buffers. -/
def GraphObject.UnloadSafe (g : GraphObject) (oks : Oracle) : Prop :=
  g.isUnloadOk = false ∨ (g.jobs = [] ∧ oks.next.1 = false) ∨
    (oks.next.1 = true ∧ (g.pbuf.staticGroup.va = 0 ∨ oks.next.2.next.1 = true) ∧ g.tbufs = [])

instance unloadSafeDecidable (g : GraphObject) (oks : Oracle) : Decidable (g.UnloadSafe oks) := by
  unfold GraphObject.UnloadSafe
  infer_instance

/-! ## Runs with attempts to unload -/

/-- A call on the graph, or an attempt to unload it. -/
inductive GraphLifeCall
  | call (c : GraphCall)
  | unload (oks : Oracle)

/-- One call; a graph that was unloaded is deleted. -/
def graphLifeStep (g : GraphObject) : GraphLifeCall → Option (GraphObject × List BufferEvent)
  | .call c => graphObjectStep g c
  | .unload oks => (g.unload oks).bind fun (ret, g, es) => if ret = .success then none
    else some (g, es)

/-- The graph has just been loaded.  What `load` takes for the static group when it was refused
without an error code is no buffer or has an address and a size. -/
def GraphObject.SoundlyLoaded (g : GraphObject) : Prop :=
  ∃ id shmOffset info kernel es, (kernel.garbage.va = 0 ↔ kernel.garbage.size = 0) ∧
    GraphObject.load id shmOffset info kernel = some (.success, g, es)

/-- The calls on a graph, from its loading to its unloading. -/
def graphLifeSystem : System GraphObject GraphLifeCall BufferEvent where
  init g := g.SoundlyLoaded
  step := graphLifeStep

/-- All calls, but only attempts to unload that are safe. -/
def UnloadsSafely (g : GraphObject) : GraphLifeCall → Prop
  | .call _ => True
  | .unload oks => g.UnloadSafe oks

instance unloadsSafelyDecidable : DecidableRel UnloadsSafely :=
  fun g a => by rcases a <;> unfold UnloadsSafely <;> infer_instance

/-! ## What is freed -/

/-- The text is there, and the static group has an address iff it has a size. -/
structure GraphObject.Backed (g : GraphObject) : Prop where
  text_va : g.pbuf.text.va ≠ 0
  text_size : g.pbuf.text.size ≠ 0
  static : g.pbuf.staticGroup.va = 0 ↔ g.pbuf.staticGroup.size = 0

section Unload

variable {g g' : GraphObject} {oks : Oracle}

/-- A buffer is freed when the kernel frees it. -/
theorem freeBuf_of_size {buf : BufferDesc} (hsize : buf.size ≠ 0) (ok : Bool) :
    freeBuf buf ok = if ok then .success else .errorBufFreeFail := by
  rw [freeBuf, if_neg hsize]

/-- A graph that was loaded has buffers behind it, when a refusal is told or leaves a static group
that is one or none. -/
theorem GraphObject.load_backed {id shmOffset : ℕ} {info : GraphInfo} {kernel : LoadMalloc}
    {es : List BufferEvent}
    (hstatic : kernel.static.TellsErrors ∨ (kernel.garbage.va = 0 ↔ kernel.garbage.size = 0))
    (h : GraphObject.load id shmOffset info kernel = some (.success, g, es)) : g.Backed := by
  obtain ⟨_, _, _, _, _, -, htext, hgroup, rfl, -⟩ := GraphObject.load_cases h
  unfold loadTextBuffer at htext
  split_ifs at htext with hnull hempty
  rw [not_or] at hnull hempty
  refine ⟨hnull.2, hempty.2, ?_⟩
  rcases allocGroupBuffers_cases hgroup with
    ⟨-, -, rfl, -⟩ | ⟨first, rest, offsets, totBytes, -, -, hbuf, -⟩
  · exact Iff.rfl
  · obtain ⟨-, ⟨desc, ptr, hbytes, hptr, -, rfl, -⟩ | ⟨granted, hsilent, rfl, -⟩⟩ :=
      mallocBuf_ok_cases hbuf
    · exact iff_of_false hptr hbytes
    · exact hstatic.elim (fun htells => absurd hsilent (htells _ _)) fun hgarbage => hgarbage

/-- A graph that has just been loaded has buffers behind it. -/
theorem GraphObject.SoundlyLoaded.backed (h : g.SoundlyLoaded) : g.Backed := by
  obtain ⟨id, shmOffset, info, kernel, es, hgarbage, hload⟩ := h
  exact GraphObject.load_backed (.inr hgarbage) hload

/-! ### The three parts -/

/-- The text cannot be freed. -/
theorem GraphObject.Backed.unloadText_fails (h : g.Backed) (hfail : oks.next.1 = false) :
    g.unloadText oks = (.errorBufFreeFail, g, [], oks.next.2) := by
  rw [GraphObject.unloadText, if_neg h.text_va, freeBuf_of_size h.text_size, hfail]
  rfl

/-- The text is freed. -/
theorem GraphObject.Backed.unloadText_ok (h : g.Backed) (hok : oks.next.1 = true) :
    ∃ g₁ : GraphObject, g.unloadText oks = (.success, g₁, [.freed g.pbuf.text], oks.next.2) ∧
      g₁.tbufs = g.tbufs ∧ g₁.pbuf.staticGroup = g.pbuf.staticGroup := by
  rw [GraphObject.unloadText, if_neg h.text_va, freeBuf_of_size h.text_size, hok]
  exact ⟨_, rfl, rfl, rfl⟩

/-- The static group cannot be freed. -/
theorem GraphObject.unloadStatic_fails (hva : g.pbuf.staticGroup.va ≠ 0)
    (hsize : g.pbuf.staticGroup.size ≠ 0) (hfail : oks.next.1 = false) :
    g.unloadStatic oks = (.errorBufFreeFail, g, [], oks.next.2) := by
  unfold GraphObject.unloadStatic
  dsimp only
  rw [if_neg hva, freeBuf_of_size hsize, hfail]
  rfl

/-- The static group is freed, if there is one. -/
theorem GraphObject.unloadStatic_ok
    (hstatic : g.pbuf.staticGroup.va = 0 ↔ g.pbuf.staticGroup.size = 0)
    (hok : g.pbuf.staticGroup.va = 0 ∨ oks.next.1 = true) :
    ∃ (g₁ : GraphObject) (oks' : Oracle), g₁.tbufs = g.tbufs ∧
      g.unloadStatic oks =
        (.success, g₁, ([g.pbuf.staticGroup].filter (·.size ≠ 0)).map BufferEvent.freed, oks') := by
  unfold GraphObject.unloadStatic
  dsimp only
  by_cases hva : g.pbuf.staticGroup.va = 0
  · rw [if_pos hva]
    exact ⟨{ g with pbuf := { g.pbuf with staticBuf := [] } }, oks, rfl, by simp [hstatic.mp hva]⟩
  · have hsize : g.pbuf.staticGroup.size ≠ 0 := fun h => hva (hstatic.mpr h)
    rw [if_neg hva, freeBuf_of_size hsize, hok.resolve_left hva]
    exact ⟨{ g with pbuf := { g.pbuf with staticBuf := [] } }, oks.next.2, rfl, by simp [hsize]⟩

/-- The loop does not end well when there is a thread buffer. -/
theorem GraphObject.unloadTbufs_ne_success (htbufs : g.tbufs ≠ []) {ret : AipuStatus}
    {es : List BufferEvent} (h : g.unloadTbufs oks = some (ret, g', es)) : ret ≠ .success := by
  unfold GraphObject.unloadTbufs at h
  split at h
  next hmin => exact absurd (List.map_eq_nil_iff.mp (List.min?_eq_none_iff.mp hmin)) htbufs
  · split at h
    · cases h
    next hne _ =>
      obtain ⟨rfl, -⟩ := Prod.mk.inj (Option.some.inj h)
      exact fun heq => hne heq

/-! ### All or nothing -/

/-- When all answers are positive, so is the first. -/
theorem Oracle.next_of_forall (hall : ∀ ok ∈ oks, ok = true) : oks.next.1 = true := by
  cases oks with
  | nil => rfl
  | cons ok rest => exact hall ok (List.mem_cons_self ..)

/-- The text cannot be freed: the jobs are deleted, and nothing is freed. -/
theorem GraphObject.Backed.unloadsWhole_iff_jobs (h : g.Backed) (hok : g.isUnloadOk = true)
    (htext : oks.next.1 = false) : g.UnloadsWhole oks ↔ g.jobs = [] := by
  have hcleared : g.clearJobs.Backed := ⟨h.text_va, h.text_size, h.static⟩
  have hcall : g.unload oks = some (.errorBufFreeFail, g.clearJobs, []) := by
    rw [GraphObject.unload, if_pos hok, hcleared.unloadText_fails htext]
  constructor
  · rintro ⟨ret, g', es, hcall', -, herror⟩
    obtain ⟨rfl, hrest⟩ := Prod.mk.inj (Option.some.inj (hcall.symm.trans hcall'))
    obtain ⟨rfl, -⟩ := Prod.mk.inj hrest
    exact (herror (by decide)).1.symm
  · intro hjobs
    refine ⟨_, _, _, hcall, fun _ hall => ?_, fun _ => ⟨hjobs.symm, rfl, rfl, rfl⟩⟩
    rw [Oracle.next_of_forall hall] at htext
    cases htext

/-- The text was freed before an error: the call is not all or nothing. -/
theorem GraphObject.not_unloadsWhole
    (hfreed : ∀ ret g' es, g.unload oks = some (ret, g', es) → ret ≠ .success ∧ es ≠ []) :
    ¬g.UnloadsWhole oks := by
  rintro ⟨ret, g', es, hcall, -, herror⟩
  obtain ⟨hret, hes⟩ := hfreed ret g' es hcall
  exact hes (herror hret).2.2.2

/-- The text is freed: all must be freed, or the call is not all or nothing. -/
theorem GraphObject.Backed.unloadsWhole_iff_tbufs (h : g.Backed) (hok : g.isUnloadOk = true)
    (htext : oks.next.1 = true) :
    g.UnloadsWhole oks ↔
      (g.pbuf.staticGroup.va = 0 ∨ oks.next.2.next.1 = true) ∧ g.tbufs = [] := by
  have hcleared : g.clearJobs.Backed := ⟨h.text_va, h.text_size, h.static⟩
  obtain ⟨g₁, hfirst, htbufs₁, hgroup⟩ := hcleared.unloadText_ok htext
  have hgroup : g₁.pbuf.staticGroup = g.pbuf.staticGroup := hgroup
  by_cases hstatic : g.pbuf.staticGroup.va = 0 ∨ oks.next.2.next.1 = true
  · obtain ⟨g₂, oks', htbufs₂, hsecond⟩ := @GraphObject.unloadStatic_ok g₁ oks.next.2
      (by rw [hgroup]; exact h.static) (by rw [hgroup]; exact hstatic)
    have hcall : g.unload oks = (g₂.unloadTbufs oks').map fun (ret, g', es) => (ret, g',
        [.freed g.pbuf.text] ++ ([g.pbuf.staticGroup].filter (·.size ≠ 0)).map BufferEvent.freed ++
          es) := by
      rw [GraphObject.unload, if_pos hok, hfirst]
      dsimp only
      rw [hsecond, hgroup]
      rfl
    have htbufs : g₂.tbufs = g.tbufs := htbufs₂.trans htbufs₁
    by_cases hnil : g.tbufs = []
    · have hloop : g₂.unloadTbufs oks' = some (.success, g₂, []) := by
        rw [GraphObject.unloadTbufs, htbufs, hnil]
        rfl
      rw [hloop] at hcall
      refine iff_of_true ⟨_, _, _, hcall, fun _ _ => ⟨rfl, ?_⟩, fun hne => absurd rfl hne⟩
        ⟨hstatic, hnil⟩
      simp [GraphObject.kernelBufs, hnil, h.text_size, List.filter_cons]
    · refine iff_of_false (GraphObject.not_unloadsWhole fun ret g' es h => ?_)
        fun hall => hnil hall.2
      rw [hcall] at h
      obtain ⟨⟨ret', g'', es'⟩, hloop, heq⟩ := Option.map_eq_some_iff.mp h
      obtain ⟨rfl, hrest⟩ := Prod.mk.inj heq
      obtain ⟨rfl, rfl⟩ := Prod.mk.inj hrest
      exact ⟨GraphObject.unloadTbufs_ne_success (htbufs ▸ hnil) hloop, by simp⟩
  · obtain ⟨hva, hfail⟩ := not_or.mp hstatic
    have hsize : g.pbuf.staticGroup.size ≠ 0 := fun hzero => hva (h.static.mpr hzero)
    have hsecond := @GraphObject.unloadStatic_fails g₁ oks.next.2 (by rwa [hgroup])
      (by rwa [hgroup]) (Bool.eq_false_iff.mpr hfail)
    have hcall : g.unload oks = some (.errorBufFreeFail, g₁, [.freed g.pbuf.text]) := by
      rw [GraphObject.unload, if_pos hok, hfirst]
      dsimp only
      rw [hsecond]
      rfl
    refine iff_of_false (GraphObject.not_unloadsWhole fun ret g' es h => ?_) fun hall =>
      hstatic hall.1
    rw [hcall] at h
    obtain ⟨rfl, heq⟩ := Prod.mk.inj (Option.some.inj h)
    obtain ⟨-, rfl⟩ := Prod.mk.inj heq
    exact ⟨by decide, by simp⟩

/-- With buffers behind the graph, `unload` is all or nothing iff it is safe. -/
theorem GraphObject.Backed.unloadsWhole_iff (h : g.Backed) :
    g.UnloadsWhole oks ↔ g.UnloadSafe oks := by
  unfold GraphObject.UnloadSafe
  cases hok : g.isUnloadOk with
  | false =>
    have hcall : g.unload oks = some (.errorInvalidOp, g, []) := if_neg (by simp [hok])
    exact iff_of_true ⟨_, _, _, hcall, by simp [hok], fun _ => ⟨rfl, rfl, rfl, rfl⟩⟩ (.inl rfl)
  | true =>
    cases htext : oks.next.1 with
    | false => simp [h.unloadsWhole_iff_jobs hok htext]
    | true => simp [h.unloadsWhole_iff_tbufs hok htext]

/-! ## Runs -/

/-- A call keeps the buffers behind the graph, and so does an attempt to unload that is safe. -/
theorem GraphObject.Backed.step (h : g.Backed) {a : GraphLifeCall} {es : List BufferEvent}
    (hsafe : UnloadsSafely g a) (hstep : graphLifeStep g a = some (g', es)) : g'.Backed := by
  cases a with
  | call c =>
    have hpbuf : g'.pbuf = g.pbuf :=
      (graphObjectSystem_loaded (C := anyStep) (.tail .refl trivial hstep)).2.2
    constructor
    all_goals rw [hpbuf]
    exacts [h.text_va, h.text_size, h.static]
  | unload oks =>
    obtain ⟨⟨ret, g₁, es₁⟩, hcall, hlive⟩ := Option.bind_eq_some_iff.mp hstep
    obtain ⟨ret', g₂, es₂, hcall', -, herror⟩ := h.unloadsWhole_iff.mpr hsafe
    obtain ⟨rfl, heq⟩ := Prod.mk.inj (Option.some.inj (hcall.symm.trans hcall'))
    obtain ⟨rfl, rfl⟩ := Prod.mk.inj heq
    dsimp only at hlive
    split_ifs at hlive with hret
    obtain ⟨rfl, rfl⟩ := Prod.mk.inj (Option.some.inj hlive)
    have hpbuf : g₁.pbuf = g.pbuf := (herror hret).2.2.1
    constructor
    all_goals rw [hpbuf]
    exacts [h.text_va, h.text_size, h.static]

/-- In every run whose attempts to unload are safe, the next one is all or nothing iff it is
safe. -/
theorem unload_whole_iff {tr : List BufferEvent} (h : graphLifeSystem.Run UnloadsSafely tr g)
    (oks : Oracle) : g.UnloadsWhole oks ↔ g.UnloadSafe oks := by
  have hbacked : g.Backed :=
    h.stateInvariant (fun _ hg => GraphObject.SoundlyLoaded.backed hg) fun _ _ _ _ hg hsafe hstep =>
      hg.step hsafe hstep
  exact hbacked.unloadsWhole_iff

/-- The sample is loaded soundly. -/
theorem sampleObject_soundlyLoaded : (sampleObject 0 16 64).SoundlyLoaded := by
  obtain ⟨es, hload⟩ := sampleObject_loaded 0 16 64
  exact ⟨_, _, _, _, es, Iff.rfl, hload⟩

/-- A graph without jobs and thread buffers is unloaded, and its text and its static group are
freed. -/
theorem unload_whole_sample : (sampleObject 0 16 64).UnloadsWhole [true, true] :=
  (unload_whole_iff (.start sampleObject_soundlyLoaded) _).mpr (by decide)

/-- A job is done but was not cleaned: `unload` deletes it, frees the text and the static group, and
then returns an error, although the kernel has freed all it was asked to. -/
theorem unload_not_whole :
    ∃ tr g, graphLifeSystem.Run UnloadsSafely tr g ∧ g.isUnloadOk = true ∧ g.jobs ≠ [] ∧
      (∃ g₁, g.unload [] =
        some (.errorBusyHandle, g₁, [.freed g.pbuf.text, .freed g.pbuf.staticGroup]) ∧
          g₁.jobs = []) ∧
      ¬g.UnloadsWhole [] := by
  obtain ⟨⟨g, es⟩, hexec, hok, hjobs, hcall⟩ :
      ∃ s, graphLifeSystem.exec UnloadsSafely (sampleObject 0 16 64)
        [.call (.allocThreadBuffer sampleMalloc), .call (.buildNewJob 0x10000 0),
          .call (.flushJob 0x10000 true),
          .call (.waitForJobEnd false 0x10000 5 (some [⟨0x10000, 1, .done⟩]))] = some s ∧
        s.1.isUnloadOk = true ∧ s.1.jobs ≠ [] ∧
        s.1.unload [] = some (.errorBusyHandle,
          { s.1.clearJobs with
            pbuf := { text := { realSize := 4 }, staticGroup := s.1.pbuf.staticGroup } },
          [.freed s.1.pbuf.text, .freed s.1.pbuf.staticGroup]) :=
    ⟨_, rfl, by decide +kernel, by decide +kernel, by decide +kernel⟩
  refine ⟨es, g, System.run_of_exec sampleObject_soundlyLoaded hexec, hok, hjobs,
    ⟨_, hcall, rfl⟩, ?_⟩
  rintro ⟨ret, g', es', hcall', hsuccess, -⟩
  obtain ⟨rfl, -⟩ := Prod.mk.inj (Option.some.inj (hcall.symm.trans hcall'))
  exact absurd (hsuccess hok (by simp)).1 (by decide)

end Unload

end Aipu
