import AipuDriver.Umd.MallocReply
import AipuDriver.Umd.Unload

/-!
# Failed loading and allocation

`load_graph` and `alloc_tensor_buffers` request several buffers one after the other and give back
what they have got when a later request fails.  What they give back is what `malloc_buf` has
written.  A buffer that REQBUF has granted and `mmap` has not mapped was not written, so it stays
with the session; and when `malloc_buf` reports success without a buffer, the memory that it should
have written is taken for one.
-/

namespace Aipu

open KeyedList UnusedId Word

/-! ## The memory of the session -/

/-- The buffers that the kernel holds for the session, and the live mappings. -/
structure SessionMemory where
  held : List (ℕ × ℕ) := []
  maps : List (ℕ × ℕ) := []
deriving DecidableEq, Repr

/-- What an event does; a buffer that is freed is unmapped before. -/
def SessionMemory.apply (m : SessionMemory) : BufferEvent → SessionMemory
  | .allocated buf => { held := (buf.pa, buf.size) :: m.held, maps := (buf.va, buf.size) :: m.maps }
  | .lost desc => { m with held := (desc.pa, desc.bytes) :: m.held }
  | .freed buf =>
    { held := m.held.erase (buf.pa, buf.size), maps := m.maps.erase (buf.va, buf.size) }

/-- What events do one after the other. -/
def SessionMemory.run (m : SessionMemory) (es : List BufferEvent) :
    SessionMemory := es.foldl SessionMemory.apply m

/-! ## `load_graph` -/

/-- `destroy_graph_object`, when the kernel frees the buffers. -/
def GraphObject.destroyEvents (g : GraphObject) : Option (List BufferEvent) :=
  (g.unload []).map fun (_, _, es) => es

/-- `create_unique_graph_id_inner` -/
def createUniqueGraphIdInner (graphs : List (ℕ × Option GraphObject)) : Option ℕ :=
  firstUnused (fun id => (lookup graphs id).isSome) uint32Size (graphs.length + 1) 1

/-- `load_graph` after `parse_graph`.  A graph that is being loaded is a null pointer in the map. -/
def loadGraphIn (graphs : List (ℕ × Option GraphObject)) (shmOffset : ℕ)
    (parsed : Except AipuStatus GraphInfo) (kernel : LoadMalloc) :
    Option (AipuStatus × List (ℕ × Option GraphObject) × List BufferEvent) :=
  match parsed with
  | .error e => some (e, graphs, [])
  | .ok info => do
    let id ← createUniqueGraphIdInner graphs
    let graphs := insert graphs id none
    match ← GraphObject.load id shmOffset info kernel with
    | (.success, g, es) => some (.success, insert graphs id (some g), es)
    | (e, g, es) => do
      let freed ← g.destroyEvents
      some (e, erase graphs id, es ++ freed)

/-! ## `alloc_tensor_buffers` -/

/-- `alloc_tensor_buffers` -/
def allocTensorBuffersIn (graphs : List (ℕ × Option GraphObject)) (id : ℕ)
    (kernel : ThreadBufferMalloc) :
    Option (AipuStatus × List (ℕ × Option GraphObject) × List BufferEvent) :=
  match (lookup graphs id).join with
  | none => some (.errorGraphNotExist, graphs, [])
  | some g => (g.allocThreadBuffer kernel).map fun (ret, g, _, es) =>
    (ret, adjust graphs id fun _ => some g, es)

/-! ## The property -/

/-- The buffer that is freed, by its address and its size. -/
def BufferEvent.freedRange : BufferEvent → Option (ℕ × ℕ)
  | .freed buf => some (buf.pa, buf.size)
  | _ => none

/-- The range that is mapped. -/
def BufferEvent.mappedRange : BufferEvent → Option (ℕ × ℕ)
  | .allocated buf => some (buf.va, buf.size)
  | _ => none

/-- The range that is unmapped. -/
def BufferEvent.unmappedRange : BufferEvent → Option (ℕ × ℕ)
  | .freed buf => some (buf.va, buf.size)
  | _ => none

/-- A call leaves the buffers of the session, the mappings and the graphs as they were, and it frees
and unmaps once what it has been granted and has mapped. -/
structure Restores (m : SessionMemory) (graphs graphs' : List (ℕ × Option GraphObject))
    (es : List BufferEvent) :
    Prop where
  memory : m.run es = m
  freed : (es.filterMap BufferEvent.freedRange).Perm (es.filterMap BufferEvent.grantedRange)
  unmapped : (es.filterMap BufferEvent.unmappedRange).Perm (es.filterMap BufferEvent.mappedRange)
  graphs : graphs' = graphs

/-- A failed call restores. -/
def FailureRestores (m : SessionMemory) (graphs : List (ℕ × Option GraphObject))
    (call : Option (AipuStatus × List (ℕ × Option GraphObject) × List BufferEvent)) : Prop :=
  ∀ ret graphs' es, call = some (ret, graphs', es) → ret ≠ .success → Restores m graphs graphs' es

/-! ## The condition -/

/-- A request of `malloc_buf`: its size, its answer, and what the descriptor holds at first. -/
structure MallocRequest where
  size : ℕ
  answer : MallocAnswer
  garbage : BufferDesc

/-- `malloc_buf` reports success. -/
def MallocRequest.Reported (r : MallocRequest) : Prop :=
  r.size ≠ 0 ∧ match r.answer with
    | .mapped _ _ _ _ => True
    | .silent _ => True
    | _ => False

/-- Requests one after the other, up to the first that fails: no buffer is granted without being
mapped, and no request before the one that fails has written nothing, unless the memory that it
should have written says that there is nothing to free. -/
def Answered : List MallocRequest → Prop
  | [] => True
  | r :: rest => r.size = 0 ∨ match r.answer with
    | .refused => True
    | .silent granted =>
      (∀ r ∈ rest, r.Reported) ∨ granted = none ∧ r.garbage.size = 0 ∧ Answered rest
    | .unmapped _ => False
    | .mapped _ _ _ _ => Answered rest

/-- The request for a group, if it is made. -/
def groupRequests (kernel : KernelMalloc) (dtype : ℕ) (garbage : BufferDesc) :
    List SectionDesc → List MallocRequest
  | [] => []
  | first :: rest =>
    match groupLayout 0 first rest with
    | none => []
    | some (_, totBytes) =>
      [⟨totBytes, kernel (mallocRequest dtype totBytes first.alignInPage.toNat 0), garbage⟩]

/-- What makes an answer to the request for the text safe: the text is not granted without being
mapped, and once it is loaded, neither is the static group. -/
def LoadMalloc.SafeText (kernel : LoadMalloc) (info : GraphInfo) : MallocAnswer → Prop
  | .refused => True
  | .silent granted => granted = none
  | .unmapped _ => False
  | .mapped desc ptr _ _ =>
    loadTextBuffer info.pbufTempl.textSrc info.pbufTempl.textSize
        (desc.bufferDesc ptr info.pbufTempl.textSize.toNat) = .success →
      Answered (groupRequests kernel.static aipuMmDataTypeStatic kernel.garbage
        info.pbufTempl.staticSections)

/-- No text is asked for, or the answer is safe. -/
def LoadMalloc.Safe (kernel : LoadMalloc) (info : GraphInfo) : Prop :=
  info.pbufTempl.textSize = 0 ∨ kernel.SafeText info
    (kernel.text (mallocRequest aipuMmDataTypeText info.pbufTempl.textSize.toNat 1 0))

/-- The requests of `alloc_thread_buffer` -/
def GraphObject.threadRequests (g : GraphObject) (kernel : ThreadBufferMalloc) :
    List MallocRequest :=
  let templ := g.info.tbufTempl
  let rodataSize := (templ.rodataSize + templ.dcrSize).toNat
  ⟨templ.stackSize.toNat,
      kernel.stack (mallocRequest aipuMmDataTypeRoStack templ.stackSize.toNat
        templ.stackAlignInPage.toNat g.pbuf.text.regionId), kernel.fresh.stack⟩ ::
    ⟨rodataSize,
        kernel.rodata (mallocRequest aipuMmDataTypeRoStack rodataSize 1 g.pbuf.text.regionId),
        kernel.fresh.rodata⟩ ::
      groupRequests kernel.reuse aipuMmDataTypeReuse kernel.garbage templ.reuseSections

/-! ## Giving back -/

/-- The events leave every memory as it was, and what is freed and unmapped is what was granted and
mapped. -/
structure Neutral (es : List BufferEvent) : Prop where
  memory : ∀ m : SessionMemory, m.run es = m
  freed : (es.filterMap BufferEvent.freedRange).Perm (es.filterMap BufferEvent.grantedRange)
  unmapped : (es.filterMap BufferEvent.unmappedRange).Perm (es.filterMap BufferEvent.mappedRange)

/-- How many buffers are granted and not freed. -/
def heldSurplus (es : List BufferEvent) : ℤ :=
  (es.filterMap BufferEvent.grantedRange).length - (es.filterMap BufferEvent.freedRange).length

/-- How many ranges are mapped and not unmapped. -/
def mapSurplus (es : List BufferEvent) : ℤ :=
  (es.filterMap BufferEvent.mappedRange).length - (es.filterMap BufferEvent.unmappedRange).length

/-- More is unmapped than mapped, or else more is granted than freed. -/
def Unbalanced (es : List BufferEvent) :
    Prop := mapSurplus es < 0 ∨ mapSurplus es = 0 ∧ 0 < heldSurplus es

section Balance

variable {es es' : List BufferEvent}

@[simp]
theorem heldSurplus_append : heldSurplus (es ++ es') = heldSurplus es + heldSurplus es' := by
  simp only [heldSurplus, List.filterMap_append, List.length_append]
  omega

@[simp]
theorem mapSurplus_append : mapSurplus (es ++ es') = mapSurplus es + mapSurplus es' := by
  simp only [mapSurplus, List.filterMap_append, List.length_append]
  omega

/-- What is neutral has no surplus. -/
theorem Neutral.surplus (h : Neutral es) : heldSurplus es = 0 ∧ mapSurplus es = 0 := by
  have hfreed := h.freed.length_eq
  have hunmapped := h.unmapped.length_eq
  unfold heldSurplus mapSurplus
  omega

/-- Nothing happens. -/
theorem Neutral.nil : Neutral [] := ⟨fun _ => rfl, .refl _, .refl _⟩

/-- A buffer is granted and mapped before, and unmapped and freed after what is neutral. -/
theorem Neutral.around (h : Neutral es) (buf : BufferDesc) :
    Neutral ([.allocated buf] ++ es ++ [.freed buf]) := by
  refine ⟨fun m => ?_, ?_, ?_⟩
  · have hinner := h.memory ⟨(buf.pa, buf.size) :: m.held, (buf.va, buf.size) :: m.maps⟩
    unfold SessionMemory.run at hinner ⊢
    simp only [List.foldl_append, List.foldl_cons, List.foldl_nil, SessionMemory.apply, hinner,
      List.erase_cons_head]
  · simp only [List.filterMap_append, List.filterMap_cons, List.filterMap_nil,
      BufferEvent.freedRange, BufferEvent.grantedRange, List.nil_append, List.append_nil]
    exact List.perm_append_comm.trans (List.Perm.cons _ h.freed)
  · simp only [List.filterMap_append, List.filterMap_cons, List.filterMap_nil,
      BufferEvent.unmappedRange, BufferEvent.mappedRange, List.nil_append, List.append_nil]
    exact List.perm_append_comm.trans (List.Perm.cons _ h.unmapped)

/-- A buffer is granted and mapped before, and unmapped and freed after what is unbalanced. -/
theorem Unbalanced.around (h : Unbalanced es) (buf : BufferDesc) :
    Unbalanced ([.allocated buf] ++ es ++ [.freed buf]) := by
  have hheld : heldSurplus [.allocated buf] = 1 ∧ heldSurplus [.freed buf] = -1 := ⟨rfl, rfl⟩
  have hmap : mapSurplus [.allocated buf] = 1 ∧ mapSurplus [.freed buf] = -1 := ⟨rfl, rfl⟩
  unfold Unbalanced at h ⊢
  rw [mapSurplus_append, mapSurplus_append, heldSurplus_append, heldSurplus_append]
  omega

end Balance

/-! ## Requests one after the other -/

/-- The call of `malloc_buf` that gets the answer; it does not look at the rest of the request. -/
def MallocRequest.call (r : MallocRequest) : Except AipuStatus BufferDesc × List BufferEvent :=
  mallocBuf (fun _ => r.answer) 0 r.size 0 0 r.garbage

/-- What happens when requests are made up to the first that fails and those before it are given
back, the last one first; `none` when none fails. -/
def rollBack : List MallocRequest → Option (List BufferEvent)
  | [] => none
  | r :: rest =>
    match r.call with
    | (.ok buf, es) => (rollBack rest).map fun inner => es ++ inner ++ buf.freeEvents
    | (.error _, es) => some es

section Calls

variable {kernel : KernelMalloc} {dtype size alignInPage regionId : ℕ} {garbage : BufferDesc}
  {rest : List MallocRequest} {es : List BufferEvent}

/-- The first request succeeds. -/
theorem rollBack_ok {buf : BufferDesc}
    (h : mallocBuf kernel dtype size alignInPage regionId garbage = (.ok buf, es)) :
    rollBack (⟨size, kernel (mallocRequest dtype size alignInPage regionId), garbage⟩ :: rest) =
      (rollBack rest).map fun inner => es ++ inner ++ buf.freeEvents := by
  have hcall : MallocRequest.call
      ⟨size, kernel (mallocRequest dtype size alignInPage regionId), garbage⟩ = (.ok buf, es) := h
  rw [rollBack, hcall]

/-- The first request fails. -/
theorem rollBack_error {e : AipuStatus}
    (h : mallocBuf kernel dtype size alignInPage regionId garbage = (.error e, es)) :
    rollBack (⟨size, kernel (mallocRequest dtype size alignInPage regionId), garbage⟩ :: rest) =
      some es := by
  have hcall : MallocRequest.call
      ⟨size, kernel (mallocRequest dtype size alignInPage regionId), garbage⟩ = (.error e, es) := h
  rw [rollBack, hcall]

end Calls

/-- `malloc_buf` succeeds when it is asked for some bytes and has them mapped, or gets no error
code. -/
theorem MallocRequest.call_reported (r : MallocRequest) :
    (∃ buf es, r.call = (.ok buf, es)) ↔ r.Reported := by
  obtain ⟨size, answer, garbage⟩ := r
  unfold MallocRequest.call mallocBuf devOpWrapperMalloc MallocRequest.Reported
  by_cases hsize : size = 0
  · simp [hsize]
  · cases answer <;> simp [hsize]

/-- No request fails iff `malloc_buf` reports success for each. -/
theorem rollBack_eq_none {rs : List MallocRequest} : rollBack rs = none ↔ ∀ r ∈ rs, r.Reported := by
  induction rs with
  | nil => simp [rollBack]
  | cons r rest ih =>
    rw [rollBack, List.forall_mem_cons, ← r.call_reported, ← ih]
    split
    next hsuccess => simp [hsuccess]
    next hfail => simp [hfail]

/-- When no request fails, there is nothing to give back. -/
theorem Answered.of_reported {rs : List MallocRequest} (h : ∀ r ∈ rs, r.Reported) :
    Answered rs := by
  induction rs with
  | nil => trivial
  | cons r rest ih =>
    obtain ⟨⟨hsize, hanswer⟩, hrest⟩ := List.forall_mem_cons.mp h
    refine .inr ?_
    cases hr : r.answer with
    | refused => simp [hr] at hanswer
    | silent granted => exact .inl hrest
    | unmapped desc => simp [hr] at hanswer
    | mapped desc ptr _ _ => exact ih hrest

/-- What an answer without an error code adds. -/
theorem silent_surplus (granted : Option BufDesc) :
    heldSurplus (granted.toList.map .lost) = granted.toList.length ∧
      mapSurplus (granted.toList.map .lost) = 0 := by
  cases granted <;> exact ⟨rfl, rfl⟩

/-- What `free_buf` takes away. -/
theorem BufferDesc.freeEvents_surplus (buf : BufferDesc) :
    heldSurplus buf.freeEvents = (if buf.size = 0 then 0 else -1) ∧
      mapSurplus buf.freeEvents = if buf.size = 0 then 0 else -1 := by
  unfold BufferDesc.freeEvents
  split_ifs <;> exact ⟨rfl, rfl⟩

/-- **Giving back.**  When a request fails, what happened is neutral if the requests are answered,
and unbalanced otherwise. -/
theorem rollBack_spec {rs : List MallocRequest} {es : List BufferEvent}
    (h : rollBack rs = some es) : (Answered rs ∧ Neutral es) ∨ (¬Answered rs ∧ Unbalanced es) := by
  induction rs generalizing es with
  | nil => cases h
  | cons r rest ih =>
    obtain ⟨size, answer, garbage⟩ := r
    unfold rollBack MallocRequest.call mallocBuf devOpWrapperMalloc at h
    dsimp only at h
    by_cases hsize : size = 0
    · rw [if_pos hsize] at h
      obtain rfl := Option.some.inj h
      exact .inl ⟨.inl hsize, .nil⟩
    · rw [if_neg hsize, if_neg hsize] at h
      cases answer with
      | refused =>
        obtain rfl := Option.some.inj h
        exact .inl ⟨.inr trivial, .nil⟩
      | unmapped desc =>
        obtain rfl := Option.some.inj h
        exact .inr ⟨fun hor => hor.elim hsize id, .inr ⟨rfl, one_pos⟩⟩
      | mapped desc ptr hbytes hptr =>
        obtain ⟨inner, hinner, rfl⟩ := Option.map_eq_some_iff.mp h
        have hanswered : Answered (⟨size, .mapped desc ptr hbytes hptr, garbage⟩ :: rest) ↔
            Answered rest :=
          or_iff_right hsize
        have hfree : (desc.bufferDesc ptr size).freeEvents = [.freed (desc.bufferDesc ptr size)] :=
          if_neg hbytes
        rw [hanswered, hfree]
        exact (ih hinner).imp (fun ⟨hrest, hneutral⟩ => ⟨hrest, hneutral.around _⟩)
          fun ⟨hrest, hunbalanced⟩ => ⟨hrest, hunbalanced.around _⟩
      | silent granted =>
        obtain ⟨inner, hinner, rfl⟩ := Option.map_eq_some_iff.mp h
        have hfails : ¬∀ r ∈ rest, r.Reported := fun hall => by
          rw [rollBack_eq_none.mpr hall] at hinner
          cases hinner
        have hanswered : Answered (⟨size, .silent granted, garbage⟩ :: rest) ↔
            granted = none ∧ garbage.size = 0 ∧ Answered rest :=
          (or_iff_right hsize).trans (or_iff_right hfails)
        rw [hanswered]
        have hspec := ih hinner
        by_cases hnothing : granted = none ∧ garbage.size = 0
        · obtain ⟨rfl, hgarbage⟩ := hnothing
          have hsame : (none : Option BufDesc).toList.map BufferEvent.lost ++ inner ++
              garbage.freeEvents = inner := by
            simp [BufferDesc.freeEvents, hgarbage]
          rw [hsame]
          simpa [hgarbage] using hspec
        · refine .inr ⟨fun ⟨hnone, hgarbage, _⟩ => hnothing ⟨hnone, hgarbage⟩, ?_⟩
          obtain ⟨hgrant, hkeep⟩ := silent_surplus granted
          obtain ⟨hfree, hunmap⟩ := garbage.freeEvents_surplus
          have hinner : mapSurplus inner < 0 ∨ mapSurplus inner = 0 ∧ 0 ≤ heldSurplus inner := by
            rcases hspec with ⟨-, hneutral⟩ | ⟨-, hunbalanced⟩
            · exact .inr ⟨hneutral.surplus.2, le_of_eq hneutral.surplus.1.symm⟩
            · exact hunbalanced.imp id (And.imp id le_of_lt)
          unfold Unbalanced
          rw [mapSurplus_append, mapSurplus_append, heldSurplus_append, heldSurplus_append, hgrant,
            hkeep, hfree, hunmap]
          by_cases hgarbage : garbage.size = 0
          · have hsome : granted.toList.length ≠ 0 :=
              fun hlen => hnothing ⟨by simpa using hlen, hgarbage⟩
            rw [if_pos hgarbage]
            omega
          · rw [if_neg hgarbage]
            omega

/-! ## The calls -/

/-- `alloc_group_buffers` fails iff its request does, and then the request is all that happens. -/
theorem allocGroupBuffers_rollBack (kernel : KernelMalloc) (sections : List SectionDesc)
    (dtype : ℕ) (garbage group : BufferDesc) :
    (rollBack (groupRequests kernel dtype garbage sections) = none ∧
        ∀ e es, allocGroupBuffers kernel sections dtype garbage group ≠ some (.error e, es)) ∨
      ∃ e es, e ≠ AipuStatus.success ∧
        allocGroupBuffers kernel sections dtype garbage group = some (.error e, es) ∧
        rollBack (groupRequests kernel dtype garbage sections) = some es := by
  cases sections with
  | nil => exact .inl ⟨rfl, fun e es h => by cases h⟩
  | cons first rest =>
    cases hlayout : groupLayout 0 first rest with
    | none =>
      refine .inl ⟨by rw [groupRequests, hlayout]; rfl, fun e es h => ?_⟩
      rw [allocGroupBuffers, hlayout] at h
      cases h
    | some layout =>
      obtain ⟨offsets, totBytes⟩ := layout
      rw [groupRequests, hlayout, allocGroupBuffers, hlayout, Option.map_some]
      dsimp only
      rcases hcall : mallocBuf kernel dtype totBytes first.alignInPage.toNat 0 garbage with
        ⟨e | buf, es⟩
      · exact .inr ⟨e, es, mallocBuf_error hcall, rfl, rollBack_error hcall⟩
      · refine .inl ⟨by rw [rollBack_ok hcall]; rfl, fun e es h => ?_⟩
        cases h

/-- `alloc_thread_buffer` fails iff one of its requests does, and it gives back what it has got. -/
theorem GraphObject.allocThreadBuffer_rollBack (g : GraphObject) (kernel : ThreadBufferMalloc) :
    (rollBack (g.threadRequests kernel) = none ∧ ∀ out, g.allocThreadBuffer kernel = some out →
      out.1 = .success) ∨
      ∃ e es, e ≠ AipuStatus.success ∧ g.allocThreadBuffer kernel = some (e, g, none, es) ∧
        rollBack (g.threadRequests kernel) = some es := by
  unfold GraphObject.allocThreadBuffer GraphObject.threadRequests allocRodataBuffer
  dsimp only
  rcases hstack : mallocBuf kernel.stack aipuMmDataTypeRoStack g.info.tbufTempl.stackSize.toNat
    g.info.tbufTempl.stackAlignInPage.toNat g.pbuf.text.regionId kernel.fresh.stack with
    ⟨e | stack, es⟩
  · exact .inr ⟨e, es, mallocBuf_error hstack, rfl, rollBack_error hstack⟩
  rcases hrodata : mallocBuf kernel.rodata aipuMmDataTypeRoStack
    (g.info.tbufTempl.rodataSize + g.info.tbufTempl.dcrSize).toNat 1 g.pbuf.text.regionId
    kernel.fresh.rodata with ⟨e | rodata, es₁⟩
  · refine .inr ⟨e, es ++ es₁ ++ stack.freeEvents, mallocBuf_error hrodata, rfl, ?_⟩
    rw [rollBack_ok hstack, rollBack_error hrodata, Option.map_some]
  dsimp only
  rw [rollBack_ok hstack, rollBack_ok hrodata]
  rcases allocGroupBuffers_rollBack kernel.reuse g.info.tbufTempl.reuseSections
    aipuMmDataTypeReuse kernel.garbage kernel.fresh.reuseGroup with
    ⟨hnone, hsuccess⟩ | ⟨e, es₂, he, hgroup, hroll⟩
  · refine .inl ⟨by rw [hnone]; rfl, fun out h => ?_⟩
    obtain ⟨⟨e | ⟨reuseBuf, reuseGroup⟩, es₂⟩, hgroup, h⟩ := Option.bind_eq_some_iff.mp h
    · exact absurd hgroup (hsuccess e es₂)
    · obtain ⟨iobuf, -, h⟩ := Option.bind_eq_some_iff.mp h
      obtain ⟨handle, -, h⟩ := Option.bind_eq_some_iff.mp h
      obtain rfl := Option.some.inj h
      rfl
  · refine .inr ⟨e, es ++ es₁ ++ es₂ ++ rodata.freeEvents ++ stack.freeEvents, he, ?_, ?_⟩
    · rw [hgroup]
      rfl
    · rw [hroll]
      simp only [Option.map_some, List.append_assoc]

section Restores

variable {m : SessionMemory} {graphs : List (ℕ × Option GraphObject)} {es : List BufferEvent}

/-- What is neutral restores. -/
theorem Neutral.restores (h : Neutral es) : Restores m graphs graphs es :=
  ⟨h.memory m, h.freed, h.unmapped, rfl⟩

/-- What is unbalanced does not. -/
theorem Unbalanced.not_restores {graphs' : List (ℕ × Option GraphObject)} (h : Unbalanced es) :
    ¬Restores m graphs graphs' es := by
  intro hrestores
  have hfreed := hrestores.freed.length_eq
  have hunmapped := hrestores.unmapped.length_eq
  unfold Unbalanced heldSurplus mapSurplus at h
  omega

/-- Requests that are given back restore iff they are answered. -/
theorem restores_iff_answered {rs : List MallocRequest} (h : rollBack rs = some es) :
    Restores m graphs graphs es ↔ Answered rs := by
  rcases rollBack_spec h with ⟨hanswered, hneutral⟩ | ⟨hanswered, hunbalanced⟩
  · exact iff_of_true hneutral.restores hanswered
  · exact iff_of_false hunbalanced.not_restores hanswered

/-- A value that is written over itself leaves the map as it is. -/
theorem adjust_lookup {id : ℕ} {g : Option GraphObject} (hkeys : (graphs.map Prod.fst).Nodup)
    (h : lookup graphs id = some g) : adjust graphs id (fun _ => g) = graphs := by
  have hmem := mem_of_lookup h
  unfold adjust
  conv_rhs => rw [← List.map_id graphs]
  refine List.map_congr_left fun e he => ?_
  split_ifs with heq
  · have hsame : e = (id, g) := List.inj_on_of_nodup_map hkeys he hmem heq
    rw [hsame]
    rfl
  · rfl

/-- **Failed allocation.** -/
theorem allocTensorBuffersIn_restores (hkeys : (graphs.map Prod.fst).Nodup) (id : ℕ)
    (kernel : ThreadBufferMalloc) :
    FailureRestores m graphs (allocTensorBuffersIn graphs id kernel) ↔
      ∀ g, lookup graphs id = some (some g) → Answered (g.threadRequests kernel) := by
  unfold allocTensorBuffersIn
  cases hlookup : lookup graphs id with
  | none =>
    refine iff_of_true ?_ (fun g h => by cases h)
    rintro ret graphs' es h -
    obtain ⟨-, rfl, rfl⟩ : _ ∧ graphs = graphs' ∧ [] = es := by simpa using h
    exact Neutral.nil.restores
  | some entry =>
    cases entry with
    | none =>
      refine iff_of_true ?_ (fun g h => by cases h)
      rintro ret graphs' es h -
      obtain ⟨-, rfl, rfl⟩ : _ ∧ graphs = graphs' ∧ [] = es := by simpa using h
      exact Neutral.nil.restores
    | some g =>
      dsimp only [Option.join_some]
      have hgoal : (∀ g', some (some g) = some (some g') → Answered (g'.threadRequests kernel)) ↔
          Answered (g.threadRequests kernel) :=
        ⟨fun h => h g rfl, fun h g' heq => by
          obtain rfl := Option.some.inj (Option.some.inj heq)
          exact h⟩
      rw [hgoal]
      rcases g.allocThreadBuffer_rollBack kernel with
        ⟨hnone, hsuccess⟩ | ⟨e, es, he, hcall, hroll⟩
      · refine iff_of_true (fun ret graphs' es h hret => ?_)
          (.of_reported (rollBack_eq_none.mp hnone))
        obtain ⟨out, hout, h⟩ := Option.map_eq_some_iff.mp h
        exact absurd ((Prod.mk.inj h).1.symm.trans (hsuccess out hout)) hret
      · rw [hcall, Option.map_some]
        dsimp only
        have hrestores : Restores m graphs graphs es ↔ Answered (g.threadRequests kernel) :=
          restores_iff_answered hroll
        rw [adjust_lookup hkeys hlookup, ← hrestores]
        constructor
        · exact fun h => h e graphs es rfl he
        · rintro h ret graphs' es' heq -
          obtain ⟨-, rfl, rfl⟩ : _ ∧ graphs = graphs' ∧ es = es' := by simpa using heq
          exact h

/-- What `unload` frees of a graph that has no job, no thread buffer and no static group. -/
theorem GraphObject.destroyEvents_eq {g : GraphObject} (hjobs : g.jobs = []) (htbufs : g.tbufs = [])
    (hstatic : g.pbuf.staticGroup.va = 0) (htext : g.pbuf.text.va ≠ 0 → g.pbuf.text.size ≠ 0) :
    g.destroyEvents = some (if g.pbuf.text.va = 0 then [] else g.pbuf.text.freeEvents) := by
  have hok : g.isUnloadOk = true := by simp [GraphObject.isUnloadOk, hjobs]
  unfold GraphObject.destroyEvents GraphObject.unload
  rw [if_pos hok]
  by_cases hva : g.pbuf.text.va = 0
  · simp [GraphObject.unloadText, GraphObject.unloadStatic, GraphObject.unloadTbufs,
      GraphObject.clearJobs, hva, hstatic, htbufs]
  · have hfree : freeBuf g.pbuf.text true = .success := freeBuf_of_size (htext hva) true
    simp [GraphObject.unloadText, GraphObject.unloadStatic, GraphObject.unloadTbufs,
      GraphObject.clearJobs, hva, hstatic, htbufs, Oracle.next, hfree, BufferDesc.freeEvents,
      htext hva]

section Load

variable (id shmOffset : ℕ) {info : GraphInfo} {kernel : LoadMalloc}

/-- `load` of a graph whose text is not allocated. -/
theorem GraphObject.load_noText {e : AipuStatus}
    (h : allocTextBuffer kernel.text info.pbufTempl {} = (.error e, es)) :
    GraphObject.load id shmOffset info kernel = some (e, { id, info, shmOffset }, es) ∧
      GraphObject.destroyEvents { id, info, shmOffset } = some [] := by
  refine ⟨?_, GraphObject.destroyEvents_eq rfl rfl rfl fun h => absurd rfl h⟩
  unfold GraphObject.load
  dsimp only
  rw [h]

/-- `load` of a graph whose text is allocated and not loaded. -/
theorem GraphObject.load_text {textBuf : BufferDesc} {e : AipuStatus}
    (h : allocTextBuffer kernel.text info.pbufTempl {} = (.ok textBuf, es))
    (he : loadTextBuffer info.pbufTempl.textSrc info.pbufTempl.textSize textBuf = e)
    (hne : e ≠ .success) :
    GraphObject.load id shmOffset info kernel =
      some (e, { id, info, shmOffset, pbuf := { text := textBuf } }, es) := by
  unfold GraphObject.load
  dsimp only
  rw [h]
  dsimp only
  rw [he]
  split
  · exact absurd rfl hne
  · rfl

/-- `load` of a graph whose text is loaded. -/
theorem GraphObject.load_loaded {textBuf : BufferDesc}
    (h : allocTextBuffer kernel.text info.pbufTempl {} = (.ok textBuf, es))
    (htext : loadTextBuffer info.pbufTempl.textSrc info.pbufTempl.textSize textBuf = .success) :
    GraphObject.load id shmOffset info kernel =
      (allocGroupBuffers kernel.static info.pbufTempl.staticSections aipuMmDataTypeStatic
        kernel.garbage {}).map fun
      | (.error e, es₁) =>
        (e, { id, info, shmOffset, pbuf := { text := textBuf } }, es ++ es₁)
      | (.ok (staticBuf, staticGroup), es₁) =>
        (.success,
          { id, info, shmOffset, pbuf := { text := textBuf, staticBuf, staticGroup } },
          es ++ es₁) := by
  unfold GraphObject.load
  dsimp only
  rw [h]
  dsimp only
  split
  · rfl
  next hfail => exact absurd htext hfail

/-- A failed `load`, with what `destroy_graph_object` frees, gives back what it has got iff the
answers are safe. -/
theorem GraphObject.load_rollBack (info : GraphInfo) (kernel : LoadMalloc) :
    (kernel.Safe info ∧ ∀ out, GraphObject.load id shmOffset info kernel = some out →
        out.1 = .success) ∨
      ∃ e g es freed, e ≠ AipuStatus.success ∧
        GraphObject.load id shmOffset info kernel = some (e, g, es) ∧
        g.destroyEvents = some freed ∧
        ((kernel.Safe info ∧ Neutral (es ++ freed)) ∨
          (¬kernel.Safe info ∧ Unbalanced (es ++ freed))) := by
  by_cases hsize : info.pbufTempl.textSize = 0
  · have hcall : allocTextBuffer kernel.text info.pbufTempl {} = (.error .errorInvalidSize, []) :=
      if_pos hsize
    obtain ⟨hload, hdestroy⟩ := GraphObject.load_noText id shmOffset hcall
    exact .inr ⟨_, _, _, _, by simp, hload, hdestroy, .inl ⟨.inl hsize, .nil⟩⟩
  have hbytes : info.pbufTempl.textSize.toNat ≠ 0 := fun h => hsize (UInt32.toNat_inj.mp h)
  have hsafe : kernel.Safe info ↔ kernel.SafeText info
      (kernel.text (mallocRequest aipuMmDataTypeText info.pbufTempl.textSize.toNat 1 0)) :=
    or_iff_right hsize
  have hcall : allocTextBuffer kernel.text info.pbufTempl {} =
      mallocBuf kernel.text aipuMmDataTypeText info.pbufTempl.textSize.toNat 1 0 {} :=
    if_neg hsize
  rw [mallocBuf_of_ne_zero hbytes] at hcall
  cases hanswer :
    kernel.text (mallocRequest aipuMmDataTypeText info.pbufTempl.textSize.toNat 1 0) with
  | refused =>
    rw [hanswer] at hcall hsafe
    obtain ⟨hload, hdestroy⟩ := GraphObject.load_noText id shmOffset hcall
    exact .inr ⟨_, _, _, _, by simp, hload, hdestroy, .inl ⟨hsafe.mpr trivial, .nil⟩⟩
  | unmapped desc =>
    rw [hanswer] at hcall hsafe
    obtain ⟨hload, hdestroy⟩ := GraphObject.load_noText id shmOffset hcall
    exact .inr ⟨_, _, _, _, by simp, hload, hdestroy, .inr ⟨hsafe.mp, .inr ⟨rfl, one_pos⟩⟩⟩
  | silent granted =>
    rw [hanswer] at hcall hsafe
    have htext : loadTextBuffer info.pbufTempl.textSrc info.pbufTempl.textSize {} =
        .errorNullPtr :=
      if_pos (.inr rfl)
    refine .inr ⟨_, _, _, _, by simp, GraphObject.load_text id shmOffset hcall htext (by simp),
      GraphObject.destroyEvents_eq rfl rfl rfl fun h => absurd rfl h, ?_⟩
    rw [if_pos rfl, List.append_nil, hsafe]
    cases granted with
    | none => exact .inl ⟨rfl, .nil⟩
    | some desc => exact .inr ⟨nofun, .inr ⟨rfl, one_pos⟩⟩
  | mapped desc ptr hdesc hptr =>
    rw [hanswer] at hcall hsafe
    have hdestroy : GraphObject.destroyEvents
        { id, info, shmOffset
          pbuf := { text := desc.bufferDesc ptr info.pbufTempl.textSize.toNat } } =
        some [.freed (desc.bufferDesc ptr info.pbufTempl.textSize.toNat)] :=
      (GraphObject.destroyEvents_eq rfl rfl rfl fun _ => hdesc).trans
        (congrArg some ((if_neg hptr).trans (if_neg hdesc)))
    by_cases htext : loadTextBuffer info.pbufTempl.textSrc info.pbufTempl.textSize
        (desc.bufferDesc ptr info.pbufTempl.textSize.toNat) = .success
    · have hload := GraphObject.load_loaded id shmOffset hcall htext
      rcases allocGroupBuffers_rollBack kernel.static info.pbufTempl.staticSections
        aipuMmDataTypeStatic kernel.garbage {} with
        ⟨hnone, hsuccess⟩ | ⟨e, es₂, he, hgroup, hroll⟩
      · refine .inl ⟨hsafe.mpr fun _ => .of_reported (rollBack_eq_none.mp hnone), fun out h => ?_⟩
        rw [hload] at h
        obtain ⟨⟨e | ⟨staticBuf, staticGroup⟩, es₂⟩, hgroup, rfl⟩ := Option.map_eq_some_iff.mp h
        · exact absurd hgroup (hsuccess e es₂)
        · rfl
      · rw [hgroup, Option.map_some] at hload
        refine .inr ⟨_, _, _, _, he, hload, hdestroy, ?_⟩
        exact (rollBack_spec hroll).imp
          (fun ⟨hanswered, hneutral⟩ => ⟨hsafe.mpr fun _ => hanswered, hneutral.around _⟩)
          fun ⟨hanswered, hunbalanced⟩ =>
            ⟨fun h => hanswered (hsafe.mp h htext), hunbalanced.around _⟩
    · exact .inr ⟨_, _, _, _, htext, GraphObject.load_text id shmOffset hcall rfl htext, hdestroy,
        .inl ⟨hsafe.mpr fun h => absurd h htext, Neutral.nil.around _⟩⟩

end Load

/-- **Failed loading.** -/
theorem loadGraphIn_restores (shmOffset : ℕ) (parsed : Except AipuStatus GraphInfo)
    (kernel : LoadMalloc) :
    FailureRestores m graphs (loadGraphIn graphs shmOffset parsed kernel) ↔
      ∀ info, parsed = .ok info → (createUniqueGraphIdInner graphs).isSome → kernel.Safe info := by
  unfold loadGraphIn
  cases parsed with
  | error e =>
    refine iff_of_true ?_ (fun info h => by cases h)
    rintro ret graphs' es h -
    obtain ⟨-, rfl, rfl⟩ : _ ∧ graphs = graphs' ∧ [] = es := by simpa using h
    exact Neutral.nil.restores
  | ok info =>
    have hgoal : (∀ info', (Except.ok info : Except AipuStatus GraphInfo) = .ok info' →
        (createUniqueGraphIdInner graphs).isSome → kernel.Safe info') ↔
          ((createUniqueGraphIdInner graphs).isSome → kernel.Safe info) :=
      ⟨fun h => h info rfl, fun h info' heq => Except.ok.inj heq ▸ h⟩
    rw [hgoal]
    cases hid : createUniqueGraphIdInner graphs with
    | none =>
      refine iff_of_true ?_ (fun h => by cases h)
      rintro ret graphs' es h
      cases h
    | some id =>
      have hunused : id ∉ graphs.map Prod.fst := by
        have hfree := not_used_of_firstUnused (by decide) hid
        rw [← isSome_lookup, hfree]
        exact Bool.false_ne_true
      dsimp only [Option.bind_eq_bind, Option.bind_some]
      rcases GraphObject.load_rollBack id shmOffset info kernel with
        ⟨hsafe, hsuccess⟩ | ⟨e, g, es, freed, he, hload, hdestroy, hbalance⟩
      · refine iff_of_true (fun ret graphs' es h hret => ?_) fun _ => hsafe
        obtain ⟨out, hload, h⟩ := Option.bind_eq_some_iff.mp h
        have hout := hsuccess out hload
        obtain ⟨status, g, es₁⟩ := out
        obtain rfl : status = .success := hout
        exact absurd (Prod.mk.inj (Option.some.inj h)).1.symm hret
      · have hcall : FailureRestores m graphs (some (e, graphs, es ++ freed)) ↔
            kernel.Safe info := by
          rcases hbalance with ⟨hsafe, hneutral⟩ | ⟨hsafe, hunbalanced⟩
          · refine iff_of_true ?_ hsafe
            rintro ret graphs' es' h -
            obtain ⟨-, rfl, rfl⟩ : _ ∧ graphs = graphs' ∧ _ = es' := by simpa using h
            exact hneutral.restores
          · exact iff_of_false (fun h => hunbalanced.not_restores (h e graphs _ rfl he)) hsafe
        rw [hload]
        dsimp only [Option.bind_some]
        split
        next heq => exact absurd (Prod.mk.inj heq).1 he
        next heq =>
          obtain ⟨rfl, hrest⟩ := Prod.mk.inj heq
          obtain ⟨rfl, rfl⟩ := Prod.mk.inj hrest
          rw [hdestroy]
          dsimp only [Option.bind_some]
          rw [erase_insert hunused, hcall]
          exact ⟨fun h _ => h, fun h => h rfl⟩

/-- A failed call gives back what it has got iff no buffer was granted without being mapped, and
`malloc_buf` did not report a buffer that it had not written. -/
theorem failedCalls_restore_iff (hkeys : (graphs.map Prod.fst).Nodup) (shmOffset id : ℕ)
    (parsed : Except AipuStatus GraphInfo) (load : LoadMalloc) (alloc : ThreadBufferMalloc) :
    (FailureRestores m graphs (loadGraphIn graphs shmOffset parsed load) ↔
        ∀ info, parsed = .ok info → (createUniqueGraphIdInner graphs).isSome → load.Safe info) ∧
      (FailureRestores m graphs (allocTensorBuffersIn graphs id alloc) ↔
        ∀ g, lookup graphs id = some (some g) → Answered (g.threadRequests alloc)) :=
  ⟨loadGraphIn_restores shmOffset parsed load, allocTensorBuffersIn_restores hkeys id alloc⟩

end Restores

/-! ## A mapping that fails -/

/-- The kernel refuses. -/
def grantNothing : KernelMalloc := fun _ => .refused

/-- The kernel grants a page at the address, and its `mmap` fails. -/
def grantUnmapped (pa : ℕ) : KernelMalloc := fun req =>
  .unmapped { pa := pa, bytes := 4096, regionId := req.regionId }

/-- A static group is refused after the text was mapped, and a reuse group after the rodata. -/
theorem failedCalls_restore_sample :
    FailureRestores {} [(1, some (sampleObject 0 0 64))]
        (loadGraphIn [(1, some (sampleObject 0 0 64))] 0 (.ok (sampleInfo 0 64))
          { text := grantAt 0x90000000 0x7000000, static := grantNothing }) ∧
      FailureRestores {} [(1, some (sampleObject 0 0 64))]
        (allocTensorBuffersIn [(1, some (sampleObject 0 0 64))] 1
          { stack := grantAt 0x90020000 0x7020000, rodata := grantAt 0x90030000 0x7030000
            reuse := grantNothing }) := by
  obtain ⟨hload, halloc⟩ :=
    @failedCalls_restore_iff {} [(1, some (sampleObject 0 0 64))] (by decide) 0 1
      (.ok (sampleInfo 0 64)) { text := grantAt 0x90000000 0x7000000, static := grantNothing }
      { stack := grantAt 0x90020000 0x7020000, rodata := grantAt 0x90030000 0x7030000
        reuse := grantNothing }
  refine ⟨hload.mpr fun info hinfo _ => ?_, halloc.mpr fun g hg => ?_⟩
  · obtain rfl := Except.ok.inj hinfo
    exact .inr fun _ => .inr trivial
  · obtain rfl : sampleObject 0 0 64 = g := Option.some.inj (Option.some.inj hg)
    exact .inr (.inr (.inr trivial))

/-- REQBUF grants the text of a graph and `mmap` fails, or the same happens to the rodata of a
thread buffer: the call returns an error, and the session keeps the buffer. -/
theorem failedCalls_leak :
    ¬FailureRestores {} []
      (loadGraphIn [] 0 (.ok (sampleInfo 0 64))
        { text := grantUnmapped 0x90000000, static := grantNothing }) ∧
      ¬FailureRestores {} [(1, some (sampleObject 0 0 64))]
        (allocTensorBuffersIn [(1, some (sampleObject 0 0 64))] 1
          { stack := grantAt 0x90020000 0x7020000, rodata := grantUnmapped 0x90030000
            reuse := grantNothing }) := by
  constructor
  · intro h
    have hrestores := h .errorBufAllocFail []
      [.lost { pa := 0x90000000, bytes := 4096, regionId := 0 }] rfl (by decide)
    exact absurd hrestores.memory (by decide)
  · intro h
    have hrestores := h .errorBufAllocFail [(1, some (sampleObject 0 0 64))]
      [.allocated { va := 0x7020000, pa := 0x90020000, size := 4096, realSize := 256 },
        .lost { pa := 0x90030000, bytes := 4096, regionId := 0 },
        .freed { va := 0x7020000, pa := 0x90020000, size := 4096, realSize := 256 }]
      rfl (by decide)
    exact absurd hrestores.memory (by decide)

end Aipu
