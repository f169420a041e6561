import AipuDriver.Lib.MemoryBytes
import AipuDriver.Umd.GroupLayout
import AipuDriver.Umd.RodataPatches
import AipuDriver.Umd.RunningBuffers
import AipuDriver.Umd.Tensors
import AipuDriver.Umd.Unload

/-!
# The loaded image of a graph

`load` copies the text of the file into the buffer of the text, and each static section into its own
place in the static group.  The graph is then used for as long as the application likes: thread
buffers come and go, jobs are built in them, other graphs are loaded and unloaded and their memory
is granted again, and the application and the device write tensors.  Only one thing writes to the
image on purpose: `build_new_job` stores a word at each node of the linked list that lies in the
text.  All other bytes of the text and of the static sections are those of the file, at any time.
-/

namespace Aipu

open ByteReader KeyedList Packing Transition UnusedId Word WordPatch

/-! ## What is written -/

/-- `load`, as far as the memory goes: `load_text_buffer` copies before the static group is
requested. -/
def GraphObject.loadMemory (binary mem : Memory) (info : GraphInfo) (kernel : LoadMalloc) :
    Memory :=
  let templ := info.pbufTempl
  match allocTextBuffer kernel.text templ {} with
  | (.error _, _) => mem
  | (.ok textBuf, _) =>
    match loadTextBuffer templ.textSrc templ.textSize textBuf with
    | .success =>
      let mem := copyBytes binary mem textBuf.va templ.textSrc templ.textSize.toNat
      match allocGroupBuffers kernel.static templ.staticSections aipuMmDataTypeStatic
          kernel.garbage {} with
      | some (.ok (staticBuf, _), _) =>
        runWrites binary mem (staticLoads templ.staticSections staticBuf)
      | _ => mem
    | _ => mem

/-- The end of `alloc_thread_buffer`: the first eight characters of the printf buffers are
cleared. -/
def ThreadBufferInfo.initPrintf (tbuf : ThreadBufferInfo) (mem : Memory) : Memory :=
  tbuf.iobuf.plogData.foldl (fun mem t => storeBytes mem t.va (List.replicate 8 0)) mem

/-- A call on a graph, as far as the memory goes. -/
def GraphObject.callMemory (g : GraphObject) (binary mem : Memory) : GraphCall → Memory
  | .allocThreadBuffer kernel =>
    match g.allocThreadBuffer kernel with
    | some (_, g', some handle, _) => ((g'.getTbufPtr handle).map (·.initPrintf mem)).getD mem
    | _ => mem
  | c => runWrites binary mem (g.hostWrites c)

/-! ## A context and its memory -/

/-- The graphs of a context under their ids, and the memory that is shared with the device. -/
structure ImageContext where
  graphs : List (ℕ × GraphObject)
  mem : Memory

/-- What happens in the address space of an application. -/
inductive ImageAction
  /-- `load_graph` of a file that was parsed. -/
  | loadGraph (info : GraphInfo) (kernel : LoadMalloc)
  /-- `unload_graph` -/
  | unloadGraph (id : ℕ) (oks : Oracle)
  /-- Another call of the context. -/
  | call (id : ℕ) (c : GraphCall)
  /-- The application or the device writes a byte. -/
  | write (p : ℕ) (b : UInt8)

/-- `get_graph_object` -/
def ImageContext.getGraphObject (s : ImageContext) (id : ℕ) : Option GraphObject :=
  lookup s.graphs id

/-- `create_unique_graph_id_inner` -/
def ImageContext.createUniqueGraphIdInner (s : ImageContext) : Option ℕ :=
  firstUnused (fun id => (s.getGraphObject id).isSome) uint32Size (s.graphs.length + 1) 1

/-- One step.  A graph that could not be loaded is destroyed. -/
def imageStep (binary : Memory) (shmOffset : ℕ) (s : ImageContext) :
    ImageAction → Option (ImageContext × List BufferEvent)
  | .loadGraph info kernel =>
    match s.createUniqueGraphIdInner with
    | none => none
    | some id =>
      let mem := GraphObject.loadMemory binary s.mem info kernel
      match GraphObject.load id shmOffset info kernel with
      | none => none
      | some (.success, g, es) => some (⟨insert s.graphs id g, mem⟩, es)
      | some (_, g, es) => (g.unload []).map fun (_, _, freed) => (⟨s.graphs, mem⟩, es ++ freed)
  | .unloadGraph id oks =>
    match s.getGraphObject id with
    | none => some (s, [])
    | some g => (g.unload oks).map fun (ret, g', es) =>
      (⟨if ret = .success then erase s.graphs id else adjust s.graphs id fun _ => g', s.mem⟩, es)
  | .call id c =>
    match s.getGraphObject id with
    | none => some (s, [])
    | some g => (graphObjectStep g c).map fun (g', es) =>
      (⟨adjust s.graphs id fun _ => g', g.callMemory binary s.mem c⟩, es)
  | .write p b => some (⟨s.graphs, Function.update s.mem p b⟩, [])

/-- The runs of a context that has loaded nothing, with the files in `binary`. -/
def imageSystem (binary : Memory) (shmOffset : ℕ) :
    System ImageContext ImageAction BufferEvent where
  init s := s.graphs = []
  step := imageStep binary shmOffset

/-! ## The property -/

/-- The byte of the text belongs to the word of a node of the linked list. -/
def GraphInfo.LinksText (info : GraphInfo) (q : ℕ) : Prop :=
  info.linkedListFlag ≠ 0 ∧ ∃ node ∈ info.dcrMap, node.type = 2 ∧
    node.nextAddrEntryOffset.toNat ≤ q ∧ q < node.nextAddrEntryOffset.toNat + 4

/-- The text and the static sections in memory are those of the file, but the words of the nodes
that lie in the text. -/
structure GraphObject.Intact (g : GraphObject) (binary mem : Memory) : Prop where
  text : ∀ q < g.info.pbufTempl.textSize.toNat, ¬g.info.LinksText q →
    mem (g.pbuf.text.va + q) = binary (g.info.pbufTempl.textSrc + q)
  static : ∀ (i : ℕ) sec, g.info.pbufTempl.staticSections[i]? = some sec →
    ∃ buf, g.pbuf.staticBuf[i]? = some buf ∧
      ∀ q < sec.size.toNat, mem (buf.va + q) = binary (sec.loadSrc + q)

/-! ## The conditions -/

/-- The byte at the address is one of the buffer. -/
def BufferDesc.Has (buf : BufferDesc) (p : ℕ) : Prop := buf.va ≤ p ∧ p < buf.va + buf.size

/-- The buffers of the image. -/
def GraphObject.imageBufs (g : GraphObject) : List BufferDesc := [g.pbuf.text, g.pbuf.staticGroup]

/-- A buffer of a thread buffer. -/
def GraphObject.ThreadBuf (g : GraphObject) (buf : BufferDesc) : Prop :=
  ∃ handle tbuf, g.getTbufPtr handle = some tbuf ∧ buf ∈ tbuf.bufs

/-- A buffer of an image or of a thread buffer of the context. -/
def ImageContext.Mapped (s : ImageContext) (buf : BufferDesc) : Prop :=
  ∃ id g, s.getGraphObject id = some g ∧ (buf ∈ g.imageBufs ∨ g.ThreadBuf buf)

/-- What is allocated shares nothing with the buffers of the context. -/
def ImageContext.GrantsApart (s : ImageContext) (es : List BufferEvent) : Prop :=
  ∀ buf, .allocated buf ∈ es → ∀ own, s.Mapped own → buf.Separate own

/-- The header of each printf tensor lies in its section. -/
def GraphInfo.HeadersFit (info : GraphInfo) : Prop :=
  ∀ desc ∈ info.plogData, ∀ sec,
    info.tbufTempl.reuseSections[desc.refSectionIter.toNat]? = some sec →
      desc.offsetInSection.toNat + 8 ≤ sec.size.toNat

/-- The kernel refuses a request with an error code only (`KernelMalloc.TellsErrors`), answers
soundly and shares nothing twice, and frees what it is asked to.  The file has reuse sections, as
every file that is parsed, and keeps its own promises: its sections end within the words, its printf
headers lie in their sections, and what `build_new_job` writes fits in its buffers.  A graph is
unloaded when it has no thread buffers, and the application and the device do not write into an
image. -/
def ImageContext.Proper (s : ImageContext) : ImageAction → Prop
  | .loadGraph info kernel => (kernel.text.Sound ∧ kernel.static.Rounds) ∧
      SectionsFit info.pbufTempl.staticSections ∧ info.tbufTempl.reuseSections ≠ [] ∧
      ∀ id shmOffset ret g es,
        GraphObject.load id shmOffset info kernel = some (ret, g, es) →
        s.GrantsApart es ∧ (ret = .success → g.pbuf.text.Separate g.pbuf.staticGroup)
  | .unloadGraph id oks => (∀ ok ∈ oks, ok = true) ∧
      ∀ g, s.getGraphObject id = some g → g.UnloadSafe oks
  | .call id c => ∀ g, s.getGraphObject id = some g → SoundAnswers g c ∧
      (∀ g' es, graphObjectStep g c = some (g', es) → s.GrantsApart es) ∧
      match c with
      | .allocThreadBuffer kernel => kernel.reuse.Rounds ∧
          SectionsFit g.info.tbufTempl.reuseSections ∧ g.info.HeadersFit
      | .buildNewJob handle _ => ∀ tbuf, g.getTbufPtr handle = some tbuf → tbuf.isFree = true →
          g.OffsetsFit tbuf
      | _ => True
  | .write p _ => ∀ id g, s.getGraphObject id = some g → ∀ buf ∈ g.imageBufs, ¬buf.Has p

/-! ## What the writes leave alone -/

section Frame

variable {binary mem : Memory} {p : ℕ}

/-- The write covers the byte at the address. -/
def HostWrite.Covers (w : HostWrite) (p : ℕ) : Prop := w.span.1 ≤ p ∧ p < w.span.1 + w.span.2

/-- A write leaves the other bytes alone. -/
theorem HostWrite.run_of_outside {w : HostWrite} (h : ¬w.Covers p) :
    w.run binary mem p = mem p := by
  cases w with
  | load dest src bytes => exact (copyBytes_apply dest src bytes p).trans (if_neg h)
  | patch dest subSecPa addrMask => exact if_neg h
  | store dest value => exact if_neg h

/-- Writes leave the other bytes alone. -/
theorem runWrites_of_outside {writes : List HostWrite} (h : ∀ w ∈ writes, ¬w.Covers p) :
    runWrites binary mem writes p = mem p := by
  unfold runWrites
  induction writes generalizing mem with
  | nil => rfl
  | cons w rest ih =>
    rw [List.forall_mem_cons] at h
    rw [List.foldl_cons, ih h.2, HostWrite.run_of_outside h.1]

/-- What is written inside a buffer covers no byte outside it. -/
theorem HostWrite.Inside.not_covers {w : HostWrite} {buf : BufferDesc} (h : w.Inside buf)
    (hp : ¬buf.Has p) : ¬w.Covers p := fun hcovers => hp (h p hcovers.1 hcovers.2)

/-- Buffers that share nothing have no byte in common. -/
theorem BufferDesc.Separate.not_has {x y : BufferDesc} (h : x.Separate y) (hx : x.Has p) :
    ¬y.Has p := by
  intro hy
  have hmapped := h.mapped
  unfold RangesDisjoint at hmapped
  unfold BufferDesc.Has at hx hy
  omega

/-- Clearing the headers leaves the other bytes alone. -/
theorem ThreadBufferInfo.initPrintf_of_outside {tbuf : ThreadBufferInfo}
    (h : ∀ t ∈ tbuf.iobuf.plogData, ¬(t.va ≤ p ∧ p < t.va + 8)) :
    tbuf.initPrintf mem p = mem p := by
  unfold ThreadBufferInfo.initPrintf
  generalize tbuf.iobuf.plogData = tensors at h
  induction tensors generalizing mem with
  | nil => rfl
  | cons t rest ih =>
    rw [List.forall_mem_cons] at h
    rw [List.foldl_cons, ih h.2]
    exact storeBytes_of_outside h.1

end Frame

/-! ## Loading -/

section Load

variable {binary mem : Memory} {kernel : KernelMalloc} {sections : List SectionDesc}
  {bufs : List BufferDesc} {garbage old group : BufferDesc} {dtype : ℕ} {es : List BufferEvent}

/-- Copies into places that follow each other leave each section as it is in the file. -/
theorem runWrites_staticLoads {a b : ℕ} (hpacked : Packed BufferDesc.va BufferDesc.size a b bufs)
    (hsizes : ∀ (i : ℕ) sec buf, sections[i]? = some sec → bufs[i]? = some buf →
      buf.size = sec.size.toNat) {i : ℕ} {sec : SectionDesc} {buf : BufferDesc}
    (hsec : sections[i]? = some sec) (hbuf : bufs[i]? = some buf) {q : ℕ}
    (hq : q < sec.size.toNat) :
    runWrites binary mem (staticLoads sections bufs) (buf.va + q) = binary (sec.loadSrc + q) := by
  induction sections generalizing bufs a mem i with
  | nil => cases hsec
  | cons first rest ih =>
    cases bufs with
    | nil => cases hbuf
    | cons x xs =>
      obtain ⟨-, hrest⟩ := packed_cons.mp hpacked
      have hlater : ∀ (j : ℕ) sec' buf', rest[j]? = some sec' → xs[j]? = some buf' →
          buf'.size = sec'.size.toNat := fun j => hsizes (j + 1)
      cases i with
      | succ i => exact ih hrest hlater hsec hbuf
      | zero =>
        obtain rfl := Option.some.inj hsec
        obtain rfl := Option.some.inj hbuf
        have hsize : x.size = first.size.toNat := hsizes 0 first x rfl rfl
        -- the copies that follow go behind the first place
        have hbehind : ∀ w ∈ staticLoads rest xs, ¬w.Covers (x.va + q) := by
          intro w hw hcovers
          obtain ⟨j, hj, rfl⟩ := List.mem_iff_getElem.mp hw
          rw [staticLoads, List.length_zipWith] at hj
          have hlt : j < xs.length := by omega
          have hbounds := (hrest.bounds (List.getElem_mem hlt)).1
          have hspan : xs[j].va ≤ x.va + q := by
            have hstart := hcovers.1
            simp only [staticLoads, List.getElem_zipWith, HostWrite.span] at hstart
            exact hstart
          omega
        calc runWrites binary mem (staticLoads (first :: rest) (x :: xs)) (x.va + q)
          _ = runWrites binary (copyBytes binary mem x.va first.loadSrc first.size.toNat)
                (staticLoads rest xs) (x.va + q) := rfl
          _ = copyBytes binary mem x.va first.loadSrc first.size.toNat (x.va + q) :=
            runWrites_of_outside hbehind
          _ = binary (first.loadSrc + q) := by
            rw [copyBytes_apply, if_pos (by omega), Nat.add_sub_cancel_left]

/-- The places of the sections follow each other in the group. -/
theorem allocGroupBuffers_packed (hkernel : kernel.Rounds)
    (h : allocGroupBuffers kernel sections dtype garbage old = some (.ok (bufs, group), es))
    (hfits : SectionsFit sections) :
    Packed BufferDesc.va BufferDesc.size group.va (group.va + group.size) bufs := by
  rcases allocGroupBuffers_cases h with
    ⟨rfl, rfl, rfl, -⟩ | ⟨first, rest, offsets, totBytes, rfl, hlayout, hbuf, rfl⟩
  · exact Nat.le_add_right _ _
  obtain ⟨-, hlarge, hwithin⟩ := mallocBuf_ok hkernel.sound hbuf
  have hmapped := hwithin.mapped
  obtain ⟨desc, ptr, _, _, hgrant, -, hsize⟩ := hkernel.sound.tells.mallocBuf_grant hbuf
  have hrounded := hkernel.rounded _ _ _ _ _ hgrant
  rw [← hsize] at hrounded
  have hpacked := (packed_childBufs (a := 0) BufferDesc.va (fun _ _ => rfl) (by omega) hlarge
    hrounded (by decide) hlayout).mpr ⟨Nat.le_refl 0, hfits⟩
  rwa [Nat.add_zero] at hpacked

/-- The places have the sizes of the sections. -/
theorem Grouped.sizes (h : Grouped sections bufs group) (i : ℕ) (sec : SectionDesc)
    (buf : BufferDesc) (hsec : sections[i]? = some sec) (hbuf : bufs[i]? = some buf) :
    buf.size = sec.size.toNat := by
  obtain ⟨offset, -, -, hchild⟩ := h.child i sec hsec
  rw [hbuf] at hchild
  rw [Option.some.inj hchild, childBuf_size]

/-- A copy into the static group covers no byte outside it. -/
theorem staticLoads_inside (hkernel : kernel.Rounds)
    (h : allocGroupBuffers kernel sections dtype garbage old = some (.ok (bufs, group), es))
    (hfits : SectionsFit sections) : ∀ w ∈ staticLoads sections bufs, w.Inside group :=
  ((groupInside_iff hkernel h).mpr hfits).loads

variable {id shmOffset : ℕ} {info : GraphInfo} {answers : LoadMalloc} {g : GraphObject}
  {ret : AipuStatus} {p : ℕ}

/-- `load` writes into what it has allocated. -/
theorem GraphObject.loadMemory_of_outside (htext : answers.text.Sound)
    (hstatic : answers.static.Rounds) (hfits : SectionsFit info.pbufTempl.staticSections)
    (h : GraphObject.load id shmOffset info answers = some (ret, g, es))
    (hp : ∀ buf, .allocated buf ∈ es → ¬buf.Has p) :
    GraphObject.loadMemory binary mem info answers p = mem p := by
  unfold GraphObject.load at h
  unfold GraphObject.loadMemory
  dsimp only at h ⊢
  rcases htextBuf : allocTextBuffer answers.text info.pbufTempl {} with ⟨e | textBuf, es₁⟩
  · rfl
  rw [htextBuf] at h
  dsimp only at h ⊢
  obtain ⟨hlarge, -, rfl⟩ := allocTextBuffer_ok htext htextBuf
  cases hret : loadTextBuffer info.pbufTempl.textSrc info.pbufTempl.textSize textBuf with
  | success =>
    rw [hret] at h
    obtain ⟨⟨res, es₂⟩, hgroup, h⟩ := Option.map_eq_some_iff.mp h
    have hes : es = [.allocated textBuf] ++ es₂ := by
      cases res <;> exact (Prod.mk.inj (Prod.mk.inj h).2).2.symm
    rw [hes] at hp
    have hcopy : copyBytes binary mem textBuf.va info.pbufTempl.textSrc
        info.pbufTempl.textSize.toNat p = mem p := by
      have hfree := hp textBuf (by simp)
      unfold BufferDesc.Has at hfree
      rw [copyBytes_apply, if_neg (by omega)]
    rw [hgroup]
    cases res with
    | error e => exact hcopy
    | ok placed =>
      obtain ⟨bufs, group⟩ := placed
      refine (runWrites_of_outside fun w hw => ?_).trans hcopy
      refine (staticLoads_inside hstatic hgroup hfits w hw).not_covers fun hhas => ?_
      have hsections : info.pbufTempl.staticSections ≠ [] := by
        intro hnone
        rw [hnone] at hw
        cases hw
      obtain rfl := allocGroupBuffers_events hstatic.sound.tells hgroup hsections
      exact hp group (by simp) hhas
  | _ => rfl

/-- A graph that was loaded has its image in memory. -/
theorem GraphObject.loadMemory_intact (hstatic : answers.static.Rounds)
    (hfits : SectionsFit info.pbufTempl.staticSections)
    (h : GraphObject.load id shmOffset info answers = some (.success, g, es))
    (htext : answers.text.Sound) (hapart : g.pbuf.text.Separate g.pbuf.staticGroup) :
    g.Intact binary (GraphObject.loadMemory binary mem info answers) := by
  obtain ⟨textBuf, es₁, staticBuf, staticGroup, es₂, htextBuf, hret, hgroup, rfl, -⟩ :=
    GraphObject.load_cases h
  have hmem : GraphObject.loadMemory binary mem info answers =
      runWrites binary (copyBytes binary mem textBuf.va info.pbufTempl.textSrc
        info.pbufTempl.textSize.toNat) (staticLoads info.pbufTempl.staticSections staticBuf) := by
    unfold GraphObject.loadMemory
    dsimp only
    rw [htextBuf]
    dsimp only
    rw [hret, hgroup]
  have hplaced := allocGroupBuffers_ok hstatic.sound hgroup
  rw [hmem]
  constructor
  · rintro q hq -
    replace hq : q < info.pbufTempl.textSize.toNat := hq
    have hlarge := (allocTextBuffer_ok htext htextBuf).1
    have hhas : textBuf.Has (textBuf.va + q) := ⟨Nat.le_add_right _ _, by omega⟩
    refine (runWrites_of_outside fun w hw => ?_).trans ?_
    · exact (staticLoads_inside hstatic hgroup hfits w hw).not_covers (hapart.not_has hhas)
    · dsimp only
      rw [copyBytes_apply, if_pos (by omega), Nat.add_sub_cancel_left]
  · intro i sec hsec
    obtain ⟨offset, -, -, hchild⟩ := hplaced.child i sec hsec
    refine ⟨_, hchild, fun q hq => ?_⟩
    exact runWrites_staticLoads (allocGroupBuffers_packed hstatic hgroup hfits)
      (fun j => hplaced.sizes j) hsec hchild hq

end Load

/-! ## The calls on a graph -/

section Calls

variable {binary mem : Memory} {g g' : GraphObject} {c : GraphCall} {es : List BufferEvent} {p : ℕ}

/-- What `build_new_job` writes lies in the rodata, or it is the word of a node in the text. -/
theorem GraphObject.GrantedBy.buildNewJob_covers (h : g.GrantedBy ThreadBufferMalloc.Sound)
    {handle addr : ℕ} {ret : AipuStatus} {new : Option ℕ} {writes : List HostWrite}
    (hcall : g.buildNewJob handle addr = some (ret, g', new, writes))
    (hfit : ∀ tbuf, g.getTbufPtr handle = some tbuf → tbuf.isFree = true → g.OffsetsFit tbuf)
    {w : HostWrite} (hw : w ∈ writes) (hcovers : w.Covers p) :
    (∃ tbuf, g.getTbufPtr handle = some tbuf ∧ tbuf.rodata.Has p) ∨
      ∃ q < g.pbuf.text.size, p = g.pbuf.text.va + q ∧ g.info.LinksText q := by
  by_cases hfree : ∃ tbuf, g.getTbufPtr handle = some tbuf ∧ tbuf.isFree = true
  · obtain ⟨tbuf, htbuf, hfree⟩ := hfree
    have hplaced := (h.mono fun _ hsound => hsound.2.1).tbufs.rodataPlaced htbuf
    have hmapped := hplaced.within.mapped
    have hoffsets := hfit tbuf htbuf hfree
    rw [GraphObject.buildNewJob_writes htbuf hfree hcall] at hw
    rcases List.mem_append.mp hw with hfront | hlink
    · refine .inl ⟨tbuf, htbuf, ?_⟩
      have hinside : w.Inside tbuf.rodata := by
        rcases List.mem_append.mp hfront with hload | hpatch
        · exact (GraphObject.loads_inside hplaced).mpr ⟨hoffsets.rodata, hoffsets.descriptor⟩ w
            hload
        · exact (GraphObject.patches_inside (by omega) _).mpr hoffsets.entries w hpatch
      exact hinside p hcovers.1 hcovers.2
    · obtain ⟨node, hnode, rfl⟩ := List.mem_map.mp hlink
      unfold GraphObject.writtenNodes at hnode
      split_ifs at hnode with hwritten
      · obtain ⟨rfl, hlinked⟩ := hwritten
        have hrange := (GraphObject.buildNewJob_free htbuf hfree hcall).1.mp rfl
        have hfits := hoffsets.nodes hrange hlinked node hnode
        have hinside := (GraphObject.linkNode_inside h.text hplaced node).mpr hfits p
          hcovers.1 hcovers.2
        unfold GraphObject.nodeBuf at hinside
        by_cases htype : node.type = 2
        · rw [if_pos htype] at hinside
          refine .inr ⟨p - g.pbuf.text.va, by omega, by omega, hlinked, node, hnode, htype, ?_⟩
          -- the word of the node begins at its offset in the text
          have htext := h.text.mapped
          have hoffset := node.nextAddrEntryOffset.toNat_lt
          have hstart : (g.linkNode tbuf node).span =
              (g.pbuf.text.va + node.nextAddrEntryOffset.toNat, 4) := by
            have hbase : g.baseBuf tbuf node.type = g.pbuf.text := by
              rw [htype]
              rfl
            rw [GraphObject.linkNode, HostWrite.span, hbase, wrap_of_lt (by omega)]
          unfold HostWrite.Covers at hcovers
          rw [hstart] at hcovers
          omega
        · rw [if_neg htype] at hinside
          exact .inl ⟨tbuf, htbuf, hinside⟩
      · cases hnode
  · have hbusy : ∀ tbuf, g.getTbufPtr handle = some tbuf → tbuf.isFree = false := by
      intro tbuf htbuf
      by_contra hfree'
      exact hfree ⟨tbuf, htbuf, by simpa using hfree'⟩
    obtain ⟨ret', -, hcall'⟩ := GraphObject.buildNewJob_busy addr hbusy
    obtain ⟨-, heq⟩ := Prod.mk.inj (Option.some.inj (hcall.symm.trans hcall'))
    obtain ⟨-, heq⟩ := Prod.mk.inj heq
    obtain ⟨-, rfl⟩ := Prod.mk.inj heq
    cases hw

/-- The header of a printf tensor lies in the reuse group. -/
theorem ThreadBufferInfo.Allocated.header_has {tbuf : ThreadBufferInfo}
    {kernel : ThreadBufferMalloc} {regionId : ℕ} {info : GraphInfo} {es₁ es₂ es₃ : List BufferEvent}
    (h : tbuf.Allocated kernel regionId info es₁ es₂ es₃) (hkernel : kernel.reuse.Rounds)
    (hfits : SectionsFit info.tbufTempl.reuseSections) (hheaders : info.HeadersFit)
    {t : TensorBuffer} (ht : t ∈ tbuf.iobuf.plogData) (hp : t.va ≤ p ∧ p < t.va + 8) :
    tbuf.reuseGroup.Has p := by
  have hgrouped := allocGroupBuffers_ok hkernel.sound h.reuse
  have hpacked := allocGroupBuffers_packed hkernel h.reuse hfits
  obtain ⟨i, hi⟩ := List.mem_iff_getElem?.mp ht
  obtain ⟨desc, hdesc, htensor⟩ :=
    createIobufInfo_getElem (createIobufInfos_tensors h.tensors .plog) hi
  obtain ⟨sec, offset, hsec, -, hchild, hva, hplace, -⟩ := hgrouped.tensor_place htensor
  have hheader := hheaders desc (List.mem_of_getElem? hdesc) sec hsec
  have hbounds := hpacked.bounds (List.mem_of_getElem? hchild)
  rw [hva, childBuf_size] at hbounds
  unfold BufferDesc.Has
  omega

/-- A call leaves the bytes alone that are in no thread buffer, in no buffer that it allocates and
in no word of a node in the text. -/
theorem GraphObject.GrantedBy.callMemory_of_outside (h : g.GrantedBy ThreadBufferMalloc.Sound)
    (hreuse : g.info.tbufTempl.reuseSections ≠ []) (hsound : SoundAnswers g c)
    (hstep : graphObjectStep g c = some (g', es))
    (halloc : ∀ kernel, c = .allocThreadBuffer kernel → kernel.reuse.Rounds ∧
      SectionsFit g.info.tbufTempl.reuseSections ∧ g.info.HeadersFit)
    (hbuild : ∀ handle addr, c = .buildNewJob handle addr → ∀ tbuf,
      g.getTbufPtr handle = some tbuf → tbuf.isFree = true → g.OffsetsFit tbuf)
    (hheld : ∀ handle tbuf, g.getTbufPtr handle = some tbuf → ∀ buf ∈ tbuf.bufs, ¬buf.Has p)
    (hnew : ∀ buf, .allocated buf ∈ es → ¬buf.Has p)
    (hlink : ∀ q < g.pbuf.text.size, p = g.pbuf.text.va + q → ¬g.info.LinksText q) :
    g.callMemory binary mem c p = mem p := by
  cases c with
  | allocThreadBuffer kernel =>
    obtain ⟨⟨ret, g₁, new, es₁⟩, hcall, heq⟩ := Option.map_eq_some_iff.mp hstep
    obtain ⟨rfl, rfl⟩ := Prod.mk.inj heq
    obtain ⟨hrounds, hfits, hheaders⟩ := halloc kernel rfl
    rw [GraphObject.callMemory, hcall]
    cases new with
    | none => rfl
    | some handle =>
      dsimp only
      cases htbuf : g₁.getTbufPtr handle with
      | none => rfl
      | some tbuf =>
        refine ThreadBufferInfo.initPrintf_of_outside fun t ht hp => ?_
        obtain ⟨-, es₁, es₂, es₃, hstored, rfl⟩ := GraphObject.allocThreadBuffer_new hcall htbuf
        have hallocated := hstored.allocated hsound hreuse tbuf.reuseGroup
          (List.mem_cons_of_mem _ (List.mem_cons_of_mem _ List.mem_cons_self))
        exact hnew tbuf.reuseGroup hallocated (hstored.header_has hrounds hfits hheaders ht hp)
  | buildNewJob handle addr =>
    obtain ⟨⟨ret, g₁, new, writes⟩, hcall, -⟩ := Option.map_eq_some_iff.mp hstep
    refine runWrites_of_outside fun w hw hcovers => ?_
    rw [GraphObject.hostWrites, hcall] at hw
    rcases h.buildNewJob_covers hcall (hbuild handle addr rfl) hw hcovers with
      ⟨tbuf, htbuf, hhas⟩ | ⟨q, hq, hplace, hlinks⟩
    · exact hheld handle tbuf htbuf tbuf.rodata List.mem_cons_self hhas
    · exact hlink q hq hplace hlinks
  | freeThreadBuffer | flushJob | waitForJobEnd | pollJobStatus | cleanJob => rfl

/-- The buffers of the thread buffers after a call were there before, or they were allocated. -/
theorem graphObjectStep_threadBuf (hreuse : g.info.tbufTempl.reuseSections ≠ [])
    (hsound : SoundAnswers g c) (h : graphObjectStep g c = some (g', es)) {buf : BufferDesc}
    (hbuf : g'.ThreadBuf buf) : g.ThreadBuf buf ∨ .allocated buf ∈ es := by
  obtain ⟨handle, tbuf, htbuf, hbuf⟩ := hbuf
  rcases graphObjectStep_places h with hkeep | ⟨kernel, ret, new, rfl, hcall⟩
  · obtain ⟨tbuf₀, htbuf₀, heq⟩ := hkeep.tbufs handle tbuf htbuf
    rw [heq] at hbuf
    exact .inl ⟨handle, tbuf₀, htbuf₀, hbuf⟩
  · rcases GraphObject.allocThreadBuffer_cases hcall with
      ⟨rfl, -⟩ | ⟨new, -, -, -, -, rfl, es₁, es₂, es₃, halloc, rfl⟩
    · exact .inl ⟨handle, tbuf, htbuf, hbuf⟩
    · rw [GraphObject.getTbufPtr, lookup_insert] at htbuf
      split_ifs at htbuf
      · obtain rfl := Option.some.inj htbuf
        exact .inr (halloc.allocated hsound hreuse buf hbuf)
      · exact .inl ⟨handle, tbuf, htbuf, hbuf⟩

end Calls

/-! ## The invariant -/

section Image

variable {binary mem mem' : Memory} {g g' : GraphObject} {p : ℕ}

/-- The text is large enough, the static sections go into the static group, and the two share
nothing. -/
structure GraphObject.ImagePlaced (g : GraphObject) : Prop where
  text : g.info.pbufTempl.textSize.toNat ≤ g.pbuf.text.size
  static : ∀ w ∈ staticLoads g.info.pbufTempl.staticSections g.pbuf.staticBuf,
    w.Inside g.pbuf.staticGroup
  apart : g.pbuf.text.Separate g.pbuf.staticGroup

/-- A byte of the static group, or a byte of the text that belongs to no node. -/
def GraphObject.ImageByte (g : GraphObject) (p : ℕ) : Prop :=
  g.pbuf.staticGroup.Has p ∨
    ∃ q < g.pbuf.text.size, p = g.pbuf.text.va + q ∧ ¬g.info.LinksText q

/-- The byte is in a buffer of the image. -/
theorem GraphObject.ImageByte.has (h : g.ImageByte p) : ∃ buf ∈ g.imageBufs, buf.Has p := by
  rcases h with hstatic | ⟨q, hq, rfl, -⟩
  · exact ⟨_, List.mem_cons_of_mem _ List.mem_cons_self, hstatic⟩
  · exact ⟨_, List.mem_cons_self, Nat.le_add_right _ _, by omega⟩

/-- The byte belongs to no node. -/
theorem GraphObject.ImageByte.not_linked (h : g.ImageByte p) (hplaced : g.ImagePlaced) :
    ∀ q < g.pbuf.text.size, p = g.pbuf.text.va + q → ¬g.info.LinksText q := by
  rintro q hq rfl
  rcases h with hstatic | ⟨q', -, heq, hlinks⟩
  · exact absurd hstatic (hplaced.apart.not_has ⟨Nat.le_add_right _ _, by omega⟩)
  · rwa [Nat.add_left_cancel heq]

/-- The image is intact as long as its bytes stay. -/
theorem GraphObject.Intact.agree (h : g.Intact binary mem) (hplaced : g.ImagePlaced)
    (hagree : ∀ p, g.ImageByte p → mem' p = mem p) : g.Intact binary mem' := by
  constructor
  · intro q hq hlinks
    rw [hagree _ (.inr ⟨q, hq.trans_le hplaced.text, rfl, hlinks⟩)]
    exact h.text q hq hlinks
  · intro i sec hsec
    obtain ⟨buf, hbuf, hbytes⟩ := h.static i sec hsec
    refine ⟨buf, hbuf, fun q hq => ?_⟩
    have hload : (.load buf.va sec.loadSrc sec.size.toNat) ∈
        staticLoads g.info.pbufTempl.staticSections g.pbuf.staticBuf := by
      refine List.mem_of_getElem? (i := i) ?_
      rw [staticLoads, List.getElem?_zipWith, hsec, hbuf]
    have hhas : g.pbuf.staticGroup.Has (buf.va + q) :=
      hplaced.static _ hload _ (Nat.le_add_right _ _) (Nat.add_lt_add_left hq _)
    rw [hagree _ (.inl hhas)]
    exact hbytes q hq

/-- Where an image is placed depends on the file and the buffers of the program alone. -/
theorem GraphObject.ImagePlaced.congr (h : g.ImagePlaced) (hinfo : g'.info = g.info)
    (hpbuf : g'.pbuf = g.pbuf) : g'.ImagePlaced := by
  constructor
  all_goals rw [hpbuf]
  · rw [hinfo]
    exact h.text
  · rw [hinfo]
    exact h.static
  · exact h.apart

/-- Whether an image is intact depends on the same. -/
theorem GraphObject.Intact.congr (h : g.Intact binary mem) (hinfo : g'.info = g.info)
    (hpbuf : g'.pbuf = g.pbuf) : g'.Intact binary mem := by
  constructor
  all_goals rw [hpbuf, hinfo]
  · exact h.text
  · exact h.static

end Image

/-- The invariant: each graph has its image where it was put, what it was put into shares nothing
with what else the context has, and it is intact. -/
structure ImageContext.Inv (s : ImageContext) (binary : Memory) : Prop where
  granted : ∀ id g, s.getGraphObject id = some g → g.GrantedBy ThreadBufferMalloc.Sound
  reuse : ∀ id g, s.getGraphObject id = some g → g.info.tbufTempl.reuseSections ≠ []
  backed : ∀ id g, s.getGraphObject id = some g → g.Backed
  placed : ∀ id g, s.getGraphObject id = some g → g.ImagePlaced
  images : ∀ id g id' g', s.getGraphObject id = some g → s.getGraphObject id' = some g' →
    id ≠ id' → ∀ x ∈ g.imageBufs, ∀ y ∈ g'.imageBufs, x.Separate y
  threadBufs : ∀ id g id' g', s.getGraphObject id = some g → s.getGraphObject id' = some g' →
    ∀ x ∈ g.imageBufs, ∀ y, g'.ThreadBuf y → x.Separate y
  intact : ∀ id g, s.getGraphObject id = some g → g.Intact binary s.mem

section Steps

variable {binary : Memory} {shmOffset : ℕ} {s s' : ImageContext} {es : List BufferEvent}

/-- The graphs stay, up to their thread buffers, and so do the bytes of the images. -/
theorem ImageContext.Inv.keep (h : s.Inv binary) (hgrants : s.GrantsApart es)
    (horigin : ∀ id g', s'.getGraphObject id = some g' → ∃ g, s.getGraphObject id = some g ∧
      g'.info = g.info ∧ g'.pbuf = g.pbuf ∧ g'.GrantedBy ThreadBufferMalloc.Sound ∧
      ∀ y, g'.ThreadBuf y → g.ThreadBuf y ∨ .allocated y ∈ es)
    (hmem : ∀ id g, s.getGraphObject id = some g → ∀ p, g.ImageByte p → s'.mem p = s.mem p) :
    s'.Inv binary := by
  have himage : ∀ {g g' : GraphObject}, g'.pbuf = g.pbuf → g'.imageBufs = g.imageBufs := by
    intro g g' hpbuf
    rw [GraphObject.imageBufs, GraphObject.imageBufs, hpbuf]
  constructor
  · intro id g' hg'
    obtain ⟨g, -, -, -, hgranted, -⟩ := horigin id g' hg'
    exact hgranted
  · intro id g' hg'
    obtain ⟨g, hg, hinfo, -⟩ := horigin id g' hg'
    rw [hinfo]
    exact h.reuse id g hg
  · intro id g' hg'
    obtain ⟨g, hg, -, hpbuf, -⟩ := horigin id g' hg'
    have hbacked := h.backed id g hg
    constructor
    all_goals rw [hpbuf]
    exacts [hbacked.text_va, hbacked.text_size, hbacked.static]
  · intro id g' hg'
    obtain ⟨g, hg, hinfo, hpbuf, -⟩ := horigin id g' hg'
    exact (h.placed id g hg).congr hinfo hpbuf
  · intro id g₁ id' g₂ hg₁ hg₂ hne x hx y hy
    obtain ⟨g, hg, -, hpbuf, -⟩ := horigin id g₁ hg₁
    obtain ⟨g', hg', -, hpbuf', -⟩ := horigin id' g₂ hg₂
    rw [himage hpbuf] at hx
    rw [himage hpbuf'] at hy
    exact h.images id g id' g' hg hg' hne x hx y hy
  · intro id g₁ id' g₂ hg₁ hg₂ x hx y hy
    obtain ⟨g, hg, -, hpbuf, -⟩ := horigin id g₁ hg₁
    obtain ⟨g', hg', -, -, -, hbufs⟩ := horigin id' g₂ hg₂
    rw [himage hpbuf] at hx
    rcases hbufs y hy with hold | hnew
    · exact h.threadBufs id g id' g' hg hg' x hx y hold
    · exact (hgrants y hnew x ⟨id, g, hg, .inl hx⟩).symm
  · intro id g' hg'
    obtain ⟨g, hg, hinfo, hpbuf, -⟩ := horigin id g' hg'
    exact ((h.intact id g hg).agree (h.placed id g hg) (hmem id g hg)).congr hinfo hpbuf

/-- A buffer without bytes shares nothing with another one. -/
theorem BufferDesc.separate_empty (buf : BufferDesc) : ({} : BufferDesc).Separate buf :=
  ⟨.inl (Nat.zero_le _), .inl (Nat.zero_le _)⟩

/-- The image of a graph that was loaded lies in what `load` has allocated. -/
theorem GraphObject.load_imageBufs {id : ℕ} {info : GraphInfo} {kernel : LoadMalloc}
    {g : GraphObject} (htext : kernel.text.Sound) (hstatic : kernel.static.TellsErrors)
    (h : GraphObject.load id shmOffset info kernel = some (.success, g, es)) {x : BufferDesc}
    (hx : x ∈ g.imageBufs) : x = {} ∨ .allocated x ∈ es := by
  obtain ⟨textBuf, es₁, staticBuf, staticGroup, es₂, htextBuf, -, hgroup, rfl, rfl⟩ :=
    GraphObject.load_cases h
  obtain ⟨-, -, rfl⟩ := allocTextBuffer_ok htext htextBuf
  simp only [GraphObject.imageBufs, List.mem_cons, List.not_mem_nil, or_false] at hx
  rcases hx with rfl | rfl
  · exact .inr (by simp)
  · rcases allocGroupBuffers_cases hgroup with ⟨-, -, rfl, -⟩ | ⟨_, _, _, _, -, -, hbuf, -⟩
    · exact .inl rfl
    · obtain ⟨-, rfl, -⟩ := hstatic.mallocBuf_granted hbuf
      exact .inr (by simp)

/-- A graph that was loaded comes with its image. -/
theorem ImageContext.Inv.load (h : s.Inv binary) {id : ℕ} {info : GraphInfo}
    {kernel : LoadMalloc} {g : GraphObject} (hproper : s.Proper (.loadGraph info kernel))
    (hload : GraphObject.load id shmOffset info kernel = some (.success, g, es)) :
    (⟨insert s.graphs id g, GraphObject.loadMemory binary s.mem info kernel⟩ :
      ImageContext).Inv binary := by
  obtain ⟨⟨htext, hstatic⟩, hfits, hreuse, hserved⟩ := hproper
  obtain ⟨hgrants, hsuccess⟩ := hserved id shmOffset .success g es hload
  have hapart := hsuccess rfl
  have hget : ∀ i, (⟨insert s.graphs id g, GraphObject.loadMemory binary s.mem info kernel⟩ :
      ImageContext).getGraphObject i = if i = id then some g else s.getGraphObject i :=
    fun _ => lookup_insert
  obtain ⟨textBuf, _, staticBuf, staticGroup, _, htextBuf, -, hgroup, hg, -⟩ :=
    GraphObject.load_cases hload
  -- the new image shares nothing with what there was
  have hnew : ∀ x ∈ g.imageBufs, ∀ y, s.Mapped y → x.Separate y := by
    intro x hx y hy
    rcases GraphObject.load_imageBufs htext hstatic.sound.tells hload hx with rfl | halloc
    · exact y.separate_empty
    · exact hgrants x halloc y hy
  have htbufs : ∀ y, ¬g.ThreadBuf y := by
    rintro y ⟨handle, tbuf, htbuf, -⟩
    rw [hg] at htbuf
    cases htbuf
  constructor
  · intro i g₁ hg₁
    rw [hget] at hg₁
    split_ifs at hg₁
    · obtain rfl := Option.some.inj hg₁
      exact GraphObject.load_grantedBy _ htext hload
    · exact h.granted i g₁ hg₁
  · intro i g₁ hg₁
    rw [hget] at hg₁
    split_ifs at hg₁
    · obtain rfl := Option.some.inj hg₁
      rw [(GraphObject.load_info hload).1]
      exact hreuse
    · exact h.reuse i g₁ hg₁
  · intro i g₁ hg₁
    rw [hget] at hg₁
    split_ifs at hg₁
    · obtain rfl := Option.some.inj hg₁
      exact GraphObject.load_backed (.inl hstatic.sound.tells) hload
    · exact h.backed i g₁ hg₁
  · intro i g₁ hg₁
    rw [hget] at hg₁
    split_ifs at hg₁
    · obtain rfl := Option.some.inj hg₁
      refine ⟨?_, ?_, hapart⟩
      · rw [hg]
        exact (allocTextBuffer_ok htext htextBuf).1
      · rw [hg]
        exact staticLoads_inside hstatic hgroup hfits
    · exact h.placed i g₁ hg₁
  · intro i g₁ i' g₂ hg₁ hg₂ hne x hx y hy
    rw [hget] at hg₁ hg₂
    split_ifs at hg₁ hg₂ with hi hi'
    · exact absurd (hi.trans hi'.symm) hne
    · obtain rfl := Option.some.inj hg₁
      exact hnew x hx y ⟨i', g₂, hg₂, .inl hy⟩
    · obtain rfl := Option.some.inj hg₂
      exact (hnew y hy x ⟨i, g₁, hg₁, .inl hx⟩).symm
    · exact h.images i g₁ i' g₂ hg₁ hg₂ hne x hx y hy
  · intro i g₁ i' g₂ hg₁ hg₂ x hx y hy
    rw [hget] at hg₁ hg₂
    split_ifs at hg₂ with hi'
    · obtain rfl := Option.some.inj hg₂
      exact absurd hy (htbufs y)
    · split_ifs at hg₁ with hi
      · obtain rfl := Option.some.inj hg₁
        exact hnew x hx y ⟨i', g₂, hg₂, .inr hy⟩
      · exact h.threadBufs i g₁ i' g₂ hg₁ hg₂ x hx y hy
  · intro i g₁ hg₁
    rw [hget] at hg₁
    split_ifs at hg₁
    · obtain rfl := Option.some.inj hg₁
      exact GraphObject.loadMemory_intact hstatic hfits hload htext hapart
    · refine (h.intact i g₁ hg₁).agree (h.placed i g₁ hg₁) fun p hp => ?_
      refine GraphObject.loadMemory_of_outside htext hstatic hfits hload fun buf halloc hhas => ?_
      obtain ⟨own, hown, hownHas⟩ := hp.has
      exact (hgrants buf halloc own ⟨i, g₁, hg₁, .inl hown⟩).not_has hhas hownHas

/-- The graph with the id becomes another one. -/
theorem ImageContext.getGraphObject_adjust {id i : ℕ} {g g' : GraphObject} (mem : Memory)
    (hg : s.getGraphObject id = some g) :
    (⟨adjust s.graphs id fun _ => g', mem⟩ : ImageContext).getGraphObject i =
      if i = id then some g' else s.getGraphObject i := by
  unfold ImageContext.getGraphObject at hg ⊢
  rw [lookup_adjust]
  split_ifs with hi
  · rw [hi, hg, Option.map_some]
  · exact Option.map_id'

/-- When the kernel frees everything, a safe attempt to unload a graph changes nothing, or it
succeeds. -/
theorem GraphObject.Backed.unload_cases {g g' : GraphObject} (h : g.Backed) {oks : Oracle}
    (hall : ∀ ok ∈ oks, ok = true) (hsafe : g.UnloadSafe oks) {ret : AipuStatus}
    (hunload : g.unload oks = some (ret, g', es)) : ret = .success ∨ g' = g := by
  cases hok : g.isUnloadOk with
  | false =>
    rw [GraphObject.unload, hok, if_neg Bool.false_ne_true] at hunload
    exact .inr (Prod.mk.inj (Prod.mk.inj (Option.some.inj hunload)).2).1.symm
  | true =>
    obtain ⟨ret', g₁, es₁, hcall, hwhole, -⟩ := h.unloadsWhole_iff.mpr hsafe
    obtain ⟨rfl, -⟩ := Prod.mk.inj (Option.some.inj (hunload.symm.trans hcall))
    exact .inl (hwhole hok hall).1

/-- A step keeps the invariant. -/
theorem ImageContext.Inv.step (h : s.Inv binary) {a : ImageAction} (hproper : s.Proper a)
    (hstep : imageStep binary shmOffset s a = some (s', es)) : s'.Inv binary := by
  have hnothing : s.GrantsApart [] := fun _ hnone => by cases hnone
  -- the graphs of a state in which nothing has changed
  have hsame : ∀ id g, s.getGraphObject id = some g → ∃ g₀, s.getGraphObject id = some g₀ ∧
      g.info = g₀.info ∧ g.pbuf = g₀.pbuf ∧ g.GrantedBy ThreadBufferMalloc.Sound ∧
      ∀ y, g.ThreadBuf y → g₀.ThreadBuf y ∨ .allocated y ∈ ([] : List BufferEvent) :=
    fun id g hg => ⟨g, hg, rfl, rfl, h.granted id g hg, fun _ => .inl⟩
  cases a with
  | loadGraph info kernel =>
    rw [imageStep] at hstep
    dsimp only at hstep
    split at hstep
    · cases hstep
    next id _ =>
      split at hstep
      · cases hstep
      next g es' hload =>
        obtain ⟨rfl, rfl⟩ := Prod.mk.inj (Option.some.inj hstep)
        exact h.load hproper hload
      next ret g es' hret hload =>
        obtain ⟨⟨htext, hstatic⟩, hfits, -, hserved⟩ := hproper
        obtain ⟨⟨ret', g', freed⟩, -, heq⟩ := Option.map_eq_some_iff.mp hstep
        obtain ⟨rfl, rfl⟩ := Prod.mk.inj heq
        have hgrants := (hserved id shmOffset ret g es' hload).1
        refine h.keep hnothing hsame fun i g₁ hg₁ p hp => ?_
        refine GraphObject.loadMemory_of_outside htext hstatic hfits hload fun buf halloc hhas => ?_
        obtain ⟨own, hown, hownHas⟩ := hp.has
        exact (hgrants buf halloc own ⟨i, g₁, hg₁, .inl hown⟩).not_has hhas hownHas
  | unloadGraph id oks =>
    obtain ⟨hall, hsafe⟩ := hproper
    rw [imageStep] at hstep
    split at hstep
    · obtain ⟨rfl, rfl⟩ := Prod.mk.inj (Option.some.inj hstep)
      exact h
    next g hg =>
      obtain ⟨⟨ret, g', freed⟩, hunload, heq⟩ := Option.map_eq_some_iff.mp hstep
      obtain ⟨rfl, rfl⟩ := Prod.mk.inj heq
      refine h.keep hnothing (fun i g₁ hg₁ => hsame i g₁ ?_) fun _ _ _ _ _ => rfl
      rcases (h.backed id g hg).unload_cases hall (hsafe g hg) hunload with rfl | rfl
      · rw [if_pos rfl, ImageContext.getGraphObject, lookup_erase] at hg₁
        split_ifs at hg₁
        exact hg₁
      · by_cases hret : ret = .success
        · rw [if_pos hret, ImageContext.getGraphObject, lookup_erase] at hg₁
          split_ifs at hg₁
          exact hg₁
        · rw [if_neg hret, ImageContext.getGraphObject_adjust _ hg] at hg₁
          split_ifs at hg₁ with hi
          · rw [hi, hg]
            exact hg₁
          · exact hg₁
  | call id c =>
    rw [imageStep] at hstep
    split at hstep
    · obtain ⟨rfl, rfl⟩ := Prod.mk.inj (Option.some.inj hstep)
      exact h
    next g hg =>
      obtain ⟨⟨g', es'⟩, hcall, heq⟩ := Option.map_eq_some_iff.mp hstep
      obtain ⟨rfl, rfl⟩ := Prod.mk.inj heq
      obtain ⟨hsound, hgrants, hcontract⟩ := hproper g hg
      have hsteps : graphObjectSystem.Steps SoundAnswers g ([] ++ es') g' :=
        .tail .refl hsound hcall
      obtain ⟨hinfo, -, hpbuf⟩ := graphObjectSystem_loaded hsteps
      refine h.keep (hgrants g' es' hcall) (fun i g₁ hg₁ => ?_) fun i g₁ hg₁ p hp => ?_
      · rw [ImageContext.getGraphObject_adjust _ hg] at hg₁
        split_ifs at hg₁ with hi
        · obtain rfl := Option.some.inj hg₁
          exact ⟨g, by rw [hi, hg], hinfo, hpbuf, (h.granted id g hg).steps hsteps,
            fun y => graphObjectStep_threadBuf (h.reuse id g hg) hsound hcall⟩
        · exact ⟨g₁, hg₁, rfl, rfl, h.granted i g₁ hg₁, fun _ => .inl⟩
      · obtain ⟨own, hown, hownHas⟩ := hp.has
        refine (h.granted id g hg).callMemory_of_outside (h.reuse id g hg) hsound hcall
          ?_ ?_ ?_ ?_ ?_
        · rintro kernel rfl
          exact hcontract
        · rintro handle addr rfl
          exact hcontract
        · intro handle tbuf htbuf buf hbuf
          exact (h.threadBufs i g₁ id g hg₁ hg own hown buf ⟨handle, tbuf, htbuf, hbuf⟩).not_has
            hownHas
        · intro buf halloc hhas
          exact (hgrants g' es' hcall buf halloc own ⟨i, g₁, hg₁, .inl hown⟩).not_has hhas hownHas
        · by_cases hi : i = id
          · obtain rfl : g = g₁ := by
              rw [hi, hg] at hg₁
              exact Option.some.inj hg₁
            exact hp.not_linked (h.placed i g hg₁)
          · rintro q hq rfl -
            refine (h.images i g₁ id g hg₁ hg hi own hown g.pbuf.text List.mem_cons_self).not_has
              hownHas ⟨Nat.le_add_right _ _, by omega⟩
  | write p b =>
    obtain ⟨rfl, rfl⟩ := Prod.mk.inj (Option.some.inj hstep)
    refine h.keep hnothing hsame fun i g₁ hg₁ p' hp' => ?_
    obtain ⟨own, hown, hownHas⟩ := hp'.has
    refine Function.update_of_ne ?_ b s.mem
    rintro rfl
    exact hproper i g₁ hg₁ own hown hownHas

end Steps

/-- What holds of the images in every run. -/
theorem imageSystem_inv {binary : Memory} {shmOffset : ℕ} {tr : List BufferEvent}
    {s : ImageContext} (h : (imageSystem binary shmOffset).Run ImageContext.Proper tr s) :
    s.Inv binary := by
  refine h.stateInvariant (I := fun s => s.Inv binary) (fun s hs => ?_)
    fun s a s' es hinv hproper hstep => hinv.step hproper hstep
  have hnone : ∀ id g, s.getGraphObject id ≠ some g := by
    intro id g hg
    rw [ImageContext.getGraphObject, hs] at hg
    cases hg
  exact ⟨fun id g hg => absurd hg (hnone id g), fun id g hg => absurd hg (hnone id g),
    fun id g hg => absurd hg (hnone id g), fun id g hg => absurd hg (hnone id g),
    fun id g _ _ hg => absurd hg (hnone id g), fun id g _ _ hg => absurd hg (hnone id g),
    fun id g hg => absurd hg (hnone id g)⟩

/-- **In every run the image of each graph is intact**, while thread buffers, jobs and other graphs
come and go and their memory is granted again. -/
theorem loaded_image_intact {binary : Memory} {shmOffset : ℕ} {tr : List BufferEvent}
    {s : ImageContext} (h : (imageSystem binary shmOffset).Run ImageContext.Proper tr s) {id : ℕ}
    {g : GraphObject} (hg : s.getGraphObject id = some g) : g.Intact binary s.mem :=
  (imageSystem_inv h).intact id g hg

/-! ## A run -/

/-- A single page is rounded. -/
theorem grantAt_rounds {pa va : ℕ} (hpa : pa ≤ 2 ^ 62) (hva : va ≤ 2 ^ 62) :
    (grantAt pa va).Rounds := by
  refine ⟨grantAt_sound (by omega) hva, ?_, ?_⟩
  all_goals
    intro req desc ptr hbytes hptr h
    obtain ⟨-, hdesc, hsize, -⟩ := grantAt_cases h
    omega

/-- The file of the sample. -/
def sampleBinary : Memory := Memory.ofBytes 4096 (sampleFile 16 64)

/-- The sample is loaded and has a thread buffer, and the application writes its input. -/
theorem sampleBinary_run : ∃ tr mem, mem 0x7040010 = 7 ∧
    (imageSystem sampleBinary 0).Run ImageContext.Proper tr
      ⟨[(1, allocatedObject 0 16 64)], mem⟩ := by
  have hapart : (sampleObject 0 16 64).pbuf.text.Separate (sampleObject 0 16 64).pbuf.staticGroup :=
    ⟨.inl (by decide), .inl (by decide)⟩
  have hload : ImageContext.Proper ⟨[], fun _ => 0⟩ (.loadGraph (sampleInfo 16 64)
      sampleLoad) := by
    refine ⟨⟨grantAt_sound (by decide) (by decide), grantAt_rounds (by decide) (by decide)⟩,
      by decide, by decide, fun id shmOffset ret g es hload => ⟨?_, ?_⟩⟩
    · rintro buf - own ⟨_, _, hg, -⟩
      cases hg
    · obtain ⟨-, heq⟩ := Prod.mk.inj (Option.some.inj hload)
      obtain ⟨rfl, -⟩ := Prod.mk.inj heq
      exact fun _ => hapart
  obtain ⟨tr, mem, hloaded⟩ : ∃ tr mem, (imageSystem sampleBinary 0).Run ImageContext.Proper tr
      ⟨[(1, sampleObject 0 16 64)], mem⟩ :=
    ⟨_, _, (System.Run.start rfl).next hload rfl⟩
  have hgraph : ∀ id g,
      (⟨[(1, sampleObject 0 16 64)], mem⟩ : ImageContext).getGraphObject id = some g →
        g = sampleObject 0 16 64 :=
    fun id g hg => congrArg Prod.snd (List.mem_singleton.mp (mem_of_lookup hg))
  have hcall : graphObjectStep (sampleObject 0 16 64) (.allocThreadBuffer sampleMalloc) =
      some (allocatedObject 0 16 64, [.allocated (sampleTbuf 16 64).stack,
        .allocated (sampleTbuf 16 64).rodata, .allocated (sampleTbuf 16 64).reuseGroup]) := rfl
  have hmalloc : ImageContext.Proper ⟨[(1, sampleObject 0 16 64)], mem⟩
      (.call 1 (.allocThreadBuffer sampleMalloc)) := by
    intro g hg
    rw [hgraph 1 g hg]
    refine ⟨⟨grantAt_sound (by decide) (by decide), grantAt_sound (by decide) (by decide),
      grantAt_sound (by decide) (by decide)⟩, fun g' es hstep buf hbuf own hown => ?_,
      grantAt_rounds (by decide) (by decide), by decide, fun desc hdesc => by cases hdesc⟩
    -- the context has the text and the static group
    have himage : own ∈ (sampleObject 0 16 64).imageBufs := by
      obtain ⟨id, g, hg, himage | ⟨handle, tbuf, htbuf, -⟩⟩ := hown
      · rwa [hgraph id g hg] at himage
      · rw [hgraph id g hg] at htbuf
        cases htbuf
    obtain ⟨-, rfl⟩ := Prod.mk.inj (Option.some.inj (hcall.symm.trans hstep))
    simp only [List.mem_cons, BufferEvent.allocated.injEq, List.not_mem_nil, or_false] at hbuf
    simp only [GraphObject.imageBufs, List.mem_cons, List.not_mem_nil, or_false] at himage
    rcases hbuf with rfl | rfl | rfl <;> rcases himage with rfl | rfl
    all_goals exact ⟨.inr (by decide), .inr (by decide)⟩
  obtain ⟨tr', mem', hallocated⟩ : ∃ tr mem, (imageSystem sampleBinary 0).Run
      ImageContext.Proper tr ⟨[(1, allocatedObject 0 16 64)], mem⟩ :=
    ⟨_, _, hloaded.next hmalloc rfl⟩
  have hwrite : ImageContext.Proper ⟨[(1, allocatedObject 0 16 64)], mem'⟩
      (.write 0x7040010 7) := by
    intro id g hg buf hbuf
    obtain rfl : g = allocatedObject 0 16 64 :=
      congrArg Prod.snd (List.mem_singleton.mp (mem_of_lookup hg))
    simp only [GraphObject.imageBufs, List.mem_cons, List.not_mem_nil, or_false] at hbuf
    unfold BufferDesc.Has
    rcases hbuf with rfl | rfl
    all_goals decide
  exact ⟨_, _, Function.update_self 0x7040010 7 mem', hallocated.next hwrite rfl⟩

/-- The image of the sample is there after its input was written. -/
theorem loaded_image_intact_sample : ∃ s : ImageContext,
    s.getGraphObject 1 = some (allocatedObject 0 16 64) ∧ s.mem 0x7040010 = 7 ∧
      (allocatedObject 0 16 64).Intact sampleBinary s.mem := by
  obtain ⟨tr, mem, hinput, hrun⟩ := sampleBinary_run
  exact ⟨_, rfl, hinput, @loaded_image_intact _ _ _ _ hrun 1 _ rfl⟩

end Aipu
