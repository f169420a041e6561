import AipuDriver.Lib.Packing
import AipuDriver.Umd.AsidAddresses
import AipuDriver.Umd.Simulation

/-!
# Disjoint buffers in the simulation

The counter of the simulation is a word that is never moved back, so each run that is long enough,
or that loads graphs that are large enough, moves it past the last address and begins again at zero,
whatever is loaded there.  As long as a graph is loaded above all loaded graphs and ends before the
last address, its buffers are where exact numbers put them (`loadEnd`), and all that the application
relies on holds (`simulated_space_sound`).
-/

namespace Aipu

open ByteReader KeyedList Packing RoundUp Transition UnusedId Word

/-! ## The property -/

/-- The buffers of a graph that have simulated addresses of their own. -/
def SimulatedGraph.bufs (g : SimulatedGraph) : List BufferDesc :=
  g.object.pbuf.text :: (g.object.tbufs.flatMap fun (_, tbuf) => [tbuf.rodata, tbuf.stack]) ++
    g.object.pbuf.staticBuf ++ g.object.tbufs.flatMap fun (_, tbuf) => tbuf.reuseBuf

/-- The simulated ranges of two buffers are disjoint. -/
def BufferDesc.Apart (x y : BufferDesc) : Prop := x.pa + x.size ≤ y.pa ∨ y.pa + y.size ≤ x.pa

/-- The buffer starts at a multiple of `align_in_page` pages. -/
def BufferDesc.AlignedTo (buf : BufferDesc) (alignInPage : UInt32) : Prop :=
  alignInPage.toNat * 4096 ∣ buf.pa

/-- Each buffer of a section starts at a multiple of the alignment of the section. -/
def AlignedBufs (sections : List SectionDesc) (bufs : List BufferDesc) : Prop :=
  List.Forall₂ (fun sec buf => buf.AlignedTo sec.alignInPage) sections bufs

/-- The stack, static and reuse buffers of a graph are aligned. -/
structure SimulatedGraph.Aligned (g : SimulatedGraph) : Prop where
  stack : ∀ entry ∈ g.object.tbufs, entry.2.stack.AlignedTo g.object.info.tbufTempl.stackAlignInPage
  static : AlignedBufs g.object.info.pbufTempl.staticSections g.object.pbuf.staticBuf
  reuse : ∀ entry ∈ g.object.tbufs,
    AlignedBufs g.object.info.tbufTempl.reuseSections entry.2.reuseBuf

/-- The static and reuse buffers of a graph are in its host buffer. -/
def SimulatedGraph.ChildrenInside (g : SimulatedGraph) : Prop :=
  ∀ buf ∈ g.object.pbuf.staticBuf ++ g.object.tbufs.flatMap (fun (_, tbuf) => tbuf.reuseBuf),
    g.data.va ≤ buf.va ∧ buf.va + buf.size ≤ g.data.va + g.data.size

/-- The buffers of all loaded graphs are disjoint, aligned, and in the host buffers of their
graphs. -/
structure Simulator.SpaceSound (s : Simulator) : Prop where
  apart : (s.graphs.flatMap fun entry => entry.2.bufs).Pairwise BufferDesc.Apart
  aligned : ∀ entry ∈ s.graphs, entry.2.Aligned
  inside : ∀ entry ∈ s.graphs, entry.2.ChildrenInside

/-! ## Exact addresses -/

/-- The end of a buffer that is placed from an address on, in exact numbers. -/
def placedEnd (top : ℕ) (size alignInPage : UInt32) : ℕ :=
  roundUp top (alignInPage.toNat * 4096) + roundUp size.toNat 4096

/-- The end of sections. -/
def sectionsEnd : ℕ → List SectionDesc → ℕ
  | top, [] => top
  | top, sec :: rest => sectionsEnd (placedEnd top sec.size sec.alignInPage) rest

/-- The end of the rodata, stack, static and reuse buffers of a graph. -/
def dataEnd (top : ℕ) (info : GraphInfo) : ℕ :=
  let templ := info.tbufTempl
  let stack := top + roundUp (templ.rodataSize.toNat + templ.dcrSize.toNat) 4096
  sectionsEnd (sectionsEnd (placedEnd stack templ.stackSize templ.stackAlignInPage)
    info.pbufTempl.staticSections) templ.reuseSections

/-- The end of the buffers of a graph that is loaded from an address on. -/
def loadEnd (top : ℕ) (info : GraphInfo) : ℕ :=
  dataEnd (top + roundUp info.pbufTempl.textSize.toNat 4096) info

/-- A graph is loaded above all loaded graphs, ends before the last address, and gets its host
buffer from the lower half of the addresses. -/
def LoadsAbove (s : Simulator) : SimulatorCall → Prop
  | .loadGraph info host =>
    (∀ entry ∈ s.graphs, ∀ buf ∈ entry.2.bufs, buf.pa + buf.size ≤ s.top) ∧
      loadEnd s.top info < 2 ^ 32 ∧ host.dataVa ≤ 2 ^ 63
  | .unloadGraph _ => True

instance loadsAboveDecidable : DecidableRel LoadsAbove :=
  fun s a => by rcases a <;> unfold LoadsAbove <;> infer_instance

/-- A placed buffer ends later than it may begin. -/
theorem le_placedEnd (top : ℕ) (size alignInPage : UInt32) : top ≤ placedEnd top size alignInPage :=
  (le_roundUp _ _).trans (Nat.le_add_right _ _)

/-- Sections end later than they may begin. -/
theorem le_sectionsEnd (top : ℕ) (secs : List SectionDesc) : top ≤ sectionsEnd top secs := by
  induction secs generalizing top with
  | nil => exact le_rfl
  | cons sec rest ih => exact (le_placedEnd _ _ _).trans (ih _)

/-- The buffers of a graph end later than they may begin. -/
theorem le_dataEnd (top : ℕ) (info : GraphInfo) :
    top + roundUp (info.tbufTempl.rodataSize.toNat + info.tbufTempl.dcrSize.toNat) 4096 ≤
      dataEnd top info :=
  (le_placedEnd _ _ _).trans ((le_sectionsEnd _ _).trans (le_sectionsEnd _ _))

section Exact

variable {top top' size : ℕ} {secs : List SectionDesc} {buf : BufferDesc} {bufs : List BufferDesc}

/-- The mask of `ALIGN_PAGE` rounds up when the result is a word. -/
theorem alignPage_eq (h : roundUp size 4096 < 2 ^ 32) : alignPage size = roundUp size 4096 :=
  maskAlign_eq_roundUp (k := 12) (by decide) h

/-- An aligned address is the exact one when that is a word. -/
theorem getAlignedAddr_eq {base alignInPage addr : ℕ}
    (h : getAlignedAddr base alignInPage = some addr)
    (hfit : roundUp base (alignInPage * 4096) < 2 ^ 32) :
    addr = roundUp base (alignInPage * 4096) ∧ alignInPage * 4096 ∣ addr := by
  obtain ⟨n, hn, rfl⟩ := Option.map_eq_some_iff.mp h
  simp only [Nat.mul_assoc] at hn ⊢
  exact firstUnused_multiple hfit hn

/-- A buffer that ends before the last address is where exact numbers put it. -/
theorem placeBuf_spec {size alignInPage : UInt32}
    (h : placeBuf top size.toNat alignInPage.toNat = some (buf, top'))
    (hfit : placedEnd top size alignInPage < 2 ^ 32) :
    top' = placedEnd top size alignInPage ∧ top ≤ buf.pa ∧ buf.pa + buf.size = top' ∧
      buf.AlignedTo alignInPage := by
  obtain ⟨addr, haddr, heq⟩ := Option.map_eq_some_iff.mp h
  obtain ⟨rfl, rfl⟩ := Prod.mk.inj heq
  unfold placedEnd at hfit
  obtain ⟨hexact, haligned⟩ := getAlignedAddr_eq haddr (by omega)
  have hsize : alignPage size.toNat = roundUp size.toNat 4096 := alignPage_eq (by omega)
  have htop : wrap 32 (addr + alignPage size.toNat) = addr + alignPage size.toNat :=
    wrap_of_lt (by omega)
  refine ⟨?_, ?_, htop.symm, haligned⟩
  · rw [htop, hexact, hsize]
    rfl
  · exact hexact ▸ le_roundUp _ _

/-- Buffers of sections that end before the last address are packed, and aligned. -/
theorem placeSections_spec (h : placeSections top secs = some (bufs, top'))
    (hfit : sectionsEnd top secs < 2 ^ 32) :
    top' = sectionsEnd top secs ∧ Packed BufferDesc.pa BufferDesc.size top top' bufs ∧
      AlignedBufs secs bufs := by
  induction secs generalizing top bufs with
  | nil =>
    obtain ⟨rfl, rfl⟩ := Prod.mk.inj (Option.some.inj h)
    exact ⟨rfl, le_rfl, .nil⟩
  | cons sec rest ih =>
    obtain ⟨⟨buf, next⟩, hbuf, h⟩ := Option.bind_eq_some_iff.mp h
    obtain ⟨⟨bufs', top''⟩, hrest, h⟩ := Option.bind_eq_some_iff.mp h
    obtain ⟨rfl, rfl⟩ := Prod.mk.inj (Option.some.inj h)
    obtain ⟨rfl, hlower, hend, haligned⟩ :=
      placeBuf_spec hbuf ((le_sectionsEnd _ rest).trans_lt hfit)
    obtain ⟨htop, hpacked, hrest⟩ := ih hrest hfit
    exact ⟨htop, ⟨hlower, hend ▸ hpacked⟩, .cons haligned hrest⟩

end Exact

/-! ## Loading -/

section Loading

variable {s s' : Simulator} {top top' : ℕ} {info : GraphInfo} {host : HostAnswers}
    {bufs : DataBuffers}

/-- A buffer from `malloc_buf` that ends before the last address. -/
theorem simulationMallocBuf_spec {size va : ℕ} {buf : BufferDesc}
    (h : simulationMallocBuf top size va = .ok (buf, top'))
    (hfit : top + roundUp size 4096 < 2 ^ 32) :
    buf.pa = top ∧ buf.va = va ∧ buf.size = roundUp size 4096 ∧ 4096 ≤ buf.size ∧
      top' = top + roundUp size 4096 := by
  unfold simulationMallocBuf at h
  split_ifs at h with hsize
  obtain ⟨rfl, rfl⟩ := Prod.mk.inj (Except.ok.inj h)
  have hexact : alignPage size = roundUp size 4096 := alignPage_eq (by omega)
  have hpos : 4096 ≤ roundUp size 4096 := le_roundUp_of_pos (Nat.pos_of_ne_zero hsize) (by decide)
  refine ⟨rfl, rfl, hexact, hexact ▸ hpos, ?_⟩
  rw [hexact]
  exact wrap_of_lt hfit

/-- Addresses in the host buffer change no simulated address. -/
@[simp] theorem childVa_pa (data buf : BufferDesc) : (childVa data buf).pa = buf.pa := by
  cases buf
  rfl

@[simp] theorem childVa_size (data buf : BufferDesc) : (childVa data buf).size = buf.size := by
  cases buf
  rfl

/-- The address of a buffer in the host buffer, in exact numbers. -/
theorem childVa_va {data buf : BufferDesc} (hva : data.va ≤ 2 ^ 63) (hlower : data.pa ≤ buf.pa)
    (hword : buf.pa < 2 ^ 32) : (childVa data buf).va = data.va + (buf.pa - data.pa) := by
  have hlt : data.va + (buf.pa - data.pa) < 2 ^ 64 := by omega
  change wrap 64 (data.va + wrapSub 32 buf.pa data.pa) = data.va + (buf.pa - data.pa)
  rw [wrapSub_of_le hword hlower]
  exact wrap_of_lt hlt

/-- A buffer between the ends of the host buffer has its address there. -/
theorem childVa_inside {data buf : BufferDesc} (hva : data.va ≤ 2 ^ 63) (hlower : data.pa ≤ buf.pa)
    (hword : buf.pa < 2 ^ 32) (hupper : buf.pa + buf.size ≤ data.pa + data.size) :
    data.va ≤ (childVa data buf).va ∧
      (childVa data buf).va + (childVa data buf).size ≤ data.va + data.size := by
  rw [childVa_va hva hlower hword, childVa_size]
  omega

/-- So the buffers stay aligned. -/
theorem AlignedBufs.childVa {secs : List SectionDesc} {l : List BufferDesc} (h : AlignedBufs secs l)
    (data : BufferDesc) : AlignedBufs secs (l.map (childVa data)) := by
  unfold AlignedBufs at h ⊢
  rw [List.forall₂_map_right_iff]
  refine h.imp fun sec buf haligned => ?_
  simpa only [BufferDesc.AlignedTo, childVa_pa] using haligned

/-- The buffers of a graph without their addresses in the host buffer. -/
theorem placeData_spec {rodata : BufferDesc} (h : placeData top info rodata = some (top', bufs))
    (hfit : sectionsEnd (sectionsEnd (placedEnd top info.tbufTempl.stackSize
      info.tbufTempl.stackAlignInPage) info.pbufTempl.staticSections) info.tbufTempl.reuseSections <
        2 ^ 32) :
    bufs.rodata = rodata ∧ Packed BufferDesc.pa BufferDesc.size top top'
        ([bufs.stack] ++ bufs.staticBuf ++ bufs.reuseBuf) ∧
      bufs.stack.AlignedTo info.tbufTempl.stackAlignInPage ∧
      AlignedBufs info.pbufTempl.staticSections bufs.staticBuf ∧
      AlignedBufs info.tbufTempl.reuseSections bufs.reuseBuf ∧
      top' = sectionsEnd (sectionsEnd (placedEnd top info.tbufTempl.stackSize
        info.tbufTempl.stackAlignInPage) info.pbufTempl.staticSections)
          info.tbufTempl.reuseSections := by
  obtain ⟨⟨stack, stackTop⟩, hstack, h⟩ := Option.bind_eq_some_iff.mp h
  obtain ⟨⟨static, staticTop⟩, hstatic, h⟩ := Option.bind_eq_some_iff.mp h
  obtain ⟨⟨reuse, reuseTop⟩, hreuse, h⟩ := Option.bind_eq_some_iff.mp h
  obtain ⟨reuseGroup, -, h⟩ := Option.bind_eq_some_iff.mp h
  obtain ⟨rfl, rfl⟩ := Prod.mk.inj (Option.some.inj h)
  have hstaticFit := (le_sectionsEnd _ info.tbufTempl.reuseSections).trans_lt hfit
  have hstackFit := (le_sectionsEnd _ info.pbufTempl.staticSections).trans_lt hstaticFit
  obtain ⟨rfl, hlower, hend, hstackAligned⟩ := placeBuf_spec hstack hstackFit
  obtain ⟨rfl, hstaticPacked, hstaticAligned⟩ := placeSections_spec hstatic hstaticFit
  obtain ⟨rfl, hreusePacked, hreuseAligned⟩ := placeSections_spec hreuse hfit
  have hstackPacked :
      Packed BufferDesc.pa BufferDesc.size top (placedEnd top info.tbufTempl.stackSize
      info.tbufTempl.stackAlignInPage) [stack] := ⟨hlower, hend.le⟩
  exact ⟨rfl, (hstackPacked.append hstaticPacked).append hreusePacked, hstackAligned,
    hstaticAligned, hreuseAligned, rfl⟩

/-- What the allocation of the host buffer has done when it succeeds. -/
theorem DataBuffers.allocHost_cases {placed : DataBuffers} {size va : ℕ}
    (h : placed.allocHost top size va = (top', .ok bufs)) :
    ∃ data, simulationMallocBuf top size va = .ok (data, top') ∧ bufs = placed.setVa data := by
  unfold DataBuffers.allocHost at h
  split at h
  · exact absurd (Prod.mk.inj h).2 (by simp)
  next data dataTop hdata =>
    obtain ⟨rfl, hbufs⟩ := Prod.mk.inj h
    exact ⟨data, hdata, (Except.ok.inj hbufs).symm⟩

/-- What `simulation_alloc_data_buffer` has done when it succeeds. -/
theorem simulationAllocDataBuffer_cases
    (h : simulationAllocDataBuffer top info host = some (top', .ok bufs)) :
    ∃ rodata rodataTop placed placedTop data,
      simulationMallocBuf top
        (info.tbufTempl.rodataSize + info.tbufTempl.dcrSize).toNat host.rodataVa =
        .ok (rodata, rodataTop) ∧
      placeData rodataTop info rodata = some (placedTop, placed) ∧
      simulationMallocBuf placedTop (wrapSub 32 placedTop placed.stack.pa) host.dataVa =
        .ok (data, top') ∧
      bufs = placed.setVa data := by
  unfold simulationAllocDataBuffer at h
  dsimp only at h
  split at h
  · exact absurd (Prod.mk.inj (Option.some.inj h)).2 (by simp)
  next rodata rodataTop hrodata =>
    obtain ⟨⟨placedTop, placed⟩, hplaced, h⟩ := Option.map_eq_some_iff.mp h
    obtain ⟨data, hdata, hbufs⟩ := DataBuffers.allocHost_cases h
    exact ⟨rodata, rodataTop, placed, placedTop, data, hrodata, hplaced, hdata, hbufs⟩

/-- The host buffer has the bytes that were asked for. -/
theorem simulationMallocBuf_host {size va : ℕ} {buf : BufferDesc}
    (h : simulationMallocBuf top size va = .ok (buf, top')) (hfit : size + 4095 < 2 ^ 32) :
    buf.va = va ∧ size ≤ buf.size := by
  unfold simulationMallocBuf at h
  split_ifs at h with hsize
  obtain ⟨rfl, -⟩ := Prod.mk.inj (Except.ok.inj h)
  exact ⟨rfl, le_maskAlign (by decide) hfit⟩

/-- The buffers stay packed when they get their addresses. -/
theorem DataBuffers.setVa_packed {bufs : DataBuffers} {a b : ℕ} (buf : BufferDesc)
    (h : Packed BufferDesc.pa BufferDesc.size a b
      ([bufs.stack] ++ bufs.staticBuf ++ bufs.reuseBuf)) :
    Packed BufferDesc.pa BufferDesc.size a b
      ([(bufs.setVa buf).stack] ++ (bufs.setVa buf).staticBuf ++ (bufs.setVa buf).reuseBuf) := by
  obtain ⟨rodata, descriptor, stack, static, staticGroup, reuse, reuseGroup, data⟩ := bufs
  rw [List.append_assoc, List.singleton_append, packed_cons] at h
  rw [List.append_assoc, List.singleton_append, packed_cons]
  refine ⟨h.1, ?_⟩
  have hmap := h.2.map (f := childVa (DataBuffers.hostBuf
    ⟨rodata, descriptor, stack, static, staticGroup, reuse, reuseGroup, data⟩ buf))
    (fun x => childVa_pa _ x) fun x => childVa_size _ x
  rw [List.map_append] at hmap
  exact hmap

/-- The buffers of `simulation_alloc_data_buffer` when they end before the last address. -/
theorem simulationAllocDataBuffer_spec
    (h : simulationAllocDataBuffer top info host = some (top', .ok bufs))
    (hfit : dataEnd top info < 2 ^ 32) (hva : host.dataVa ≤ 2 ^ 63) :
    Packed BufferDesc.pa BufferDesc.size top (dataEnd top info)
        ([bufs.rodata] ++ ([bufs.stack] ++ bufs.staticBuf ++ bufs.reuseBuf)) ∧
      bufs.stack.AlignedTo info.tbufTempl.stackAlignInPage ∧
      AlignedBufs info.pbufTempl.staticSections bufs.staticBuf ∧
      AlignedBufs info.tbufTempl.reuseSections bufs.reuseBuf ∧
      ∀ buf ∈ bufs.staticBuf ++ bufs.reuseBuf,
        bufs.data.va ≤ buf.va ∧ buf.va + buf.size ≤ bufs.data.va + bufs.data.size := by
  obtain ⟨rodata, rodataTop, placed, placedTop, data, hrodata, hplaced, hdata, rfl⟩ :=
    simulationAllocDataBuffer_cases h
  have hrodataEnd :
      top + roundUp (info.tbufTempl.rodataSize.toNat + info.tbufTempl.dcrSize.toNat) 4096 ≤
      dataEnd top info := le_dataEnd top info
  have hsum : (info.tbufTempl.rodataSize + info.tbufTempl.dcrSize).toNat =
      info.tbufTempl.rodataSize.toNat + info.tbufTempl.dcrSize.toNat := by
    have := le_roundUp (info.tbufTempl.rodataSize.toNat + info.tbufTempl.dcrSize.toNat) 4096
    rw [UInt32.toNat_add, Nat.mod_eq_of_lt (by omega)]
  rw [hsum] at hrodata
  obtain ⟨hrodataPa, -, hrodataSize, hpos, rfl⟩ :=
    simulationMallocBuf_spec hrodata (hrodataEnd.trans_lt hfit)
  obtain ⟨rfl, hpacked, hstack, hstatic, hreuse, hend⟩ := placeData_spec hplaced hfit
  have hend : placedTop = dataEnd top info := hend
  obtain ⟨hstackLower, hchildren⟩ : _ ≤ placed.stack.pa ∧ Packed BufferDesc.pa BufferDesc.size
      (placed.stack.pa + placed.stack.size) placedTop (placed.staticBuf ++ placed.reuseBuf) := by
    rw [List.append_assoc, List.singleton_append, packed_cons] at hpacked
    exact hpacked
  have hchildrenLe := hchildren.le
  have hsize : wrapSub 32 placedTop placed.stack.pa = placedTop - placed.stack.pa :=
    wrapSub_of_le (by omega) (by omega)
  rw [hsize] at hdata
  obtain ⟨hdataVa, hdataSize⟩ := simulationMallocBuf_host hdata (by omega)
  refine ⟨?_, hstack, hstatic.childVa _, hreuse.childVa _, fun buf hbuf => ?_⟩
  · have hplacedPacked := DataBuffers.setVa_packed data hpacked
    rw [hend] at hplacedPacked
    refine packed_cons.mpr ⟨hrodataPa.ge, ?_⟩
    change Packed BufferDesc.pa BufferDesc.size (placed.rodata.pa + placed.rodata.size) _ _
    rw [hrodataPa, hrodataSize]
    exact hplacedPacked
  · change buf ∈ placed.staticBuf.map (childVa (placed.hostBuf data)) ++
      placed.reuseBuf.map (childVa (placed.hostBuf data)) at hbuf
    rw [← List.map_append] at hbuf
    obtain ⟨child, hchild, rfl⟩ := List.mem_map.mp hbuf
    obtain ⟨hlower, hupper⟩ := hchildren.bounds hchild
    refine @childVa_inside (placed.hostBuf data) child ?_ ?_ (by omega) ?_
    · change data.va ≤ 2 ^ 63
      rwa [hdataVa]
    · change placed.stack.pa ≤ child.pa
      omega
    · change child.pa + child.size ≤ placed.stack.pa + data.size
      omega

/-! ## Graphs -/

/-- What `load_graph` does to the graphs: it adds one whose buffers are in the new part of the
addresses, or none. -/
theorem Simulator.loadGraph_cases {ret : AipuStatus} (h : s.loadGraph info host = some (ret, s'))
    (hfit : loadEnd s.top info < 2 ^ 32) (hva : host.dataVa ≤ 2 ^ 63) :
    s'.graphs = s.graphs ∨ ∃ id g, s'.graphs = insert s.graphs id g ∧
      Packed BufferDesc.pa BufferDesc.size s.top (loadEnd s.top info) g.bufs ∧ g.Aligned ∧
      g.ChildrenInside := by
  unfold Simulator.loadGraph at h
  obtain ⟨id, -, h⟩ := Option.bind_eq_some_iff.mp h
  dsimp only at h
  split_ifs at h with hsize
  · obtain ⟨-, rfl⟩ := Prod.mk.inj (Option.some.inj h)
    exact .inl rfl
  · split at h
    · obtain ⟨⟨top, res⟩, hres, h⟩ := Option.bind_eq_some_iff.mp h
      rcases res with e | bufs
      · obtain ⟨-, rfl⟩ := Prod.mk.inj (Option.some.inj h)
        exact .inl rfl
      · obtain ⟨iobuf, -, h⟩ := Option.bind_eq_some_iff.mp h
        obtain ⟨handle, -, h⟩ := Option.bind_eq_some_iff.mp h
        obtain ⟨-, rfl⟩ := Prod.mk.inj (Option.some.inj h)
        refine .inr ⟨id, _, rfl, ?_⟩
        have htop := (Nat.le_add_right _ _).trans (le_dataEnd
          (s.top + roundUp info.pbufTempl.textSize.toNat 4096) info)
        have hdata : dataEnd (s.top + roundUp info.pbufTempl.textSize.toNat 4096) info <
            2 ^ 32 := hfit
        have hexact : alignPage info.pbufTempl.textSize.toNat =
            roundUp info.pbufTempl.textSize.toNat 4096 := alignPage_eq (by omega)
        rw [hexact, wrap_of_lt (by omega)] at hres
        obtain ⟨hpacked, hstack, hstatic, hreuse, hinside⟩ :=
          simulationAllocDataBuffer_spec hres hdata hva
        refine ⟨?_, ⟨by simpa using hstack, hstatic, by simpa using hreuse⟩, ?_⟩
        · have htext : Packed BufferDesc.pa BufferDesc.size s.top (loadEnd s.top info)
              (({ va := info.pbufTempl.textSrc, pa := s.top
                  size := alignPage info.pbufTempl.textSize.toNat
                  realSize := info.pbufTempl.textSize.toNat } : BufferDesc) :: ([bufs.rodata] ++
                ([bufs.stack] ++ bufs.staticBuf ++ bufs.reuseBuf))) := by
            refine packed_cons.mpr ⟨le_rfl, ?_⟩
            rw [hexact]
            exact hpacked
          simpa [SimulatedGraph.bufs] using htext
        · simpa [SimulatedGraph.ChildrenInside] using hinside
    · obtain ⟨-, rfl⟩ := Prod.mk.inj (Option.some.inj h)
      exact .inl rfl
    · obtain ⟨-, rfl⟩ := Prod.mk.inj (Option.some.inj h)
      exact .inl rfl

end Loading

/-! ## Unloading -/

section Unloading

variable {s s' : Simulator} {g : SimulatedGraph}

/-- A thread buffer that is not freed changes nothing. -/
theorem SimulatedGraph.freeThreadBuffer_cases (g : SimulatedGraph) (handle : ℕ) :
    (g.freeThreadBuffer handle).1 = .success ∨ (g.freeThreadBuffer handle).2 = g := by
  have hdata : g.simulationFreeDataBuffer.1 = .success ∨ g.simulationFreeDataBuffer.2 = g := by
    unfold SimulatedGraph.simulationFreeDataBuffer
    split
    · exact .inl rfl
    · split
      · exact .inl rfl
      · exact .inr rfl
  unfold SimulatedGraph.freeThreadBuffer
  split
  · exact .inr rfl
  · split_ifs
    · split
      · split
        · exact .inl rfl
        next e g' hne heq =>
          rw [heq] at hdata
          exact .inr (hdata.resolve_left hne)
      · exact .inr rfl
    · exact .inr rfl

/-- A graph that is not unloaded keeps all but its text. -/
theorem SimulatedGraph.unload_cases (g : SimulatedGraph) :
    g.unload.1 = .success ∨ g.unload.2 = g ∨ g.unload.2 = g.clearText := by
  unfold SimulatedGraph.unload
  split_ifs
  · split
    · exact .inl rfl
    next handle _ =>
      rcases g.clearText.freeThreadBuffer_cases handle with hok | heq
      · exact .inl hok
      · exact .inr (.inr heq)
  · exact .inr (.inl rfl)

/-- Two buffers are apart from each other. -/
theorem BufferDesc.Apart.symm {x y : BufferDesc} (h : x.Apart y) : y.Apart x := Or.symm h

/-- The graphs are apart from each other, and so are the buffers of each. -/
theorem Simulator.SpaceSound.pairs (h : s.SpaceSound) :
    (∀ entry ∈ s.graphs, entry.2.bufs.Pairwise BufferDesc.Apart) ∧
      s.graphs.Pairwise fun e e' => ∀ x ∈ e.2.bufs, ∀ y ∈ e'.2.bufs, x.Apart y :=
  List.pairwise_flatMap.mp h.apart

/-- A graph is removed. -/
theorem Simulator.SpaceSound.erase (h : s.SpaceSound) (id top : ℕ) :
    Simulator.SpaceSound { top := top, graphs := erase s.graphs id } := by
  obtain ⟨hown, hcross⟩ := h.pairs
  have hsub : ∀ entry ∈ KeyedList.erase s.graphs id, entry ∈ s.graphs := fun entry hentry =>
    List.mem_of_mem_filter hentry
  exact ⟨List.pairwise_flatMap.mpr ⟨fun entry hentry => hown entry (hsub entry hentry),
    hcross.sublist List.filter_sublist⟩, fun entry hentry => h.aligned entry (hsub entry hentry),
    fun entry hentry => h.inside entry (hsub entry hentry)⟩

/-- A graph is put in the place of another one, apart from all others. -/
theorem Simulator.SpaceSound.insert (h : s.SpaceSound) {id top : ℕ}
    (hown : g.bufs.Pairwise BufferDesc.Apart)
    (hcross : ∀ entry ∈ s.graphs, entry.1 ≠ id → ∀ x ∈ g.bufs, ∀ y ∈ entry.2.bufs, x.Apart y)
    (haligned : g.Aligned) (hinside : g.ChildrenInside) :
    Simulator.SpaceSound { top := top, graphs := KeyedList.insert s.graphs id g } := by
  have hrest := h.erase id top
  obtain ⟨hownRest, hcrossRest⟩ := hrest.pairs
  constructor
  · refine List.pairwise_flatMap.mpr ⟨List.forall_mem_cons.mpr ⟨hown, hownRest⟩,
      List.pairwise_cons.mpr ⟨fun entry hentry => ?_, hcrossRest⟩⟩
    obtain ⟨hmem, hne⟩ := List.mem_filter.mp hentry
    exact hcross entry hmem (by simpa using hne)
  · exact List.forall_mem_cons.mpr ⟨haligned, hrest.aligned⟩
  · exact List.forall_mem_cons.mpr ⟨hinside, hrest.inside⟩

/-- An attempt to unload a graph keeps the space sound, whether it succeeds or not. -/
theorem Simulator.SpaceSound.unloadGraph (h : s.SpaceSound) (id : ℕ) :
    (s.unloadGraph id).2.SpaceSound := by
  unfold Simulator.unloadGraph
  split
  · exact h
  next g hg =>
    have hmem : (id, g) ∈ s.graphs := mem_of_lookup hg
    have hcases := g.unload_cases
    split
    · exact h.erase id s.top
    next e g' hne heq =>
      rw [heq] at hcases
      obtain ⟨hown, hpairs⟩ := h.pairs
      have : Std.Symm fun e e' : ℕ × SimulatedGraph => ∀ x ∈ e.2.bufs, ∀ y ∈ e'.2.bufs, x.Apart y :=
        ⟨fun _ _ hab x hx y hy => (hab y hy x hx).symm⟩
      have hcross : ∀ entry ∈ s.graphs, entry.1 ≠ id →
          ∀ x ∈ g.bufs, ∀ y ∈ entry.2.bufs, x.Apart y :=
        fun entry hentry hid => hpairs.forall hmem hentry fun heq => hid (heq ▸ rfl)
      rcases hcases.resolve_left hne with rfl | rfl
      · exact h.insert (hown _ hmem) hcross (h.aligned _ hmem) (h.inside _ hmem)
      · -- the range of the text is empty now, at zero
        have hown' := List.pairwise_cons.mp (hown _ hmem)
        refine h.insert (List.pairwise_cons.mpr ⟨fun y _ => .inl (Nat.zero_le _), hown'.2⟩)
          (fun entry hentry hid x hx y hy => ?_)
            ⟨(h.aligned _ hmem).stack, (h.aligned _ hmem).static,
            (h.aligned _ hmem).reuse⟩ (h.inside _ hmem)
        rcases List.mem_cons.mp hx with rfl | hx
        · exact .inl (Nat.zero_le _)
        · exact hcross entry hentry hid x (List.mem_cons_of_mem _ hx) y hy

end Unloading

/-! ## Runs -/

section Runs

variable {s s' : Simulator}

/-- A call that loads a graph only above the others keeps the space sound. -/
theorem Simulator.SpaceSound.step (h : s.SpaceSound) {a : SimulatorCall} {es : List AipuStatus}
    (habove : LoadsAbove s a) (hstep : simulatorStep s a = some (s', es)) : s'.SpaceSound := by
  cases a with
  | loadGraph info host =>
    obtain ⟨⟨ret, s₁⟩, hload, heq⟩ := Option.map_eq_some_iff.mp hstep
    obtain ⟨rfl, -⟩ := Prod.mk.inj heq
    obtain ⟨hbelow, hfit, hva⟩ := habove
    obtain ⟨top, graphs⟩ := s₁
    rcases Simulator.loadGraph_cases hload hfit hva with
      heq | ⟨id, g, heq, hpacked, haligned, hinside⟩
    · obtain rfl : graphs = s.graphs := heq
      exact ⟨h.apart, h.aligned, h.inside⟩
    · obtain rfl : graphs = KeyedList.insert s.graphs id g := heq
      refine h.insert (hpacked.pairwise.imp .inl) (fun entry hentry _ x hx y hy => .inr ?_) haligned
        hinside
      exact (hbelow entry hentry y hy).trans (hpacked.bounds hx).1
  | unloadGraph id =>
    obtain ⟨rfl, -⟩ := Prod.mk.inj (Option.some.inj hstep)
    exact h.unloadGraph id

/-- In every run that loads graphs only above the others, the buffers of all loaded graphs are
disjoint, aligned, and in the host buffers of their graphs. -/
theorem simulated_space_sound {tr : List AipuStatus} (h : simulatorSystem.Run LoadsAbove tr s) :
    s.SpaceSound := by
  refine h.stateInvariant (fun s hs => ?_) fun _ _ _ _ hs habove hstep => hs.step habove hstep
  obtain rfl : s = { top := 0, graphs := [] } := hs
  exact ⟨.nil, by simp, by simp⟩

/-- The sample with a reuse section of other size. -/
def simulatedInfo (size : UInt32) : GraphInfo :=
  let info := sampleInfo 16 64
  { info with tbufTempl := { info.tbufTempl with
    reuseSections := [{ size := size, subSections := [16] }] } }

/-- Its file. -/
def simulatedFile (size : UInt32) : List UInt8 :=
  magic ++ List.replicate 8 0 ++
    ([0x204B4, 0x03000000, 0, 104, 220, 0, 1, 0, 104, 4, 108, 4, 0, 0, 112, 8, 120, 100,
      0, 0, 0, 0] ++ [1, 2, 3, 4] ++
      [256, 4096, 1, 1, 0, 8, 4096, 0, size, 4096, 1, 16, 64, 0, 0, 2, 1, 1, 1, 8, 8,
        0xFFFFFFFF, 1, 0, 0]).flatMap wordBytes

/-- What the host answers in the samples. -/
def sampleHost : HostAnswers where
  rodataVa := 0x10000
  dataVa := 0x20000

/-- Two graphs are loaded, and the first is unloaded: the second one stays sound. -/
theorem simulated_space_sound_sample :
    ∃ tr s, simulatorSystem.Run LoadsAbove tr s ∧ s.graphs.map Prod.fst = [2] ∧ s.SpaceSound := by
  obtain ⟨⟨s, tr⟩, hexec, hgraphs⟩ :
      ∃ s, simulatorSystem.exec LoadsAbove { top := 0, graphs := [] }
        [.loadGraph (simulatedInfo 4096) sampleHost, .loadGraph (simulatedInfo 8192) sampleHost,
          .unloadGraph 1] = some s ∧ s.1.graphs.map Prod.fst = [2] :=
    ⟨_, rfl, by decide +kernel⟩
  have hrun := System.run_of_exec (S := simulatorSystem) rfl hexec
  exact ⟨tr, s, hrun, hgraphs, simulated_space_sound hrun⟩

/-- A graph of almost 2 GiB moves the counter to zero again, and the text of the next one lies on
its text. -/
theorem simulated_space_overlaps :
    ∃ info tr s, (parseGraph sampleZhouyiV2
        (Memory.ofBytes 4096 (simulatedFile 0x7FFFD000)) 4096 220).value =
        .ok info ∧
      simulatorSystem.exec anyStep { top := 0, graphs := [] }
        [.loadGraph info sampleHost, .loadGraph info sampleHost] = some (s, tr) ∧
      tr = [.success, .success] ∧ ¬s.SpaceSound := by
  obtain ⟨⟨s, tr⟩, hexec, htr, hbufs⟩ :
      ∃ s, simulatorSystem.exec anyStep { top := 0, graphs := [] }
        [.loadGraph (simulatedInfo 0x7FFFD000) sampleHost,
          .loadGraph (simulatedInfo 0x7FFFD000) sampleHost] = some s ∧
        s.2 = [.success, .success] ∧ s.1.graphs.map (fun entry => (entry.2.object.pbuf.text.pa,
          entry.2.object.pbuf.text.size)) = [(0, 4096), (0, 4096)] :=
    ⟨_, rfl, by decide +kernel, by decide +kernel⟩
  refine ⟨_, tr, s, by decide +kernel, hexec, htr, fun hsound => ?_⟩
  obtain ⟨g, rest, hs, hg, hrest⟩ := List.map_eq_cons_iff.mp hbufs
  obtain ⟨g', rest', rfl, hg', -⟩ := List.map_eq_cons_iff.mp hrest
  have hgraphs : s.graphs = g :: g' :: rest' := hs
  have hpairs := hsound.pairs.2
  rw [hgraphs] at hpairs
  have hapart := (List.pairwise_cons.mp hpairs).1 g' (List.mem_cons_self ..)
    g.2.object.pbuf.text (List.mem_cons_self ..) g'.2.object.pbuf.text (List.mem_cons_self ..)
  obtain ⟨hpa, hsize⟩ := Prod.mk.inj hg
  obtain ⟨hpa', hsize'⟩ := Prod.mk.inj hg'
  rw [BufferDesc.Apart, hpa, hsize, hpa', hsize'] at hapart
  exact absurd hapart (by decide)

end Runs

end Aipu
