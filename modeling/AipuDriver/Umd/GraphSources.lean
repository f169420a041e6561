import AipuDriver.Umd.GraphReads
import AipuDriver.Umd.GraphRoundTrip

/-!
# The sources of an accepted graph

The checks of the header compare sums of `uint32_t`, which may wrap, and nothing checks the DCR
section or the file offsets of static sections.  `sources_sane_iff` says for an accepted graph which
fields of the file keep the sections and all source ranges that the driver copies later within the
buffer.
-/

namespace Aipu

open ByteReader

/-- The bytes of a range are in the buffer. -/
def SourceInside (graph : ℕ) (size : UInt32) (src : ℕ) (len : UInt32) : Prop :=
  ∀ a, src ≤ a → a < src + len.toNat → graph ≤ a ∧ a < graph + size.toNat

/-- The sections of the header are in order and disjoint, and end in the file; the sums are
exact. -/
structure BinHdr.InOrder (header : BinHdr) (size : UInt32) : Prop where
  text : header.textOffset.toNat + header.textSize.toNat ≤ header.rodataOffset.toNat
  rodata : header.rodataOffset.toNat + header.rodataSize.toNat ≤ header.dataOffset.toNat
  data : header.dataOffset.toNat + header.dataSize.toNat ≤ header.bssOffset.toNat
  bss : header.bssOffset.toNat + header.bssSize.toNat ≤ size.toNat

/-- The sections of the header are in order, and the sources that the driver copies are in the
buffer. -/
structure SaneSources (header : BinHdr) (info : GraphInfo) (graph : ℕ) (size : UInt32) : Prop where
  order : header.InOrder size
  text : SourceInside graph size info.pbufTempl.textSrc info.pbufTempl.textSize
  rodata : SourceInside graph size info.tbufTempl.rodataSrc info.tbufTempl.rodataSize
  dcr : SourceInside graph size info.tbufTempl.dcrSrc info.tbufTempl.dcrSize
  static : ∀ sec ∈ info.pbufTempl.staticSections, SourceInside graph size sec.loadSrc sec.size

/-- None of the sums that the header check compares wraps. -/
structure BinHdr.NoWrap (header : BinHdr) : Prop where
  text : header.textOffset.toNat + header.textSize.toNat < 2 ^ 32
  rodata : header.rodataOffset.toNat + header.rodataSize.toNat < 2 ^ 32
  data : header.dataOffset.toNat + header.dataSize.toNat < 2 ^ 32
  bss : header.bssOffset.toNat + header.bssSize.toNat < 2 ^ 32

/-- The fields of the file that the parser does not check well: no sum of the header wraps, and the
DCR section and the contents of the static sections end in the file or are empty. -/
structure SaneFields (header : BinHdr) (d : GraphDescr) (size : UInt32) : Prop where
  noWrap : header.NoWrap
  dcr : header.dcrSize = 0 ∨ header.dcrOffset.toNat + header.dcrSize.toNat ≤ size.toNat
  static : ∀ sec ∈ d.staticSections, sec.size = 0 ∨
    header.dataOffset.toNat + sec.offsetInFile.toNat + sec.size.toNat ≤ size.toNat

section Sources

variable {header : BinHdr} {graph : ℕ} {size : UInt32}

/-- A range at an offset is in the buffer if it is empty or ends there. -/
theorem sourceInside_offset {off : ℕ} {len : UInt32} :
    SourceInside graph size (graph + off) len ↔ len = 0 ∨ off + len.toNat ≤ size.toNat := by
  constructor
  · intro h
    by_cases hlen : len = 0
    · exact .inl hlen
    · have hpos : len.toNat ≠ 0 := fun h0 => hlen (UInt32.toNat_inj.mp h0)
      have := h (graph + off + (len.toNat - 1)) (by omega) (by omega)
      exact .inr (by omega)
  · rintro (rfl | hle) a hsrc hlt
    · exact absurd hlt (by simpa using hsrc)
    · omega

/-- A sum that does not wrap is exact. -/
theorem toNat_add_le {a b c : UInt32} (h : a + b ≤ c) (hwrap : a.toNat + b.toNat < 2 ^ 32) :
    a.toNat + b.toNat ≤ c.toNat := by
  have := UInt32.le_iff_toNat_le.mp h
  rwa [UInt32.toNat_add, Nat.mod_eq_of_lt hwrap] at this

/-- The sections of an accepted header are in order if no sum wraps, and only then. -/
theorem BinHdr.Accepted.inOrder_iff (h : header.Accepted size) :
    header.InOrder size ↔ header.NoWrap := by
  have hfile := UInt32.le_iff_toNat_le.mp h.filesize
  constructor
  · intro ho
    exact ⟨Nat.lt_of_le_of_lt ho.text (UInt32.toNat_lt _),
      Nat.lt_of_le_of_lt ho.rodata (UInt32.toNat_lt _),
      Nat.lt_of_le_of_lt ho.data (UInt32.toNat_lt _), Nat.lt_of_le_of_lt ho.bss (UInt32.toNat_lt _)⟩
  · intro hw
    exact ⟨toNat_add_le h.rodata hw.text, toNat_add_le h.data hw.rodata, toNat_add_le h.bss hw.data,
      (toNat_add_le h.fits hw.bss).trans hfile⟩

/-- When a graph is accepted, its header is, and its bss section is parsed. -/
theorem parseBssSection_of_parseGraph {ctrl : ParserConfig} {mem : Memory} {info : GraphInfo}
    (h : (parseGraph ctrl mem graph size).value = .ok info) :
    (BinHdr.load mem graph).Accepted size ∧ ∃ bssSize p,
      (parseBssSection mem ((BinHdr.load mem graph).info graph size) bssSize p).value =
        .ok info := by
  by_cases hshort : graph = 0 ∨ size < binHdrSize
  · obtain ⟨⟨e, he⟩, -⟩ := @parseGraph_short ctrl mem graph size hshort
    rw [he] at h
    cases h
  rw [not_or] at hshort
  obtain ⟨hnull, hsize⟩ := hshort
  rcases hcheck : (BinHdr.load mem graph).check size with e | ⟨⟩
  · rw [(parseGraph_refused hnull hsize hcheck).1] at h
    cases h
  refine ⟨BinHdr.accepted_of_check hcheck, ?_⟩
  obtain ⟨bss, hbss, hvalue, -⟩ := @parseGraph_run ctrl mem graph size hnull hsize hcheck
  rw [hvalue] at h
  rcases hval : bss.value with e | info'
  · rw [hval] at h
    cases h
  · rw [hval] at h
    have hinfo : info' = info := by
      simp only [Except.bind] at h
      split at h
      · exact Except.ok.inj h
      · cases h
    rw [hbss, hinfo] at hval
    exact ⟨_, _, hval⟩

/-- The graph info of an accepted graph is the one of its description. -/
theorem accepted_of_parseGraph {ctrl : ParserConfig} {mem : Memory} {info : GraphInfo}
    (h : (parseGraph ctrl mem graph size).value = .ok info) :
    (BinHdr.load mem graph).Accepted size ∧
      info = (graphAt mem ((BinHdr.load mem graph).info graph size).linked
        ((BinHdr.load mem graph).info graph size).bssSrc).info
          ((BinHdr.load mem graph).info graph size) := by
  obtain ⟨haccepted, bssSize, p, hbss⟩ := parseBssSection_of_parseGraph h
  exact ⟨haccepted, info_of_parseBssSection hbss⟩

/-- Sorting tensors changes no source. -/
theorem sortIoTensors_templ (info : GraphInfo) :
    (sortIoTensors info).pbufTempl = info.pbufTempl ∧
      (sortIoTensors info).tbufTempl = info.tbufTempl := by
  unfold sortIoTensors
  split <;> exact ⟨rfl, rfl⟩

/-- The sources of an accepted graph are those of its header and of its static sections. -/
theorem saneSources_info_iff (d : GraphDescr) :
    SaneSources header (d.info (header.info graph size)) graph size ↔
      header.InOrder size ∧
        SourceInside graph size (graph + header.textOffset.toNat) header.textSize ∧
        SourceInside graph size (graph + header.rodataOffset.toNat) header.rodataSize ∧
        SourceInside graph size (if header.dcrSize ≠ 0 then graph + header.dcrOffset.toNat else 0)
          header.dcrSize ∧
        ∀ sec ∈ d.staticSections, SourceInside graph size
          (graph + header.dataOffset.toNat + sec.offsetInFile.toNat) sec.size := by
  obtain ⟨hpbuf, htbuf⟩ := sortIoTensors_templ (d.unsorted (header.info graph size))
  have hstatic : (d.info (header.info graph size)).pbufTempl.staticSections =
      d.staticSections.map (·.sectionDesc (graph + header.dataOffset.toNat)) := by
    rw [GraphDescr.info, hpbuf, ← GraphDescr.found_staticSections]
    rfl
  constructor
  · rintro ⟨horder, htext, hrodata, hdcr, hsec⟩
    rw [GraphDescr.info, hpbuf] at htext
    rw [GraphDescr.info, htbuf] at hrodata hdcr
    rw [hstatic, List.forall_mem_map] at hsec
    exact ⟨horder, htext, hrodata, hdcr, hsec⟩
  · rintro ⟨horder, htext, hrodata, hdcr, hsec⟩
    refine ⟨horder, ?_, ?_, ?_, ?_⟩
    · rw [GraphDescr.info, hpbuf]
      exact htext
    · rw [GraphDescr.info, htbuf]
      exact hrodata
    · rw [GraphDescr.info, htbuf]
      exact hdcr
    · rw [hstatic, List.forall_mem_map]
      exact hsec

/-- **The sources of an accepted graph.**  The sections are in order and all sources that the driver
copies are in the buffer if and only if the fields that the parser does not check well are sane. -/
theorem sources_sane_iff (ctrl : ParserConfig) (mem : Memory) (graph : ℕ) (size : UInt32)
    (info : GraphInfo) (h : (parseGraph ctrl mem graph size).value = .ok info) :
    SaneSources (BinHdr.load mem graph) info graph size ↔
      SaneFields (BinHdr.load mem graph)
        (graphAt mem ((BinHdr.load mem graph).info graph size).linked
          ((BinHdr.load mem graph).info graph size).bssSrc) size := by
  obtain ⟨haccepted, rfl⟩ := accepted_of_parseGraph h
  rw [saneSources_info_iff, haccepted.inOrder_iff]
  have hdcr : SourceInside graph size
      (if (BinHdr.load mem graph).dcrSize ≠ 0 then graph + (BinHdr.load mem graph).dcrOffset.toNat
        else 0) (BinHdr.load mem graph).dcrSize ↔
      (BinHdr.load mem graph).dcrSize = 0 ∨
        (BinHdr.load mem graph).dcrOffset.toNat + (BinHdr.load mem graph).dcrSize.toNat ≤
          size.toNat := by
    by_cases hzero : (BinHdr.load mem graph).dcrSize = 0
    · rw [hzero]
      exact ⟨fun _ => .inl rfl, fun _ a _ hlt => absurd hlt (Nat.not_lt_zero a)⟩
    · rw [if_pos hzero]
      exact sourceInside_offset
  rw [hdcr]
  simp only [Nat.add_assoc, sourceInside_offset]
  constructor
  · rintro ⟨hwrap, -, -, hdcr, hstatic⟩
    exact ⟨hwrap, hdcr, by simpa only [Nat.add_assoc] using hstatic⟩
  · rintro ⟨hwrap, hdcr, hstatic⟩
    -- the header check covers the text and the rodata when no sum wraps
    obtain ⟨htext, hrodata, hdata, hbss⟩ := haccepted.inOrder_iff.mpr hwrap
    exact ⟨hwrap, .inr (by omega), .inr (by omega), hdcr,
      by simpa only [Nat.add_assoc] using hstatic⟩

end Sources

/-! ## Graphs with a DCR section -/

/-- A file with a static section and a reuse section; the DCR section is anywhere. -/
def dcrFile (dcrOffset dcrSize : UInt32) : List UInt8 :=
  magic ++ List.replicate 8 0 ++
    ([0x104B4, 0x03000000, 0, 104, 168, 0, 0, 0, 104, 4, 108, 4, dcrOffset, dcrSize,
        112, 8, 120, 48, 0, 0, 0, 0] ++ [1, 2, 3, 4] ++
      [256, 4096, 1, 1, 0, 8, 4096, 0, 512, 4096, 0, 0]).flatMap wordBytes

/-- The graph info of such a file at address 4096. -/
def dcrInfo (dcrSrc : ℕ) (dcrSize : UInt32) : GraphInfo where
  gbin := 4096
  gbinSize := 168
  device := 0x104B4
  version := 0x03000000
  bssSrc := 4216
  pbufTempl := {
    textSrc := 4200, textSize := 4, dataSrc := 4208, dataSize := 8
    staticSections := [{ loadSrc := 4208, size := 8 }] }
  tbufTempl := {
    rodataSrc := 4204, rodataSize := 4, dcrSrc := dcrSrc, dcrSize := dcrSize
    stackSize := 256, stackAlignInPage := 1, reuseSections := [{ size := 512 }] }

/-- A DCR section in the file. -/
theorem sources_sane_sample :
    SaneSources (BinHdr.load (Memory.ofBytes 4096 (dcrFile 164 4)) 4096)
      (dcrInfo 4260 4) 4096 168 := by
  refine (sources_sane_iff sampleConfig (Memory.ofBytes 4096 (dcrFile 164 4)) 4096 168 _ ?_).mpr
    ⟨⟨?_, ?_, ?_, ?_⟩, ?_, ?_⟩
  all_goals decide +kernel

/-- A DCR section far behind the file is accepted. -/
theorem sources_outside :
    ¬∀ info, (parseGraph sampleConfig (Memory.ofBytes 4096 (dcrFile 8192 64)) 4096 168).value =
      .ok info →
        SaneSources (BinHdr.load (Memory.ofBytes 4096 (dcrFile 8192 64)) 4096) info 4096 168 := by
  intro h
  have hsane := h (dcrInfo 12288 64) (by decide +kernel)
  have := (hsane.dcr 12288 (by decide) (by decide)).2
  exact absurd this (by decide)

end Aipu
