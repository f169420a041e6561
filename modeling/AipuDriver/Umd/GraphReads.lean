import AipuDriver.Umd.GraphDescription

/-!
# What the parser reads

`parse_bss_section` checks the descriptors of the bss section against a bound that counts the bss
header twice, and copies the bss header and the nodes of a linked list without a check.  So a graph
can make it read behind the buffer: `reads_inside_iff` says which graphs do not.
-/

namespace Aipu

open ByteReader

/-! ## The header -/

/-- A check that passes, and the checks behind it. -/
theorem ok_of_ite_error {ε α : Type} {c : Prop} [Decidable c] {e : ε} {x : Except ε α} {a : α}
    (h : (if c then .error e else x) = .ok a) : ¬c ∧ x = .ok a := by
  by_cases hc : c
  · rw [if_pos hc] at h
    cases h
  · exact ⟨hc, by rwa [if_neg hc] at h⟩

/-- What the checks of the header say of an accepted one; the sums are those of `uint32_t`. -/
structure BinHdr.Accepted (header : BinHdr) (size : UInt32) : Prop where
  filesize : header.filesize ≤ size
  version : gversionMinor header.version = aipuLoadableGraphV0003 ∨
    gversionMinor header.version = aipuLoadableGraphV0004
  text : binHdrSize ≤ header.textOffset
  rodata : header.textOffset + header.textSize ≤ header.rodataOffset
  data : header.rodataOffset + header.rodataSize ≤ header.dataOffset
  bss : header.dataOffset + header.dataSize ≤ header.bssOffset
  fits : header.bssOffset + header.bssSize ≤ header.filesize

/-- The checks of the header, one after the other. -/
theorem BinHdr.accepted_of_check {header : BinHdr} {size : UInt32}
    (h : header.check size = .ok ()) : header.Accepted size := by
  obtain ⟨-, h⟩ := ok_of_ite_error h
  obtain ⟨hfilesize, h⟩ := ok_of_ite_error h
  obtain ⟨hversion, h⟩ := ok_of_ite_error h
  obtain ⟨-, h⟩ := ok_of_ite_error h
  obtain ⟨-, h⟩ := ok_of_ite_error h
  obtain ⟨htext, h⟩ := ok_of_ite_error h
  obtain ⟨hrodata, h⟩ := ok_of_ite_error h
  obtain ⟨hdata, h⟩ := ok_of_ite_error h
  obtain ⟨hbss, -⟩ := ok_of_ite_error h
  simp only [gt_iff_lt, not_or, UInt32.not_lt] at hfilesize htext hrodata hdata hbss
  exact ⟨hfilesize, by tauto, htext.1, htext.2.1, hrodata.1, hdata, hbss.1⟩

/-! ## The graph -/

section Parse

variable {ctrl : ParserConfig} {mem : Memory} {graph : ℕ} {size : UInt32}

/-- Without a header nothing is read. -/
theorem parseGraph_short (h : graph = 0 ∨ size < binHdrSize) :
    (∃ e, (parseGraph ctrl mem graph size).value = .error e) ∧
      (parseGraph ctrl mem graph size).reads = [] := by
  unfold parseGraph
  by_cases hnull : graph = 0
  · simp only [if_pos hnull]
    exact ⟨⟨_, rfl⟩, rfl⟩
  · have hsize : size < binHdrSize := h.resolve_left hnull
    simp only [if_neg hnull, if_pos hsize]
    exact ⟨⟨_, rfl⟩, rfl⟩

/-- A header that is refused is all that is read. -/
theorem parseGraph_refused (hnull : graph ≠ 0) (hsize : ¬size < binHdrSize) {e : AipuStatus}
    (hcheck : (BinHdr.load mem graph).check size = .error e) :
    (parseGraph ctrl mem graph size).value = .error e ∧
      (parseGraph ctrl mem graph size).reads = [(graph, binHdrSize.toNat)] := by
  unfold parseGraph parseGraphHeader
  simp only [if_neg hnull, if_neg hsize, Reader.bind_assoc]
  rw [Reader.seek_load_run, hcheck]
  exact ⟨rfl, rfl⟩

/-- Behind an accepted header comes the bss section. -/
theorem parseGraph_run (hnull : graph ≠ 0) (hsize : ¬size < binHdrSize)
    (hcheck : (BinHdr.load mem graph).check size = .ok ()) :
    ∃ bss, bss = parseBssSection mem ((BinHdr.load mem graph).info graph size)
        (BinHdr.load mem graph).bssSize (graph + binHdrSize.toNat) ∧
      (parseGraph ctrl mem graph size).value = (bss.value.bind fun info =>
        if matchTargetDev ctrl (aipuArch info.device) (aipuVersion info.device)
            (aipuConfig info.device) ∨ ctrl.bypassVersionCheck then .ok info
        else .error .errorTargetNotFound) ∧
      (parseGraph ctrl mem graph size).reads = (graph, binHdrSize.toNat) :: bss.reads := by
  refine ⟨_, rfl, ?_⟩
  have hversion := (BinHdr.accepted_of_check hcheck).version
  unfold parseGraph parseGraphHeader
  simp only [if_neg hnull, if_neg hsize, Reader.bind_assoc]
  rw [Reader.seek_load_run, hcheck]
  simp only [Reader.pure_bind]
  have hinfo : ((BinHdr.load mem graph).info graph size).version =
      (BinHdr.load mem graph).version :=
    rfl
  rw [hinfo, if_pos hversion]
  change (Reader.bind _ _ _).value = _ ∧ _ :: (Reader.bind _ _ _).reads = _
  unfold Reader.bind
  rcases parseBssSection mem ((BinHdr.load mem graph).info graph size)
    (BinHdr.load mem graph).bssSize (graph + binHdrSize.toNat) with ⟨_ | info, q, reads⟩
  · exact ⟨rfl, rfl⟩
  · dsimp only
    split
    · simp [pure, Reader.pure, Except.bind, *]
    · simp [Reader.fail, Except.bind, *]

end Parse

/-! ## Reads within the buffer -/

/-- The descriptors of a graph from `p` on that end below the bound of the parser end within the
buffer, and so do the nodes, if all descriptors end below the bound. -/
structure GraphDescr.Fits (d : GraphDescr) (linked : Bool) (p ub bufEnd : ℕ) : Prop where
  records : ∀ r ∈ spans p (d.lens linked), r.1 + r.2 < ub → r.1 + r.2 ≤ bufEnd
  nodes : (∀ r ∈ spans p (d.lens linked), r.1 + r.2 < ub) →
    p + (d.lens linked).sum + listNodeDescSize * d.nodes.length ≤ bufEnd

/-- The buffer and the descriptors in it do not make the parser read behind the buffer: the header
is refused, or the bss header is in the buffer, and it is refused or the descriptors and nodes
behind it fit. -/
def ReadsFit (mem : Memory) (graph : ℕ) (size : UInt32) : Prop :=
  let header := BinHdr.load mem graph
  let info := header.info graph size
  let p := info.bssSrc + bssHdrV3Size
  graph = 0 ∨ size < binHdrSize ∨ header.check size ≠ .ok () ∨
    p ≤ graph + size.toNat ∧ (¬(BssHdrV3.load mem info.bssSrc).Ok ∨
      (graphAt mem info.linked info.bssSrc).Fits info.linked p (p + header.bssSize.toNat)
        (graph + size.toNat))

section Reads

variable {mem : Memory} {info : GraphInfo} {bssSize : UInt32} {p bufEnd : ℕ}

/-- What `parse_bss_section` reads is behind the start of the section. -/
theorem parseBssSection_reads_ge {r : ℕ × ℕ} (hr : r ∈ (parseBssSection mem info bssSize p).reads) :
    info.bssSrc ≤ r.1 := by
  by_cases hok : (BssHdrV3.load mem info.bssSrc).Ok
  · by_cases hpass : ∀ r ∈ spans (info.bssSrc + bssHdrV3Size)
        ((graphAt mem info.linked info.bssSrc).lens info.linked),
          below (info.bssSrc + bssHdrV3Size + bssSize.toNat) r = true
    · rw [(parseBssSection_pass hok hpass).2, List.mem_cons, List.mem_append] at hr
      rcases hr with rfl | hr | hr
      · exact Nat.le_refl _
      · have := (le_of_mem_spans hr).1
        omega
      · have := (le_of_mem_spans hr).1
        omega
    · push Not at hpass
      obtain ⟨r', hr', hbelow⟩ := hpass
      rw [(parseBssSection_overflow hok ⟨r', hr', by simpa using hbelow⟩).2, List.mem_cons,
        mem_takeWhile_below] at hr
      rcases hr with rfl | ⟨hr, -⟩
      · exact Nat.le_refl _
      · have := (le_of_mem_spans hr).1
        omega
  · rw [(parseBssSection_refused hok).2, List.mem_singleton] at hr
    rw [hr]

/-- The reads of `parse_bss_section` end within the buffer if the bss header does and the
descriptors and nodes fit, and only then. -/
theorem parseBssSection_reads_le_iff :
    (∀ r ∈ (parseBssSection mem info bssSize p).reads, r.1 + r.2 ≤ bufEnd) ↔
      info.bssSrc + bssHdrV3Size ≤ bufEnd ∧ (¬(BssHdrV3.load mem info.bssSrc).Ok ∨
        (graphAt mem info.linked info.bssSrc).Fits info.linked (info.bssSrc + bssHdrV3Size)
          (info.bssSrc + bssHdrV3Size + bssSize.toNat) bufEnd) := by
  by_cases hok : (BssHdrV3.load mem info.bssSrc).Ok
  swap
  · rw [(parseBssSection_refused hok).2, List.forall_mem_singleton]
    exact ⟨fun h => ⟨h, .inl hok⟩, And.left⟩
  by_cases hpass : ∀ r ∈ spans (info.bssSrc + bssHdrV3Size)
      ((graphAt mem info.linked info.bssSrc).lens info.linked),
        below (info.bssSrc + bssHdrV3Size + bssSize.toNat) r = true
  · have hlt : ∀ r ∈ spans (info.bssSrc + bssHdrV3Size)
        ((graphAt mem info.linked info.bssSrc).lens info.linked),
          r.1 + r.2 < info.bssSrc + bssHdrV3Size + bssSize.toNat :=
      fun r hr => of_decide_eq_true (hpass r hr)
    have hsum : ((graphAt mem info.linked info.bssSrc).nodes.map fun _ => listNodeDescSize).sum =
        listNodeDescSize * (graphAt mem info.linked info.bssSrc).nodes.length := by
      simp [Nat.mul_comm]
    rw [(parseBssSection_pass hok hpass).2, List.forall_mem_cons]
    refine and_congr_right fun hhdr => ?_
    simp only [not_true_eq_false, hok, false_or, List.forall_mem_append]
    constructor
    · rintro ⟨hrecords, hnodes⟩
      rw [spans_end_le_iff hhdr] at hrecords
      rw [spans_end_le_iff hrecords, hsum] at hnodes
      exact ⟨fun r hr _ => ((le_of_mem_spans hr).2).trans hrecords, fun _ => hnodes⟩
    · intro hfits
      have hrecords := fun r hr => hfits.records r hr (hlt r hr)
      refine ⟨hrecords, ?_⟩
      rw [spans_end_le_iff hhdr] at hrecords
      rw [spans_end_le_iff hrecords, hsum]
      exact hfits.nodes hlt
  · push Not at hpass
    obtain ⟨r', hr', hbelow⟩ := hpass
    rw [(parseBssSection_overflow hok ⟨r', hr', by simpa using hbelow⟩).2, List.forall_mem_cons]
    refine and_congr_right fun _ => ?_
    simp only [not_true_eq_false, hok, false_or, mem_takeWhile_below, and_imp]
    refine ⟨fun h => ⟨h, fun hall => absurd (hall r' hr') ?_⟩, GraphDescr.Fits.records⟩
    simpa [below] using hbelow

/-- **Reads within the buffer.**  The parser reads nothing outside the buffer if and only if the
buffer and the descriptors in it fit. -/
theorem reads_inside_iff (ctrl : ParserConfig) (mem : Memory) (graph : ℕ) (size : UInt32) :
    (∀ r ∈ (parseGraph ctrl mem graph size).reads, graph ≤ r.1 ∧ r.1 + r.2 ≤ graph + size.toNat) ↔
      ReadsFit mem graph size := by
  unfold ReadsFit
  by_cases hshort : graph = 0 ∨ size < binHdrSize
  · rw [(parseGraph_short hshort).2]
    refine ⟨fun _ => ?_, fun _ => by simp⟩
    rcases hshort with hnull | hsize
    · exact .inl hnull
    · exact .inr (.inl hsize)
  rw [not_or] at hshort
  obtain ⟨hnull, hsize⟩ := hshort
  have hhdr : graph + binHdrSize.toNat ≤ graph + size.toNat :=
    Nat.add_le_add_left (UInt32.le_iff_toNat_le.mp (UInt32.not_lt.mp hsize)) graph
  rcases hcheck : (BinHdr.load mem graph).check size with e | ⟨⟩
  · rw [(parseGraph_refused hnull hsize hcheck).2, List.forall_mem_singleton]
    exact ⟨fun _ => .inr (.inr (.inl (by simp [hcheck]))), fun _ => ⟨Nat.le_refl _, hhdr⟩⟩
  · obtain ⟨bss, rfl, -, hreads⟩ := @parseGraph_run ctrl mem graph size hnull hsize hcheck
    rw [hreads, List.forall_mem_cons]
    simp only [hnull, hsize, hcheck, ne_eq, not_true_eq_false, false_or]
    rw [← parseBssSection_reads_le_iff (p := graph + binHdrSize.toNat)]
    constructor
    · exact fun h r hr => (h.2 r hr).2
    · refine fun h => ⟨⟨Nat.le_refl _, hhdr⟩, fun r hr => ⟨?_, h r hr⟩⟩
      exact (Nat.le_add_right graph _).trans (parseBssSection_reads_ge hr)

/-- A device without runtime configuration. -/
def sampleConfig : ParserConfig where
  aipuArch := 0
  aipuVersion := 1
  aipuHwConfig := 1204
  bypassVersionCheck := false

/-- A file of 107 bytes, the last of which is its bss section. -/
def shortBssFile : List UInt8 :=
  magic ++ List.replicate 8 0 ++
    [0, 0x03000000, 0, 104, 107, 0, 0, 0, 104, 1, 105, 1, 0, 0, 106, 0, 106, 1, 0, 0, 0, 0].flatMap
      wordBytes ++ [0, 0, 0]

/-- The bss header of a bss section of one byte is read behind the buffer. -/
theorem reads_outside :
    ¬∀ r ∈ (parseGraph sampleConfig (Memory.ofBytes 4096 shortBssFile) 4096 107).reads,
      4096 ≤ r.1 ∧ r.1 + r.2 ≤ 4096 + (107 : UInt32).toNat := by
  decide +kernel

end Reads

end Aipu
