import AipuDriver.Umd.GraphReads
import AipuDriver.Umd.GraphRoundTrip
import AipuDriver.Umd.LoadedImage

/-!
# Graph files, from the compiler to the device

A `GraphFile` is what a compiler wants to tell the driver: the code, the constants, the weights and
the description of the buffers.  A file is laid out when its header says where these are; there may
be gaps between them (`GraphFile.LaidOut`), and there is a layout without gaps
(`GraphFile.encode_laidOut`).  `parse_graph` finds everything in any layout, and once the graph is
loaded, the code and the weights are in the memory that the device reads, for as long as the graph
is loaded.
-/

namespace Aipu

open ByteReader Transition

/-! ## Files -/

/-- A graph as the compiler has it: its code, its constants, the descriptor of the linked list, its
weights, and the description of its buffers. -/
structure GraphFile where
  device : UInt32
  version : UInt32
  buildVersion : UInt32
  flag : UInt32
  entry : UInt32
  text : List UInt8
  rodata : List UInt8
  dcr : List UInt8
  data : List UInt8
  descr : GraphDescr

/-- The file has a linked list. -/
def GraphFile.linked (f : GraphFile) : Bool :=
  gversionMinor f.version = aipuLoadableGraphV0004 ∧ getLinkedListFlag f.flag ≠ 0

/-- The bss section. -/
def GraphFile.bss (f : GraphFile) : List UInt8 := f.descr.encode f.linked

/-- The words of a header behind its identification: those that no one reads are the type and the
last four. -/
def BinHdr.words (header : BinHdr) (type : UInt32) (rest : List UInt32) : List UInt32 :=
  [header.device, header.version, header.buildVersion, header.hdrsize, header.filesize, type,
    header.flag, header.entry, header.textOffset, header.textSize, header.rodataOffset,
    header.rodataSize, header.dcrOffset, header.dcrSize, header.dataOffset, header.dataSize,
    header.bssOffset, header.bssSize] ++ rest

/-- A header as it lies in the file. -/
def BinHdr.encode (header : BinHdr) (type : UInt32) (rest : List UInt32) : List UInt8 :=
  header.ident ++ (header.words type rest).flatMap wordBytes

/-- The bytes are in the file, where the offset and the size say. -/
structure SectionAt (file : List UInt8) (offset size : UInt32) (bytes : List UInt8) : Prop where
  size : size.toNat = bytes.length
  found : bytes <+: file.drop offset.toNat

/-- The file begins with the header, and the header says where the sections are: in order, with
gaps between them, and the descriptor of the linked list anywhere; the bss section may be longer
than needed. -/
structure GraphFile.LaidOut (f : GraphFile) (header : BinHdr) (file : List UInt8) : Prop where
  encoded : ∃ type rest, rest.length = 4 ∧ header.encode type rest <+: file
  ident : header.ident.length = 16 ∧ header.ident.takeWhile (· ≠ 0) = magic
  hdrsize : header.hdrsize = binHdrSize
  filesize : header.filesize.toNat = file.length
  device : header.device = f.device
  version : header.version = f.version
  buildVersion : header.buildVersion = f.buildVersion
  flag : header.flag = f.flag
  entry : header.entry = f.entry
  text : SectionAt file header.textOffset header.textSize f.text
  rodata : SectionAt file header.rodataOffset header.rodataSize f.rodata
  dcr : SectionAt file header.dcrOffset header.dcrSize f.dcr
  data : SectionAt file header.dataOffset header.dataSize f.data
  bss : f.bss.length ≤ header.bssSize.toNat ∧ f.bss <+: file.drop header.bssOffset.toNat
  headerBelow : binHdrSize.toNat ≤ header.textOffset.toNat
  textBelow : header.textOffset.toNat + header.textSize.toNat ≤ header.rodataOffset.toNat
  rodataBelow : header.rodataOffset.toNat + header.rodataSize.toNat ≤ header.dataOffset.toNat
  dataBelow : header.dataOffset.toNat + header.dataSize.toNat ≤ header.bssOffset.toNat
  bssBelow : header.bssOffset.toNat + header.bssSize.toNat ≤ file.length

/-- A graph that a file can carry and the driver supports. -/
structure GraphFile.WellFormed (f : GraphFile) : Prop where
  version : gversionMinor f.version = aipuLoadableGraphV0003 ∨
    gversionMinor f.version = aipuLoadableGraphV0004
  entry : f.entry.toNat < f.text.length
  rodata : f.rodata ≠ []
  weights : ∀ sec ∈ f.descr.staticSections,
    sec.offsetInFile.toNat + sec.size.toNat ≤ f.data.length
  descr : f.descr.WellFormed f.linked

/-! ## The header -/

section Header

variable {mem : Memory} {p graph : ℕ} {header : BinHdr} {type size : UInt32} {rest : List UInt32}
  {f : GraphFile} {file : List UInt8}

/-- A header is read as it lies in the file. -/
theorem binHdr_of_holds (hident : header.ident.length = 16)
    (h : mem.Holds p (header.encode type rest)) : BinHdr.load mem p = header := by
  rw [BinHdr.encode, Memory.holds_append, hident] at h
  have hword : ∀ (i : ℕ) (w : UInt32), (header.words type rest)[i]? = some w →
      mem.word (p + 16 + 4 * i) = w := by
    intro i w hw
    obtain ⟨hi, rfl⟩ := List.getElem?_eq_some_iff.mp hw
    exact word_of_holds_words h.2 i hi
  have hbytes : (List.range 16).map (fun i => mem (p + i)) = header.ident := by
    refine List.ext_getElem (by simp [hident]) fun i hi hi' => ?_
    rw [List.getElem_map, List.getElem_range]
    exact h.1 i hi'
  rw [BinHdr.load, hbytes, hword 0 _ rfl, hword 1 _ rfl, hword 2 _ rfl, hword 3 _ rfl,
    hword 4 _ rfl, hword 6 _ rfl, hword 7 _ rfl, hword 8 _ rfl, hword 9 _ rfl, hword 10 _ rfl,
    hword 11 _ rfl, hword 12 _ rfl, hword 13 _ rfl, hword 14 _ rfl, hword 15 _ rfl, hword 16 _ rfl,
    hword 17 _ rfl]

/-- Sums of words that are words. -/
theorem add_le_of_toNat {a b c : UInt32} (h : a.toNat + b.toNat ≤ c.toNat) : a + b ≤ c := by
  have hword := c.toNat_lt
  rw [UInt32.le_iff_toNat_le, UInt32.toNat_add, Nat.mod_eq_of_lt (by omega)]
  exact h

/-- The sizes of the sections. -/
theorem GraphFile.WellFormed.sizes (hf : f.WellFormed) :
    0 < f.text.length ∧ 0 < f.rodata.length ∧ 0 < f.bss.length := by
  have hbss := f.descr.sum_lens_le f.linked
  have hheader : bssHdrV3Size = 16 := rfl
  refine ⟨Nat.zero_lt_of_lt hf.entry, List.length_pos_iff.mpr hf.rodata, ?_⟩
  rw [GraphFile.bss]
  omega

/-- The header of a file that is laid out passes the checks. -/
theorem GraphFile.LaidOut.check (h : f.LaidOut header file) (hf : f.WellFormed)
    (hsize : file.length ≤ size.toNat) : header.check size = .ok () := by
  obtain ⟨htext, hrodata, hbss⟩ := hf.sizes
  have hnonzero : ∀ {offset len : UInt32} {bytes : List UInt8}, SectionAt file offset len bytes →
      0 < bytes.length → len ≠ 0 := by
    rintro offset len bytes hsec hpos rfl
    have hlen := hsec.size
    rw [UInt32.toNat_zero] at hlen
    omega
  have hfile : ¬size < header.filesize := by
    rw [UInt32.lt_iff_toNat_lt, h.filesize]
    omega
  have hversion : ¬(gversionMinor header.version ≠ aipuLoadableGraphV0003 ∧
      gversionMinor header.version ≠ aipuLoadableGraphV0004) := by
    rw [h.version]
    exact fun hne => hf.version.elim hne.1 hne.2
  have hentry : ¬header.entry ≥ header.textSize := by
    rw [ge_iff_le, UInt32.le_iff_toNat_le, h.text.size, h.entry]
    exact Nat.not_le.mpr hf.entry
  have htextOffset : ¬header.textOffset < binHdrSize := by
    rw [UInt32.lt_iff_toNat_lt]
    exact Nat.not_lt.mpr h.headerBelow
  have hbelow : ∀ {a b c : UInt32}, a.toNat + b.toNat ≤ c.toNat → ¬a + b > c :=
    fun hle => UInt32.not_lt.mpr (add_le_of_toNat hle)
  have hbssSize : header.bssSize ≠ 0 := by
    intro hzero
    have hlen := h.bss.1
    rw [hzero, UInt32.toNat_zero] at hlen
    omega
  have hfits := h.bssBelow
  rw [← h.filesize] at hfits
  have htextBelow : ¬(header.textOffset < binHdrSize ∨
      header.textOffset + header.textSize > header.rodataOffset ∨ header.textSize = 0) :=
    fun hor => hor.elim htextOffset fun hor => hor.elim (hbelow h.textBelow) (hnonzero h.text htext)
  have hrodataBelow : ¬(header.rodataOffset + header.rodataSize > header.dataOffset ∨
      header.rodataSize = 0) :=
    fun hor => hor.elim (hbelow h.rodataBelow) (hnonzero h.rodata hrodata)
  have hbssBelow : ¬(header.bssOffset + header.bssSize > header.filesize ∨ header.bssSize = 0) :=
    fun hor => hor.elim (hbelow hfits) hbssSize
  unfold BinHdr.check
  rw [if_neg (not_not.mpr h.ident.2), if_neg hfile, if_neg hversion, if_neg (not_not.mpr h.hdrsize),
    if_neg hentry, if_neg htextBelow, if_neg hrodataBelow, if_neg (hbelow h.dataBelow),
    if_neg hbssBelow]

/-- The header says whether there is a linked list. -/
theorem GraphFile.LaidOut.linked_info (h : f.LaidOut header file) :
    (header.info graph size).linked = f.linked := by
  refine decide_eq_decide.mpr ?_
  change gversionMinor header.version = aipuLoadableGraphV0004 ∧ _ ≠ 0 ↔ _
  rw [BinHdr.info, h.version, h.flag]
  refine and_congr_right fun hversion => ?_
  rw [if_pos hversion]

end Header

/-! ## The round trip -/

section RoundTrip

variable {mem : Memory} {graph : ℕ} {header : BinHdr} {size : UInt32} {f : GraphFile}
  {file : List UInt8} {ctrl : ParserConfig}

/-- The device is the one that the context has, or the check of the version is bypassed. -/
def GraphFile.Targets (f : GraphFile) (ctrl : ParserConfig) : Prop :=
  matchTargetDev ctrl (aipuArch f.device) (aipuVersion f.device) (aipuConfig f.device) = true ∨
    ctrl.bypassVersionCheck = true

/-- The sources in a graph info are where the code, the constants, the descriptor of the linked list
and the weights of the file are. -/
structure GraphFile.FoundAt (f : GraphFile) (mem : Memory) (info : GraphInfo) : Prop where
  text : info.pbufTempl.textSize.toNat = f.text.length ∧ mem.Holds info.pbufTempl.textSrc f.text
  rodata : info.tbufTempl.rodataSize.toNat = f.rodata.length ∧
    mem.Holds info.tbufTempl.rodataSrc f.rodata
  dcr : info.tbufTempl.dcrSize.toNat = f.dcr.length ∧ mem.Holds info.tbufTempl.dcrSrc f.dcr
  weights : ∀ (i : ℕ) sec, f.descr.staticSections[i]? = some sec →
    ∃ desc, info.pbufTempl.staticSections[i]? = some desc ∧ desc.size = sec.size ∧
      mem.Holds desc.loadSrc ((f.data.drop sec.offsetInFile.toNat).take sec.size.toNat)

/-- What is in the file is in the memory that holds the file. -/
theorem SectionAt.holds {offset len : UInt32} {bytes : List UInt8}
    (h : SectionAt file offset len bytes) (hfile : mem.Holds graph file) :
    mem.Holds (graph + offset.toNat) bytes :=
  holds_of_prefix_drop hfile h.found

/-- A description that lies at the place of the bss section is what the parser returns. -/
theorem parseBssSection_of_holds {d : GraphDescr} {bssSize : UInt32} {p : ℕ}
    (hd : d.WellFormed (header.info graph size).linked)
    (hholds : mem.Holds (header.info graph size).bssSrc
      (d.encode (header.info graph size).linked))
    (hsize : (d.encode (header.info graph size).linked).length ≤ bssSize.toNat) :
    (parseBssSection mem (header.info graph size) bssSize p).value =
      .ok (d.decoded (header.info graph size)) := by
  generalize hinfo : header.info graph size = info at *
  have hlen : (d.words info.linked).length < 2 ^ 32 := by
    have hword := bssSize.toNat_lt
    rw [GraphDescr.encode, length_flatMap_wordBytes] at hsize
    omega
  have hfound : graphAt mem info.linked info.bssSrc = d :=
    graphAt_of_holds hlen (fun hlinked => by simpa [hlinked] using hd.nodes) hholds
  have hok : (BssHdrV3.load mem info.bssSrc).Ok := by
    rw [← @graphAt_header mem _ info.linked, hfound]
    exact hd.header_ok hlen
  have hbelow : ∀ r ∈ spans (info.bssSrc + bssHdrV3Size) (d.lens info.linked),
      below (info.bssSrc + bssHdrV3Size + bssSize.toNat) r = true := by
    intro r hr
    have hend := (le_of_mem_spans hr).2
    have hle := d.sum_lens_le info.linked
    have hpos : 0 < bssHdrV3Size := by decide
    exact decide_eq_true (by omega)
  obtain ⟨hvalue, -⟩ := @parseBssSection_pass _ _ bssSize p hok (by rwa [hfound])
  have hlist : ¬(info.linked = true ∧ d.nodes = []) :=
    fun hempty => hd.nodes.mpr hempty.1 hempty.2
  rw [hvalue, hfound, if_neg hlist, ← hinfo, GraphDescr.info_eq_decoded d (hinfo ▸ hd)]

/-- The sources of a decoded description are where the file has them. -/
theorem GraphFile.LaidOut.found (h : f.LaidOut header file) (hfile : mem.Holds graph file) :
    f.FoundAt mem (f.descr.decoded (header.info graph size)) := by
  refine ⟨⟨h.text.size, h.text.holds hfile⟩, ⟨h.rodata.size, h.rodata.holds hfile⟩,
    ⟨h.dcr.size, ?_⟩, fun i sec hsec => ?_⟩
  · by_cases hdcr : header.dcrSize = 0
    · have hlen := h.dcr.size
      rw [hdcr, UInt32.toNat_zero] at hlen
      rw [List.eq_nil_of_length_eq_zero hlen.symm]
      exact fun i hi => absurd hi (Nat.not_lt_zero i)
    · have hsrc : (f.descr.decoded (header.info graph size)).tbufTempl.dcrSrc =
          graph + header.dcrOffset.toNat := if_pos hdcr
      rw [hsrc]
      exact h.dcr.holds hfile
  · have hdesc : (f.descr.decoded (header.info graph size)).pbufTempl.staticSections[i]? =
        some (sec.decoded (graph + header.dataOffset.toNat)) := by
      rw [GraphDescr.decoded, List.getElem?_map, hsec]
      rfl
    exact ⟨_, hdesc, rfl, holds_of_prefix_drop (h.data.holds hfile) (List.take_prefix _ _)⟩

/-- The parser returns the description. -/
theorem GraphFile.LaidOut.parse (h : f.LaidOut header file) (hf : f.WellFormed)
    (hfile : mem.Holds graph file) (hnull : graph ≠ 0) (hsize : file.length ≤ size.toNat)
    (htarget : f.Targets ctrl) :
    (parseGraph ctrl mem graph size).value = .ok (f.descr.decoded (header.info graph size)) := by
  obtain ⟨type, rest, hrest, hencoded⟩ := h.encoded
  have hheader : BinHdr.load mem graph = header :=
    binHdr_of_holds h.ident.1 (holds_of_prefix_drop (k := 0) hfile hencoded)
  have hlarge : ¬size < binHdrSize := by
    have hlen := hencoded.length_le
    rw [BinHdr.encode, List.length_append, length_flatMap_wordBytes, h.ident.1, BinHdr.words,
      List.length_append, hrest] at hlen
    rw [UInt32.lt_iff_toNat_lt, show binHdrSize.toNat = 104 from rfl]
    simp only [List.length_cons, List.length_nil] at hlen
    omega
  obtain ⟨bss, hbss, hvalue, -⟩ := @parseGraph_run ctrl mem graph size hnull hlarge (by
    rw [hheader]
    exact h.check hf hsize)
  rw [hheader] at hbss
  have hdecoded : bss.value = .ok (f.descr.decoded (header.info graph size)) := by
    rw [hbss]
    refine parseBssSection_of_holds ?_ ?_ ?_
    all_goals rw [h.linked_info]
    · exact hf.descr
    · exact holds_of_prefix_drop hfile h.bss.2
    · exact h.bss.1
  rw [hvalue, hdecoded]
  refine if_pos ?_
  change matchTargetDev ctrl (aipuArch header.device) (aipuVersion header.device)
    (aipuConfig header.device) = true ∨ _
  rw [h.device]
  exact htarget

end RoundTrip

/-- **Parsing undoes laying out.**  From a file in which the sections of a graph are laid out, the
parser returns the description of the graph, with the sources where the sections are. -/
theorem graph_file_round_trip {f : GraphFile} (hf : f.WellFormed) {header : BinHdr}
    {file : List UInt8} (hlaid : f.LaidOut header file) {ctrl : ParserConfig}
    (htarget : f.Targets ctrl) {mem : Memory} {graph : ℕ} {size : UInt32}
    (hfile : mem.Holds graph file) (hnull : graph ≠ 0) (hsize : file.length ≤ size.toNat) :
    (parseGraph ctrl mem graph size).value = .ok (f.descr.decoded (header.info graph size)) ∧
      f.FoundAt mem (f.descr.decoded (header.info graph size)) :=
  ⟨hlaid.parse hf hfile hnull hsize htarget, hlaid.found hfile⟩

/-! ## A layout -/

section Layout

variable {f : GraphFile}

/-- The header of a file without gaps. -/
def GraphFile.header (f : GraphFile) : BinHdr where
  ident := magic ++ List.replicate 8 0
  device := f.device
  version := f.version
  buildVersion := f.buildVersion
  hdrsize := binHdrSize
  filesize := .ofNat (104 + f.text.length + f.rodata.length + f.dcr.length + f.data.length +
    f.bss.length)
  flag := f.flag
  entry := f.entry
  textOffset := 104
  textSize := .ofNat f.text.length
  rodataOffset := .ofNat (104 + f.text.length)
  rodataSize := .ofNat f.rodata.length
  dcrOffset := .ofNat (104 + f.text.length + f.rodata.length)
  dcrSize := .ofNat f.dcr.length
  dataOffset := .ofNat (104 + f.text.length + f.rodata.length + f.dcr.length)
  dataSize := .ofNat f.data.length
  bssOffset := .ofNat (104 + f.text.length + f.rodata.length + f.dcr.length + f.data.length)
  bssSize := .ofNat f.bss.length

/-- A file without gaps. -/
def GraphFile.encode (f : GraphFile) : List UInt8 :=
  f.header.encode 0 (List.replicate 4 0) ++
    (f.text ++ (f.rodata ++ (f.dcr ++ (f.data ++ f.bss))))

/-- The number of bytes of a header. -/
theorem GraphFile.length_header (f : GraphFile) :
    (f.header.encode 0 (List.replicate 4 0)).length = 104 := by
  rw [BinHdr.encode, List.length_append, length_flatMap_wordBytes]
  rfl

/-- The number of bytes of a file. -/
theorem GraphFile.length_encode (f : GraphFile) : f.encode.length =
    104 + f.text.length + f.rodata.length + f.dcr.length + f.data.length + f.bss.length := by
  simp only [GraphFile.encode, List.length_append, f.length_header]
  omega

/-- What follows other bytes in a file is where its offset says. -/
theorem sectionAt_append {file front bytes back : List UInt8} (hlen : file.length < 2 ^ 32)
    (h : file = front ++ (bytes ++ back)) {n : ℕ} (hn : n = front.length) :
    SectionAt file (.ofNat n) (.ofNat bytes.length) bytes := by
  have htotal : file.length = front.length + (bytes.length + back.length) := by
    rw [h, List.length_append, List.length_append]
  constructor
  · rw [UInt32.toNat_ofNat', Nat.mod_eq_of_lt (by omega)]
  · rw [UInt32.toNat_ofNat', Nat.mod_eq_of_lt (by omega), hn, h, List.drop_left]
    exact List.prefix_append bytes back

/-- A file without gaps is laid out, if its offsets are words. -/
theorem GraphFile.encode_laidOut (hlen : f.encode.length < 2 ^ 32) :
    f.LaidOut f.header f.encode := by
  have htotal := f.length_encode
  have hheader := f.length_header
  have hword : ∀ n, n ≤ f.encode.length → (UInt32.ofNat n).toNat = n := by
    intro n hn
    rw [UInt32.toNat_ofNat', Nat.mod_eq_of_lt (by omega)]
  set front := f.header.encode 0 (List.replicate 4 0) with hfront
  have htext : f.encode = front ++ (f.text ++ (f.rodata ++ (f.dcr ++ (f.data ++ f.bss)))) := rfl
  have hrodata : f.encode = (front ++ f.text) ++ (f.rodata ++ (f.dcr ++ (f.data ++ f.bss))) := by
    rw [htext, List.append_assoc]
  have hdcr : f.encode = (front ++ f.text ++ f.rodata) ++ (f.dcr ++ (f.data ++ f.bss)) := by
    rw [hrodata, List.append_assoc (front ++ f.text)]
  have hdata : f.encode = (front ++ f.text ++ f.rodata ++ f.dcr) ++ (f.data ++ f.bss) := by
    rw [hdcr, List.append_assoc (front ++ f.text ++ f.rodata)]
  have hbss : f.encode = (front ++ f.text ++ f.rodata ++ f.dcr ++ f.data) ++ (f.bss ++ []) := by
    rw [hdata, List.append_nil, List.append_assoc (front ++ f.text ++ f.rodata ++ f.dcr)]
  have hbssAt := sectionAt_append hlen hbss (n := 104 + f.text.length + f.rodata.length +
    f.dcr.length + f.data.length) (by simp only [List.length_append, hheader])
  refine ⟨⟨0, List.replicate 4 0, rfl, List.prefix_append _ _⟩, ⟨rfl, rfl⟩, rfl, ?_, rfl, rfl, rfl,
    rfl, rfl, ?_, ?_, ?_, ?_, ⟨hbssAt.size.ge, hbssAt.found⟩, le_rfl, ?_, ?_, ?_, ?_⟩
  · exact (hword _ (by omega)).trans htotal.symm
  · exact sectionAt_append hlen htext hheader.symm
  · exact sectionAt_append hlen hrodata (by simp only [List.length_append, hheader])
  · exact sectionAt_append hlen hdcr (by simp only [List.length_append, hheader])
  · exact sectionAt_append hlen hdata (by simp only [List.length_append, hheader])
  · change 104 + (UInt32.ofNat _).toNat ≤ (UInt32.ofNat _).toNat
    rw [hword _ (by omega), hword _ (by omega)]
  · change (UInt32.ofNat _).toNat + (UInt32.ofNat _).toNat ≤ (UInt32.ofNat _).toNat
    rw [hword _ (by omega), hword _ (by omega), hword _ (by omega)]
    omega
  · change (UInt32.ofNat _).toNat + (UInt32.ofNat _).toNat ≤ (UInt32.ofNat _).toNat
    rw [hword _ (by omega), hword _ (by omega), hword _ (by omega)]
  · change (UInt32.ofNat _).toNat + (UInt32.ofNat _).toNat ≤ _
    rw [hword _ (by omega), hword _ (by omega)]
    exact htotal.ge

end Layout

/-- A graph with a linked list, in a file without gaps. -/
def linkedFile : GraphFile where
  device := 0x204B4
  version := 0x04000000
  buildVersion := 0
  flag := 0x10
  entry := 0
  text := wordBytes 1
  rodata := List.replicate 48 2
  dcr := wordBytes 3
  data := List.replicate 64 4
  descr := sampleGraph

/-- The graph with a linked list is found in its file. -/
theorem graph_file_round_trip_sample :
    (parseGraph { aipuArch := 0, aipuVersion := 2, aipuHwConfig := 1204,
                  bypassVersionCheck := true }
      (Memory.ofBytes 4096 linkedFile.encode) 4096 444).value =
        .ok (sampleGraph.decoded (linkedFile.header.info 4096 444)) ∧
      linkedFile.FoundAt (Memory.ofBytes 4096 linkedFile.encode)
        (sampleGraph.decoded (linkedFile.header.info 4096 444)) := by
  have hlinked : linkedFile.linked = true := by decide
  have hbss : linkedFile.bss.length = 220 := by
    rw [GraphFile.bss, hlinked, GraphDescr.encode, length_flatMap_wordBytes]
    rfl
  have hlen : linkedFile.encode.length = 444 := by
    rw [GraphFile.length_encode, hbss]
    rfl
  have hf : linkedFile.WellFormed := by
    refine ⟨.inr (by decide), by decide, by decide, by decide, ?_⟩
    rw [hlinked]
    exact ⟨by decide, by decide, List.cons_ne_nil _ _, by decide, by decide, by decide, by decide,
      by decide, by decide⟩
  exact graph_file_round_trip hf (GraphFile.encode_laidOut (by omega)) (.inr rfl)
    (Memory.ofBytes_holds _ _) (by decide) hlen.le

/-! ## In memory -/

/-- **A file that is loaded is in the memory of the device**, in every run and for as long as the
graph is loaded: its code, but for the words of the linked list, and its weights, each section in
the buffer that the jobs refer to. -/
theorem graph_file_in_memory {binary : Memory} {shmOffset : ℕ} {tr : List BufferEvent}
    {s : ImageContext} (hrun : (imageSystem binary shmOffset).Run ImageContext.Proper tr s) {id : ℕ}
    {g : GraphObject} (hg : s.getGraphObject id = some g) {f : GraphFile} (hf : f.WellFormed)
    {header : BinHdr} {file : List UInt8} (hlaid : f.LaidOut header file) {ctrl : ParserConfig}
    (htarget : f.Targets ctrl) {graph : ℕ} {size : UInt32} (hfile : binary.Holds graph file)
    (hnull : graph ≠ 0) (hsize : file.length ≤ size.toNat)
    (hparsed : (parseGraph ctrl binary graph size).value = .ok g.info) :
    (∀ q (hq : q < f.text.length), ¬g.info.LinksText q →
        s.mem (g.pbuf.text.va + q) = f.text[q]) ∧
      ∀ (i : ℕ) sec, f.descr.staticSections[i]? = some sec →
        ∃ buf, g.pbuf.staticBuf[i]? = some buf ∧
          s.mem.Holds buf.va ((f.data.drop sec.offsetInFile.toNat).take sec.size.toNat) := by
  have hintact := (imageSystem_inv hrun).intact id g hg
  have hinfo : f.descr.decoded (header.info graph size) = g.info :=
    Except.ok.inj ((hlaid.parse hf hfile hnull hsize htarget).symm.trans hparsed)
  have hfound : f.FoundAt binary (f.descr.decoded (header.info graph size)) := hlaid.found hfile
  rw [hinfo] at hfound
  constructor
  · intro q hq hlinks
    rw [hintact.text q (hfound.text.1 ▸ hq) hlinks]
    exact hfound.text.2 q hq
  · intro i sec hsec
    obtain ⟨desc, hdesc, hdescSize, hholds⟩ := hfound.weights i sec hsec
    obtain ⟨buf, hbuf, hbytes⟩ := hintact.static i desc hdesc
    refine ⟨buf, hbuf, fun q hq => ?_⟩
    have hlt : q < desc.size.toNat := by
      rw [hdescSize]
      exact hq.trans_le (List.length_take_le _ _)
    rw [hbytes q hlt]
    exact hholds q hq

/-- The graph in the sample file. -/
def sampleGraphFile : GraphFile where
  device := 0x204B4
  version := 0x03000000
  buildVersion := 0
  flag := 1
  entry := 0
  text := wordBytes 1
  rodata := wordBytes 2
  dcr := []
  data := wordBytes 3 ++ wordBytes 4
  descr := {
    stackSize := 256
    stackAlignBytes := 4096
    staticSections := [{ offsetInFile := 0, size := 8, alignBytes := 4096, subSections := [] }]
    reuseSections := [{
      size := 4096, alignBytes := 4096
      subSections := [{
        offsetInSection := 16, size := 64, type := sectionTypeInput, id := 0, dtype := 2
        layout := 1, shape := ⟨1, 1, 8, 8⟩, addrMask := 0xFFFFFFFF, roOffsets := [0] }] }]
    nodes := [] }

/-- The weights of the sample are in its static group, after its input was written. -/
theorem graph_file_in_memory_sample : ∃ s : ImageContext,
    s.getGraphObject 1 = some (allocatedObject 0 16 64) ∧ s.mem 0x7040010 = 7 ∧
      s.mem.Holds 0x7010000 (wordBytes 3 ++ wordBytes 4) := by
  obtain ⟨tr, mem, hinput, hrun⟩ := sampleBinary_run
  have hlaid : sampleGraphFile.LaidOut (BinHdr.load sampleBinary 4096) (sampleFile 16 64) := by
    refine ⟨⟨0, List.replicate 4 0, rfl, by decide +kernel⟩, by decide +kernel, by decide +kernel,
      by decide +kernel, by decide +kernel, by decide +kernel, by decide +kernel, by decide +kernel,
      by decide +kernel, ⟨by decide +kernel, by decide +kernel⟩,
      ⟨by decide +kernel, by decide +kernel⟩, ⟨by decide +kernel, by decide +kernel⟩,
      ⟨by decide +kernel, by decide +kernel⟩, by decide +kernel, by decide +kernel,
      by decide +kernel, by decide +kernel, by decide +kernel, by decide +kernel⟩
  have hlinked : sampleGraphFile.linked = false := by decide
  have hf : sampleGraphFile.WellFormed := by
    refine ⟨.inl (by decide), by decide, by decide, by decide, ?_⟩
    rw [hlinked]
    exact ⟨by decide, by decide, List.cons_ne_nil _ _, by decide, by decide, by decide, by decide,
      by decide, by decide⟩
  obtain ⟨-, hweights⟩ := @graph_file_in_memory sampleBinary 0 tr _ hrun 1
    (allocatedObject 0 16 64) rfl sampleGraphFile hf _ _ hlaid sampleZhouyiV2
    (.inl (by decide)) 4096 220 (Memory.ofBytes_holds _ _) (by decide) (by decide +kernel)
    (by decide +kernel)
  obtain ⟨buf, hbuf, hholds⟩ := hweights 0 _ rfl
  obtain rfl := Option.some.inj hbuf
  exact ⟨_, rfl, hinput, hholds⟩

end Aipu
