import AipuDriver.Umd.FailedBuild

/-!
# Where `build_new_job` writes

`build_new_job` copies the rodata and the descriptor of the graph, writes words at the offsets of
the parameter map, and writes words at the offsets of the nodes of the linked list.  Of an offset in
the parameter map only the first byte is checked, against the size that the kernel has granted; the
offsets and the types of the nodes are not checked at all; and the size that is asked for is a sum
of words.
-/

namespace Aipu

open ByteReader KeyedList Transition UnusedId Word

/-! ## The property -/

/-- The address and the number of the bytes that are written. -/
def HostWrite.span : HostWrite → ℕ × ℕ
  | .load dest _ bytes => (dest, bytes)
  | .patch dest _ _ => (dest, 4)
  | .store dest _ => (dest, 4)

/-- Each byte that is written lies in the buffer. -/
def HostWrite.Inside (w : HostWrite) (buf : BufferDesc) : Prop :=
  ∀ p, w.span.1 ≤ p → p < w.span.1 + w.span.2 → buf.va ≤ p ∧ p < buf.va + buf.size

/-- The nodes of the linked list that are written by a call that returns `ret`. -/
def GraphObject.writtenNodes (g : GraphObject) (ret : AipuStatus) : List ListNodeDesc :=
  if ret = .success ∧ g.info.linkedListFlag ≠ 0 then g.info.dcrMap else []

/-- The buffer for a node: the text for a node of type TEXT, and otherwise the rodata with the
descriptor. -/
def GraphObject.nodeBuf (g : GraphObject) (tbuf : ThreadBufferInfo) (node : ListNodeDesc) :
    BufferDesc :=
  if node.type = 2 then g.pbuf.text else tbuf.rodata

/-- The writes for the nodes, which are the last ones, lie in the buffers of the nodes, and the
other ones in the rodata. -/
def GraphObject.WritesInside (g : GraphObject) (tbuf : ThreadBufferInfo) (ret : AipuStatus)
    (writes : List HostWrite) :
    Prop :=
  ∃ front links, writes = front ++ links ∧ (∀ w ∈ front, w.Inside tbuf.rodata) ∧
    List.Forall₂ (fun node w => w.Inside (g.nodeBuf tbuf node)) (g.writtenNodes ret) links

/-- Each byte that `build_new_job` writes lies in its buffer. -/
def GraphObject.BuildsInside (g : GraphObject) (handle addr : ℕ) : Prop :=
  ∀ tbuf ret g' new writes, g.getTbufPtr handle = some tbuf →
    g.buildNewJob handle addr = some (ret, g', new, writes) → g.WritesInside tbuf ret writes

/-! ## The condition -/

instance (g : GraphObject) (tbuf : ThreadBufferInfo) : DecidablePred (g.InRange tbuf) :=
  fun _ => inferInstanceAs (Decidable (_ ∧ _))

/-- The word of a node fits in the rodata, the descriptor or the text, as its type says.  There is
no buffer for other types, and none for the descriptor when it has no bytes: then the offset is an
address by itself. -/
def GraphObject.NodeFits (g : GraphObject) (tbuf : ThreadBufferInfo) (node : ListNodeDesc) : Prop :=
  let offset := node.nextAddrEntryOffset.toNat
  let templ := g.info.tbufTempl
  if node.type = 0 then offset + 4 ≤ tbuf.rodata.size
  else if node.type = 1 ∧ templ.dcrSize ≠ 0 then
    templ.rodataSize.toNat + offset + 4 ≤ tbuf.rodata.size
  else if node.type = 2 then offset + 4 ≤ g.pbuf.text.size
  else tbuf.rodata.va ≤ offset ∧ offset + 4 ≤ tbuf.rodata.va + tbuf.rodata.size

/-- The rodata and the descriptor fit in the buffer that was granted, and so do the words of the
entries of the parameter map, up to the first one that is out of range, and, if there is none, the
words of the nodes. -/
structure GraphObject.OffsetsFit (g : GraphObject) (tbuf : ThreadBufferInfo) : Prop where
  rodata : g.info.tbufTempl.rodataSize.toNat ≤ tbuf.rodata.size
  descriptor : g.info.linkedListFlag ≠ 0 → g.info.tbufTempl.dcrSize ≠ 0 →
    g.info.tbufTempl.rodataSize.toNat + g.info.tbufTempl.dcrSize.toNat ≤ tbuf.rodata.size
  entries : ∀ param ∈ g.info.paramMap.takeWhile fun param => decide (g.InRange tbuf param),
    param.offsetInMap.toNat + 4 ≤ tbuf.rodata.size
  nodes : (∀ param ∈ g.info.paramMap, g.InRange tbuf param) → g.info.linkedListFlag ≠ 0 →
    ∀ node ∈ g.info.dcrMap, g.NodeFits tbuf node

/-- If all entries are in range, there is an id for the job, so that the call returns. -/
def GraphObject.BuildReturns (g : GraphObject) (tbuf : ThreadBufferInfo) : Prop :=
  (∀ param ∈ g.info.paramMap, g.InRange tbuf param) → g.createJobIdInner.isSome = true

/-! ## The buffers of the rodata -/

/-- The rodata is mapped, and the descriptor is behind it. -/
structure ThreadBufferInfo.RodataPlaced (tbuf : ThreadBufferInfo)
    (templ : TbufAllocTempl) : Prop where
  within : tbuf.rodata.Within
  descriptor : tbuf.descriptor.va = if templ.dcrSize = 0 then 0
    else tbuf.rodata.va + templ.rodataSize.toNat

/-- What `alloc_rodata_buffer` makes of a buffer that was granted. -/
theorem allocRodataBuffer_ok {kernel : KernelMalloc} (hsound : kernel.Sound) {regionId : ℕ}
    {templ : TbufAllocTempl} {old rodata descriptor : BufferDesc} {es : List BufferEvent}
    (h : allocRodataBuffer kernel regionId templ old = (.ok (rodata, descriptor), es)) :
    (0 < rodata.size ∧ rodata.Within ∧ es = [.allocated rodata]) ∧
      descriptor.va = if templ.dcrSize = 0 then 0 else rodata.va + templ.rodataSize.toNat := by
  unfold allocRodataBuffer at h
  split at h
  · cases h
  next buf es' hbuf =>
    obtain ⟨heq, rfl⟩ := Prod.mk.inj h
    obtain ⟨rfl, rfl⟩ := Prod.mk.inj (Except.ok.inj heq)
    obtain ⟨hpos, hlarge, hwithin⟩ := mallocBuf_ok hsound hbuf
    have hword := templ.rodataSize.toNat_lt
    have hmapped := hwithin.mapped
    refine ⟨⟨hpos.trans_le hlarge, hwithin, (hsound.tells.mallocBuf_granted hbuf).2.1⟩, ?_⟩
    by_cases hdcr : templ.dcrSize = 0
    · simp [hdcr]
    · rw [if_pos hdcr, if_neg hdcr, wrap_of_lt (by omega)]

section Placed

variable {g : GraphObject} {tbuf : ThreadBufferInfo} {handle : ℕ}

/-- The rodata of a thread buffer is placed. -/
theorem GraphObject.AllocatedBy.rodataPlaced (h : g.AllocatedBy fun kernel => kernel.rodata.Sound)
    (htbuf : g.getTbufPtr handle = some tbuf) : tbuf.RodataPlaced g.info.tbufTempl := by
  obtain ⟨kernel, es₁, es₂, es₃, hsound, halloc⟩ := h handle tbuf htbuf
  obtain ⟨⟨-, hwithin, -⟩, hdescriptor⟩ := allocRodataBuffer_ok hsound halloc.rodata
  exact ⟨hwithin, hdescriptor⟩

end Placed

/-! ## The writes -/

section Writes

variable {g : GraphObject} {tbuf : ThreadBufferInfo} {buf : BufferDesc}

/-- Some bytes lie in a buffer iff the first and the last one do. -/
theorem HostWrite.inside_iff {w : HostWrite} (hbytes : w.span.2 ≠ 0) :
    w.Inside buf ↔ buf.va ≤ w.span.1 ∧ w.span.1 + w.span.2 ≤ buf.va + buf.size := by
  constructor
  · intro h
    have hfirst := h w.span.1 le_rfl (by omega)
    have hlast := h (w.span.1 + w.span.2 - 1) (by omega) (by omega)
    omega
  · intro h p hp hlt
    omega

/-- A copy to the start of a buffer. -/
theorem inside_load {dest src bytes : ℕ} (hdest : dest = buf.va) :
    (HostWrite.load dest src bytes).Inside buf ↔ bytes ≤ buf.size := by
  by_cases hbytes : bytes = 0
  · subst hbytes
    exact iff_of_true (fun p hp hlt => by simp only [HostWrite.span] at hp hlt; omega)
      (Nat.zero_le _)
  · have hiff := @HostWrite.inside_iff buf (.load dest src bytes) hbytes
    simp only [HostWrite.span] at hiff
    rw [hiff]
    omega

/-- A word that is replaced in a buffer. -/
theorem inside_patch {offset subSecPa mask : ℕ} (hmapped : buf.va + offset < 2 ^ 64) :
    (HostWrite.patch (wrap 64 (buf.va + offset)) subSecPa mask).Inside buf ↔
      offset + 4 ≤ buf.size := by
  rw [wrap_of_lt hmapped, HostWrite.inside_iff (by simp [HostWrite.span])]
  simp only [HostWrite.span]
  omega

/-- A word that is written in a buffer. -/
theorem inside_store {base value : ℕ} (hmapped : base < 2 ^ 64) :
    (HostWrite.store (wrap 64 base) value).Inside buf ↔
      buf.va ≤ base ∧ base + 4 ≤ buf.va + buf.size := by
  rw [wrap_of_lt hmapped, HostWrite.inside_iff (by simp [HostWrite.span])]
  exact Iff.rfl

/-- The address that `get_base_va` returns. -/
theorem GraphObject.baseBuf_va (g : GraphObject) (tbuf : ThreadBufferInfo) (secType : UInt32) :
    (g.baseBuf tbuf secType).va = if secType = 0 then tbuf.rodata.va
      else if secType = 1 then tbuf.descriptor.va
      else if secType = 2 then g.pbuf.text.va else 0 := by
  unfold GraphObject.baseBuf
  split_ifs <;> rfl

/-- The write for a node lies in its buffer iff the node fits. -/
theorem GraphObject.linkNode_inside (htext : g.pbuf.text.Within)
    (hplaced : tbuf.RodataPlaced g.info.tbufTempl)
    (node : ListNodeDesc) :
    (g.linkNode tbuf node).Inside (g.nodeBuf tbuf node) ↔ g.NodeFits tbuf node := by
  have htextMapped := htext.mapped
  have hmapped := hplaced.within.mapped
  have hoffset := node.nextAddrEntryOffset.toNat_lt
  have hrodata := g.info.tbufTempl.rodataSize.toNat_lt
  have hdescriptor := hplaced.descriptor
  have hbase : (g.baseBuf tbuf node.type).va + node.nextAddrEntryOffset.toNat < 2 ^ 64 := by
    rw [GraphObject.baseBuf_va]
    split_ifs at hdescriptor ⊢ <;> omega
  rw [GraphObject.linkNode, inside_store hbase, GraphObject.baseBuf_va]
  unfold GraphObject.nodeBuf GraphObject.NodeFits
  by_cases hrodataNode : node.type = 0
  · simp only [hrodataNode, if_true, show ¬(0 : UInt32) = 2 by decide, if_false]
    omega
  by_cases hdescriptorNode : node.type = 1
  · simp only [hdescriptorNode, show ¬(1 : UInt32) = 2 by decide, show ¬(1 : UInt32) = 0 by decide,
      if_false, if_true, true_and, hdescriptor]
    by_cases hdcr : g.info.tbufTempl.dcrSize = 0
    · simp [hdcr]
    · simp only [hdcr, if_false, ne_eq, not_false_eq_true, if_true]
      omega
  by_cases htextNode : node.type = 2
  · simp only [htextNode, show ¬(2 : UInt32) = 0 by decide, show ¬(2 : UInt32) = 1 by decide,
      if_false, if_true, false_and]
    omega
  · simp [hrodataNode, hdescriptorNode, htextNode]

/-- The copies to the rodata and the descriptor lie in the rodata iff they fit. -/
theorem GraphObject.loads_inside (hplaced : tbuf.RodataPlaced g.info.tbufTempl) :
    (∀ w ∈ (g.loadRodata tbuf).1, w.Inside tbuf.rodata) ↔
      g.info.tbufTempl.rodataSize.toNat ≤ tbuf.rodata.size ∧
        (g.info.linkedListFlag ≠ 0 → g.info.tbufTempl.dcrSize ≠ 0 →
          g.info.tbufTempl.rodataSize.toNat + g.info.tbufTempl.dcrSize.toNat ≤
            tbuf.rodata.size) := by
  unfold GraphObject.loadRodata
  dsimp only
  by_cases hlinked : g.info.linkedListFlag ≠ 0
  · rw [if_pos hlinked, List.forall_mem_cons, List.forall_mem_singleton, inside_load rfl]
    refine and_congr_right fun _ => ?_
    by_cases hdcr : g.info.tbufTempl.dcrSize = 0
    · refine iff_of_true (fun p hp hlt => ?_) fun _ h => absurd hdcr h
      simp only [HostWrite.span, hdcr, UInt32.toNat_zero] at hp hlt
      omega
    · have hbytes : g.info.tbufTempl.dcrSize.toNat ≠ 0 := fun h => hdcr (UInt32.toNat_inj.mp h)
      have hiff := @HostWrite.inside_iff tbuf.rodata
        (.load tbuf.descriptor.va g.info.tbufTempl.dcrSrc g.info.tbufTempl.dcrSize.toNat) hbytes
      have hdescriptor := hplaced.descriptor
      rw [if_neg hdcr] at hdescriptor
      simp only [HostWrite.span, hdescriptor] at hiff
      rw [hdescriptor, hiff]
      simp only [hlinked, hdcr, ne_eq, not_false_eq_true, forall_const]
      omega
  · rw [if_neg hlinked, List.forall_mem_singleton, inside_load rfl]
    exact (and_iff_left fun h => absurd h hlinked).symm

/-- The words of the parameter map lie in the rodata iff the offsets up to the first one that is out
of range fit. -/
theorem GraphObject.patches_inside (hmapped : tbuf.rodata.va + 2 ^ 32 ≤ 2 ^ 64)
    (params : List ParamMapLoadDesc) : (∀ w ∈ (g.patchRodata tbuf params).1, w.Inside tbuf.rodata) ↔
      ∀ param ∈ params.takeWhile fun param => decide (g.InRange tbuf param),
        param.offsetInMap.toNat + 4 ≤ tbuf.rodata.size := by
  induction params with
  | nil => simp [GraphObject.patchRodata]
  | cons param rest ih =>
    have hword := param.offsetInMap.toNat_lt
    rw [GraphObject.patchRodata, List.takeWhile_cons]
    by_cases hrange : g.InRange tbuf param
    · obtain ⟨hoffset, hsec⟩ := hrange
      rw [if_neg (Nat.not_le.mpr hoffset), if_pos (by simpa using ⟨hoffset, hsec⟩),
        List.forall_mem_cons, ← ih]
      cases hsub : g.subSecPa tbuf param with
      | none => exact absurd (GraphObject.subSecPa_eq_none.mp hsub) (Nat.not_le.mpr hsec)
      | some subSecPa =>
        dsimp only
        rw [List.forall_mem_cons, inside_patch (by omega)]
    · have htake : (if decide (g.InRange tbuf param) = true then
          param :: rest.takeWhile fun param => decide (g.InRange tbuf param) else []) = [] :=
        if_neg (by simpa using hrange)
      rw [htake]
      refine iff_of_true ?_ (by simp)
      split_ifs with hoffset
      · simp
      · have hnone : g.subSecPa tbuf param = none :=
          GraphObject.subSecPa_eq_none.mpr
            (Nat.not_lt.mp fun hsec => hrange ⟨Nat.not_le.mp hoffset, hsec⟩)
        simp [hnone]

/-- Taking a buffer changes no address. -/
theorem GraphObject.taken_patchRodata (g : GraphObject) (handle : ℕ)
    (params : List ParamMapLoadDesc) :
    (g.taken handle).patchRodata tbuf params = g.patchRodata tbuf params := by
  have hsame : ∀ param, (g.taken handle).subSecPa tbuf param = g.subSecPa tbuf param := by
    intro param
    unfold GraphObject.subSecPa GraphObject.paramSections
    cases param.loadType <;> rfl
  induction params with
  | nil => rfl
  | cons param rest ih => rw [GraphObject.patchRodata, GraphObject.patchRodata, hsame, ih]

end Writes

/-! ## The call -/

section Call

variable {g g₀ : GraphObject} {tbuf : ThreadBufferInfo} {handle addr : ℕ}

/-- The job that is stored for a thread buffer. -/
def GraphObject.builtJob (g : GraphObject) (tbuf : ThreadBufferInfo) (handle addr jobId : ℕ) :
    JobDesc where
  addr := addr
  id := jobId
  state := .built
  bufHandle := handle
  config := g.config tbuf

/-- A call on a free buffer. -/
theorem GraphObject.buildNewJob_eq (htbuf : g.getTbufPtr handle = some tbuf)
    (hfree : tbuf.isFree = true) :
    g.buildNewJob handle addr =
      if (g.patchRodata tbuf g.info.paramMap).2 = true then
        g.createJobIdInner.map fun jobId =>
          (.success, { g.taken handle with
            jobs := insert g.jobs jobId (g.builtJob tbuf handle addr jobId) },
            some jobId, (g.loadRodata tbuf).1 ++ (g.patchRodata tbuf g.info.paramMap).1 ++
              (g.loadRodata tbuf).2)
      else some (.errorInvalidSize, g.taken handle, none,
        (g.loadRodata tbuf).1 ++ (g.patchRodata tbuf g.info.paramMap).1) := by
  have hpatches : (g.taken handle).patchRodata tbuf g.info.paramMap =
      g.patchRodata tbuf g.info.paramMap :=
    g.taken_patchRodata handle _
  have hid : (g.taken handle).createJobIdInner = g.createJobIdInner := rfl
  unfold GraphObject.buildNewJob
  rw [htbuf]
  dsimp only
  rw [if_pos hfree]
  unfold GraphObject.taken at hpatches hid
  rw [hpatches, hid]
  rcases g.patchRodata tbuf g.info.paramMap with ⟨patches, inRange⟩
  cases inRange with
  | false => rfl
  | true =>
    rw [if_pos rfl]
    cases g.createJobIdInner with
    | none => rfl
    | some jobId => rfl

/-- What a call on a free buffer writes. -/
theorem GraphObject.buildNewJob_writes {ret : AipuStatus} {g' : GraphObject} {new : Option ℕ}
    {writes : List HostWrite} (htbuf : g.getTbufPtr handle = some tbuf) (hfree : tbuf.isFree = true)
    (h : g.buildNewJob handle addr = some (ret, g', new, writes)) :
    writes = ((g.loadRodata tbuf).1 ++ (g.patchRodata tbuf g.info.paramMap).1) ++
      (g.writtenNodes ret).map (g.linkNode tbuf) := by
  have hlinks : (g.loadRodata tbuf).2 = (g.writtenNodes .success).map (g.linkNode tbuf) := by
    unfold GraphObject.loadRodata GraphObject.writtenNodes
    by_cases hlinked : g.info.linkedListFlag ≠ 0
    · simp [hlinked]
    · simp [hlinked]
  rw [GraphObject.buildNewJob_eq htbuf hfree] at h
  split_ifs at h with hends
  · obtain ⟨jobId, -, heq⟩ := Option.map_eq_some_iff.mp h
    obtain ⟨rfl, -, -, rfl⟩ : .success = ret ∧ _ ∧ _ ∧ _ = writes := by simpa using heq
    rw [← hlinks, List.append_assoc]
  · obtain ⟨rfl, -, -, rfl⟩ : .errorInvalidSize = ret ∧ _ ∧ _ ∧ _ = writes := by simpa using h
    rw [GraphObject.writtenNodes, if_neg (by simp), List.map_nil, List.append_nil]

/-- A call on a free buffer returns iff there is an id for the job that it would store. -/
theorem GraphObject.buildReturns_iff (htbuf : g.getTbufPtr handle = some tbuf)
    (hfree : tbuf.isFree = true) :
    g.BuildReturns tbuf ↔
      ∃ ret g' new writes, g.buildNewJob handle addr = some (ret, g', new, writes) := by
  have hends := @GraphObject.patchRodata_ends g tbuf g.info.paramMap
  rw [GraphObject.buildNewJob_eq htbuf hfree, GraphObject.BuildReturns, ← hends]
  split_ifs with hrange
  · cases g.createJobIdInner <;> simp [hrange]
  · simp [hrange]

/-- A call on a free buffer writes into its buffers iff the offsets fit. -/
theorem GraphObject.GrantedBy.writesInside_iff
    (h : g.GrantedBy fun kernel => kernel.rodata.Sound) {ret : AipuStatus}
    {g' : GraphObject}
    {new : Option ℕ} {writes : List HostWrite} (htbuf : g.getTbufPtr handle = some tbuf)
    (hfree : tbuf.isFree = true) (hcall : g.buildNewJob handle addr = some (ret, g', new, writes)) :
    g.WritesInside tbuf ret writes ↔ g.OffsetsFit tbuf := by
  have hplaced := h.tbufs.rodataPlaced htbuf
  have hmapped := hplaced.within.mapped
  have hloads := GraphObject.loads_inside hplaced
  have hpatches := @GraphObject.patches_inside g tbuf (by omega) g.info.paramMap
  have hnode := GraphObject.linkNode_inside h.text hplaced
  obtain ⟨hsuccess, -⟩ := GraphObject.buildNewJob_free htbuf hfree hcall
  have hnodes : (∀ node ∈ g.writtenNodes ret, g.NodeFits tbuf node) ↔
      ((∀ param ∈ g.info.paramMap, g.InRange tbuf param) → g.info.linkedListFlag ≠ 0 →
        ∀ node ∈ g.info.dcrMap, g.NodeFits tbuf node) := by
    rw [← hsuccess]
    unfold GraphObject.writtenNodes
    by_cases hwritten : ret = .success ∧ g.info.linkedListFlag ≠ 0
    · rw [if_pos hwritten]
      exact ⟨fun hall _ _ => hall, fun hall => hall hwritten.1 hwritten.2⟩
    · rw [if_neg hwritten]
      exact iff_of_true (by simp) fun hret hlinked => absurd ⟨hret, hlinked⟩ hwritten
  rw [GraphObject.buildNewJob_writes htbuf hfree hcall]
  constructor
  · rintro ⟨front, links, hsplit, hfront, hlinks⟩
    have hlength : ((g.writtenNodes ret).map (g.linkNode tbuf)).length = links.length := by
      rw [List.length_map]
      exact hlinks.length_eq
    obtain ⟨rfl, rfl⟩ := List.append_inj' hsplit hlength
    rw [List.forall_mem_append, hloads, hpatches] at hfront
    rw [List.forall₂_map_right_iff, List.forall₂_same] at hlinks
    exact ⟨hfront.1.1, hfront.1.2, hfront.2,
      hnodes.mp fun node hmem => (hnode node).mp (hlinks node hmem)⟩
  · intro hfit
    refine ⟨_, _, rfl, ?_, ?_⟩
    · rw [List.forall_mem_append, hloads, hpatches]
      exact ⟨⟨hfit.rodata, hfit.descriptor⟩, hfit.entries⟩
    · rw [List.forall₂_map_right_iff, List.forall₂_same]
      exact fun node hmem => (hnode node).mpr (hnodes.mpr hfit.nodes node hmem)

/-- For all calls after `load`: `build_new_job` writes only into its buffers iff, whenever the
thread buffer is free, the offsets fit. -/
theorem build_inside_iff {id shmOffset : ℕ} {info : GraphInfo} {kernel : LoadMalloc}
    {es tr : List BufferEvent}
    (hload : GraphObject.load id shmOffset info kernel = some (.success, g₀, es))
    (htext : kernel.text.Sound) (hsteps : graphObjectSystem.Steps SoundRodata g₀ tr g)
    (handle addr : ℕ) :
    g.BuildsInside handle addr ↔ ∀ tbuf, g.getTbufPtr handle = some tbuf → tbuf.isFree = true →
      g.BuildReturns tbuf → g.OffsetsFit tbuf := by
  have hgranted := (GraphObject.load_grantedBy _ htext hload).steps hsteps
  constructor
  · intro h tbuf htbuf hfree hreturns
    obtain ⟨ret, g', new, writes, hcall⟩ := (g.buildReturns_iff htbuf hfree).mp hreturns
    exact (hgranted.writesInside_iff htbuf hfree hcall).mp (h tbuf ret g' new writes htbuf hcall)
  · intro h tbuf ret g' new writes htbuf hcall
    by_cases hfree : tbuf.isFree = true
    · have hreturns := (GraphObject.buildReturns_iff htbuf hfree).mpr ⟨ret, g', new, writes, hcall⟩
      exact (hgranted.writesInside_iff htbuf hfree hcall).mpr (h tbuf htbuf hfree hreturns)
    · have hbusy : ∀ tbuf', g.getTbufPtr handle = some tbuf' → tbuf'.isFree = false := by
        intro tbuf' htbuf'
        obtain rfl := Option.some.inj (htbuf.symm.trans htbuf')
        simpa using hfree
      obtain ⟨ret', hret, hcall'⟩ := GraphObject.buildNewJob_busy addr hbusy
      obtain ⟨rfl, heq⟩ := Prod.mk.inj (Option.some.inj (hcall'.symm.trans hcall))
      obtain ⟨-, heq⟩ := Prod.mk.inj heq
      obtain ⟨-, rfl⟩ := Prod.mk.inj heq
      refine ⟨[], [], rfl, by simp, ?_⟩
      rw [GraphObject.writtenNodes, if_neg fun hwritten => hret hwritten.1]
      exact .nil

end Call

/-- The sample writes into its buffers. -/
theorem build_inside_sample :
    ∃ (g : GraphObject) (tbuf : ThreadBufferInfo), g.info.paramMap = [sampleParam 16] ∧
    g.getTbufPtr 0x10000 = some tbuf ∧ tbuf.isFree = true ∧ g.BuildsInside 0x10000 0 := by
  obtain ⟨es, hload⟩ := sampleObject_loaded 0 16 64
  obtain ⟨tr, g, hsteps, htbuf, hinfo⟩ := sample_steps 0 16 64
  refine ⟨g, sampleTbuf 16 64, by rw [hinfo]; rfl, htbuf, rfl, ?_⟩
  refine (build_inside_iff hload (grantAt_sound (by decide) (by decide))
    (AnswersBy.mono (fun _ hsound => hsound.2.1) hsteps) 0x10000 0).mpr fun tbuf htbuf' _ _ => ?_
  obtain rfl := Option.some.inj (htbuf.symm.trans htbuf')
  refine ⟨?_, fun hlinked => ?_, fun param hparam => ?_, fun _ hlinked => ?_⟩
  · rw [hinfo]
    decide
  · rw [hinfo] at hlinked
    exact absurd rfl hlinked
  · have hmem := List.takeWhile_subset _ hparam
    rw [hinfo] at hmem
    obtain rfl := List.mem_singleton.mp hmem
    decide
  · rw [hinfo] at hlinked
    exact absurd rfl hlinked

/-- A file as the sample, but the entry of the parameter map is for the last two bytes of the page
of the rodata and for the two bytes behind it. -/
def edgeFile : List UInt8 :=
  (sampleFile 16 64).take 212 ++ wordBytes 4094 ++ wordBytes 0

/-- The graph of this file, loaded. -/
def edgeObject : GraphObject :=
  { sampleObject 0 16 64 with
    info := { sampleInfo 16 64 with
      paramMap := (sampleInfo 16 64).paramMap.map fun param =>
        { param with offsetInMap := 4094 } } }

/-- Bytes behind a buffer do not lie in it. -/
theorem HostWrite.not_inside {w : HostWrite} {buf : BufferDesc} {offset : ℕ}
    (hspan : w.span = (buf.va + offset, 4)) (hend : buf.size < offset + 4) : ¬w.Inside buf := by
  intro h
  have hlast := (h (buf.va + offset + 3) (by rw [hspan]; omega) (by rw [hspan]; omega)).2
  omega

/-- The parser accepts the file, the graph is loaded, and a thread buffer is allocated;
`build_new_job` succeeds and writes a word that ends two bytes behind the rodata. -/
theorem build_writes_outside : ∃ tr g tbuf,
    (parseGraph sampleZhouyiV2 (Memory.ofBytes 4096 edgeFile) 4096 220).value = .ok g.info ∧
      graphObjectSystem.Run anyStep tr g ∧ g.getTbufPtr 0x10000 = some tbuf ∧
      tbuf.rodata.size = 4096 ∧
      (g.buildNewJob 0x10000 0).map (fun r => (r.1, r.2.2.2.map HostWrite.span)) =
        some (.success, [(tbuf.rodata.va, 4), (tbuf.rodata.va + 4094, 4)]) ∧
      ¬g.BuildsInside 0x10000 0 := by
  obtain ⟨⟨g, tr⟩, hexec, hinfo, htbuf, hcall⟩ : ∃ s, graphObjectSystem.exec anyStep edgeObject
      [.allocThreadBuffer sampleMalloc] = some s ∧ s.1.info = edgeObject.info ∧
      s.1.getTbufPtr 0x10000 = some (sampleTbuf 16 64) ∧
      (s.1.buildNewJob 0x10000 0).map (fun r => (r.1, r.2.2.2.map HostWrite.span)) =
        some (.success,
          [((sampleTbuf 16 64).rodata.va, 4), ((sampleTbuf 16 64).rodata.va + 4094, 4)]) :=
    ⟨_, rfl, rfl, by decide +kernel, by decide +kernel⟩
  have hloaded : edgeObject.Loaded :=
    ⟨1, 0, edgeObject.info, sampleLoad, _, rfl⟩
  dsimp only at hinfo htbuf hcall
  refine ⟨tr, g, sampleTbuf 16 64, ?_, System.run_of_exec hloaded hexec, htbuf, rfl, hcall,
    fun h => ?_⟩
  · rw [hinfo]
    decide +kernel
  · obtain ⟨⟨ret, g', new, writes⟩, hcall', heq⟩ := Option.map_eq_some_iff.mp hcall
    obtain ⟨rfl, hspans⟩ := Prod.mk.inj heq
    obtain ⟨front, links, rfl, hfront, hlinks⟩ := h _ _ _ _ _ htbuf hcall'
    -- the file has no linked list, so that both writes are for the rodata
    have hnodes : g.writtenNodes .success = [] := by
      rw [GraphObject.writtenNodes, hinfo]
      rfl
    rw [hnodes] at hlinks
    obtain rfl := List.forall₂_nil_left_iff.mp hlinks
    rw [List.append_nil] at hspans
    obtain ⟨w, hw, hspan⟩ : ∃ w ∈ front, w.span = ((sampleTbuf 16 64).rodata.va + 4094, 4) :=
      List.mem_map.mp (by rw [hspans]; simp)
    exact HostWrite.not_inside hspan (by decide) (hfront w hw)

end Aipu
