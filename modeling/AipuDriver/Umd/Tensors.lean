import AipuDriver.Umd.AsidAddresses

/-!
# Tensors in their sections

The place of a tensor in its section and its size come from one record of the file, the size of the
section from another, and the buffer of the group from a sum of sizes in 32 bits.  Neither the
parser nor `alloc_group_buffers` nor `create_iobuf_info` compares them.  What the application gets
is the exact place of the tensor, since no address wraps; whether it lies in the section and in the
group is decided by the records alone (`tensor_inside_iff`).
-/

namespace Aipu

open ByteReader Transition Word

/-! ## The property -/

/-- The kinds of tensors that the application gets with a thread buffer. -/
inductive TensorKind
  | input
  | output
  | interDump
  | prof
  | plog
deriving DecidableEq, Repr

/-- The tensors of a kind that the file describes. -/
def GraphInfo.tensors (info : GraphInfo) : TensorKind → List IoTensorDesc
  | .input => info.inputs
  | .output => info.outputs
  | .interDump => info.interDumps
  | .prof => info.pdata
  | .plog => info.plogData

/-- The tensors of a kind that the application gets. -/
def IobufInfo.tensors (iobuf : IobufInfo) : TensorKind → List TensorBuffer
  | .input => iobuf.inputs
  | .output => iobuf.outputs
  | .interDump => iobuf.interDumps
  | .prof => iobuf.pdata
  | .plog => iobuf.plogData

/-- The whole range of the tensor is in the buffer. -/
def TensorBuffer.LiesIn (t : TensorBuffer) (buf : BufferDesc) : Prop :=
  ∀ a, t.va ≤ a → a < t.va + t.size → buf.va ≤ a ∧ a < buf.va + buf.size

/-- The tensor lies in the buffer of the section, and in the buffer of the reuse group. -/
def ThreadBufferInfo.TensorInside (tbuf : ThreadBufferInfo) (secIter : ℕ)
    (t : TensorBuffer) : Prop :=
  ∃ buf, tbuf.reuseBuf[secIter]? = some buf ∧ t.LiesIn buf ∧ t.LiesIn tbuf.reuseGroup

/-- The tensor is empty, or it ends in its section and within the size of the group. -/
def IoTensorDesc.Fits (desc : IoTensorDesc) (sections : List SectionDesc) (groupSize : ℕ) : Prop :=
  desc.size = 0 ∨ ∃ sec offset, sections[desc.refSectionIter.toNat]? = some sec ∧
    groupOffset sections desc.refSectionIter.toNat = some offset ∧
    desc.offsetInSection.toNat + desc.size.toNat ≤ sec.size.toNat ∧
    offset + desc.offsetInSection.toNat + desc.size.toNat ≤ groupSize

/-! ## What the application gets -/

section Tensors

variable {reuseBuf : List BufferDesc} {descs : List IoTensorDesc} {tensors : List TensorBuffer}

/-- Each tensor is made of the record in its place. -/
theorem createIobufInfo_getElem (h : createIobufInfo reuseBuf descs = some tensors) {i : ℕ}
    {t : TensorBuffer} (ht : tensors[i]? = some t) :
    ∃ desc, descs[i]? = some desc ∧ tensorBuffer reuseBuf desc = some t := by
  unfold createIobufInfo at h
  induction descs generalizing i tensors with
  | nil =>
    obtain rfl : [] = tensors := Option.some.inj h
    cases ht
  | cons desc descs ih =>
    rw [List.mapM_cons] at h
    obtain ⟨first, hfirst, h⟩ := Option.bind_eq_some_iff.mp h
    obtain ⟨rest, hrest, h⟩ := Option.bind_eq_some_iff.mp h
    obtain rfl : first :: rest = tensors := Option.some.inj h
    cases i with
    | zero =>
      obtain rfl : first = t := Option.some.inj ht
      exact ⟨desc, rfl, hfirst⟩
    | succ i => exact ih hrest ht

/-- The tensors of each kind are made of the records of that kind. -/
theorem createIobufInfos_tensors {info : GraphInfo} {iobuf : IobufInfo}
    (h : createIobufInfos reuseBuf info = some iobuf) (kind : TensorKind) :
    createIobufInfo reuseBuf (info.tensors kind) = some (iobuf.tensors kind) := by
  obtain ⟨inputs, hinputs, h⟩ := Option.bind_eq_some_iff.mp h
  obtain ⟨outputs, houtputs, h⟩ := Option.bind_eq_some_iff.mp h
  obtain ⟨interDumps, hinterDumps, h⟩ := Option.bind_eq_some_iff.mp h
  obtain ⟨pdata, hpdata, h⟩ := Option.bind_eq_some_iff.mp h
  obtain ⟨plogData, hplogData, h⟩ := Option.bind_eq_some_iff.mp h
  obtain rfl := Option.some.inj h
  cases kind with
  | input => exact hinputs
  | output => exact houtputs
  | interDump => exact hinterDumps
  | prof => exact hpdata
  | plog => exact hplogData

/-- A range at a place in a buffer lies in it if it is empty or ends in it. -/
theorem TensorBuffer.liesIn_iff {t : TensorBuffer} {buf : BufferDesc} {place : ℕ}
    (hva : t.va = buf.va + place) : t.LiesIn buf ↔ t.size = 0 ∨ place + t.size ≤ buf.size := by
  constructor
  · intro h
    rcases Nat.eq_zero_or_pos t.size with hzero | hpos
    · exact .inl hzero
    · have := h (t.va + (t.size - 1)) (by omega) (by omega)
      exact .inr (by omega)
  · rintro hfits a hlower hupper
    omega

end Tensors

/-! ## Where the tensors are -/

section Inside

variable {g g₀ : GraphObject} {tbuf : ThreadBufferInfo}

/-- A tensor of placed groups: its section, and its address in exact numbers. -/
theorem Grouped.tensor_place {sections : List SectionDesc} {bufs : List BufferDesc}
    {group : BufferDesc} (h : Grouped sections bufs group) {desc : IoTensorDesc} {t : TensorBuffer}
    (ht : tensorBuffer bufs desc = some t) :
    ∃ sec offset, sections[desc.refSectionIter.toNat]? = some sec ∧
      groupOffset sections desc.refSectionIter.toNat = some offset ∧
      bufs[desc.refSectionIter.toNat]? = some (childBuf group sec offset) ∧
      (childBuf group sec offset).va = group.va + offset ∧
      t.va = group.va + offset + desc.offsetInSection.toNat ∧ t.size = desc.size.toNat := by
  obtain ⟨buf, hbuf, rfl⟩ := Option.map_eq_some_iff.mp ht
  rcases hsec : sections[desc.refSectionIter.toNat]? with _ | sec
  · rw [h.outside _ hsec] at hbuf
    cases hbuf
  · obtain ⟨offset, hword, hoffset, hchild⟩ := h.child _ sec hsec
    obtain rfl := Option.some.inj (hchild.symm.trans hbuf)
    have hsections : sections ≠ [] := by
      rintro rfl
      cases hsec
    have hmapped := (h.within hsections).mapped
    have hplace : desc.offsetInSection.toNat < 2 ^ 32 := desc.offsetInSection.toNat_lt
    have hva : (childBuf group sec offset).va = group.va + offset := wrap_of_lt (by omega)
    exact ⟨sec, offset, rfl, hoffset, hchild, hva, by rw [hva, wrap_of_lt (by omega)], rfl⟩

/-- For all calls after `load`, a tensor that the application gets lies in its section and in the
reuse group iff its record fits. -/
theorem tensor_inside_iff {id shmOffset handle i : ℕ} {info : GraphInfo}
    {kernel : LoadMalloc} {es tr : List BufferEvent} {kind : TensorKind} {t : TensorBuffer}
    (hload : GraphObject.load id shmOffset info kernel = some (.success, g₀, es))
    (hsteps : graphObjectSystem.Steps SoundReuse g₀ tr g)
    (htbuf : g.getTbufPtr handle = some tbuf) (htensor : (tbuf.iobuf.tensors kind)[i]? = some t) :
    ∃ desc, (info.tensors kind)[i]? = some desc ∧
      (tbuf.TensorInside desc.refSectionIter.toNat t ↔
        desc.Fits info.tbufTempl.reuseSections tbuf.reuseGroup.size) := by
  have hloaded : g₀.Loaded := ⟨id, shmOffset, info, kernel, es, hload⟩
  have hplaced := (hloaded.allocatedBy _).steps hsteps
  rw [← (GraphObject.load_info hload).1, ← (graphObjectSystem_loaded hsteps).1]
  obtain ⟨desc, hdesc, ht⟩ :=
    createIobufInfo_getElem
      (createIobufInfos_tensors (hplaced.tensors htbuf) kind) htensor
  refine ⟨desc, hdesc, ?_⟩
  obtain ⟨sec, offset, hsec, hoffset, hbuf, hchild, hva, hsize⟩ :=
    (hplaced.reuse htbuf).tensor_place ht
  have hsection : t.LiesIn (childBuf tbuf.reuseGroup sec offset) ↔
      t.size = 0 ∨ desc.offsetInSection.toNat + t.size ≤ sec.size.toNat :=
    TensorBuffer.liesIn_iff (by rw [hva, hchild])
  have hgroup : t.LiesIn tbuf.reuseGroup ↔
      t.size = 0 ∨ offset + desc.offsetInSection.toNat + t.size ≤ tbuf.reuseGroup.size :=
    TensorBuffer.liesIn_iff (by rw [hva, Nat.add_assoc])
  have hzero : desc.size = 0 ↔ t.size = 0 := by
    rw [hsize, ← UInt32.toNat_inj]
    rfl
  constructor
  · rintro ⟨buf, hbuf', hin, hinGroup⟩
    obtain rfl := Option.some.inj (hbuf.symm.trans hbuf')
    rcases hsection.mp hin with hempty | hends
    · exact .inl (hzero.mpr hempty)
    · rcases hgroup.mp hinGroup with hempty | hendsGroup
      · exact .inl (hzero.mpr hempty)
      · rw [hsize] at hends hendsGroup
        exact .inr ⟨sec, offset, hsec, hoffset, hends, hendsGroup⟩
  · rintro (hempty | ⟨sec', offset', hsec', hoffset', hends, hendsGroup⟩)
    · exact ⟨_, hbuf, hsection.mpr (.inl (hzero.mp hempty)), hgroup.mpr (.inl (hzero.mp hempty))⟩
    · obtain rfl := Option.some.inj (hsec.symm.trans hsec')
      obtain rfl := Option.some.inj (hoffset.symm.trans hoffset')
      rw [← hsize] at hends hendsGroup
      exact ⟨_, hbuf, hsection.mpr (.inr hends), hgroup.mpr (.inr hendsGroup)⟩

/-- A tensor of 64 bytes at byte 16 of a section of a page lies in it. -/
theorem tensor_inside_sample :
    ∃ (tbuf : ThreadBufferInfo) (t : TensorBuffer), (tbuf.iobuf.tensors .input)[0]? = some t ∧
      t.size = 64 ∧ tbuf.TensorInside 0 t := by
  obtain ⟨es, hload⟩ := sampleObject_loaded 0 16 64
  obtain ⟨tr, g, hsteps, htbuf, -⟩ := sample_steps 0 16 64
  have htensor : ((sampleTbuf 16 64).iobuf.tensors .input)[0]? = some _ := rfl
  obtain ⟨desc, hdesc, hiff⟩ :=
    tensor_inside_iff hload (AnswersBy.mono (fun _ hsound => hsound.2.2) hsteps) htbuf htensor
  obtain rfl := Option.some.inj hdesc
  refine ⟨sampleTbuf 16 64, _, rfl, by decide, hiff.mpr (.inr ⟨_, 0, rfl, rfl, ?_, ?_⟩)⟩
  · decide
  · decide

/-- A tensor of 64 bytes six bytes before the end of its section is accepted and handed out, and
ends outside. -/
theorem tensor_outside :
    ∃ g₀ es tr g tbuf t,
      (parseGraph sampleZhouyiV2 (Memory.ofBytes 4096 (sampleFile 4090 64)) 4096 220).value =
        .ok g₀.info ∧
      GraphObject.load 1 0 g₀.info sampleLoad = some (.success, g₀, es) ∧
      graphObjectSystem.Steps SoundAnswers g₀ tr g ∧ g.getTbufPtr 0x10000 = some tbuf ∧
      (tbuf.iobuf.tensors .input)[0]? = some t ∧
      (g₀.info.tensors .input).map IoTensorDesc.refSectionIter = [0] ∧ ¬tbuf.TensorInside 0 t := by
  obtain ⟨es, hload⟩ := sampleObject_loaded 0 4090 64
  obtain ⟨tr, g, hsteps, htbuf, -⟩ := sample_steps 0 4090 64
  refine ⟨_, es, tr, g, _, _, by decide +kernel, hload, hsteps, htbuf, rfl, rfl, ?_⟩
  rintro ⟨buf, hbuf, hin, -⟩
  obtain rfl := Option.some.inj hbuf
  -- the byte after the section
  obtain ⟨-, hlt⟩ := hin 0x7041000 (by decide) (by decide)
  exact absurd hlt (by decide)

end Inside

end Aipu
