import AipuDriver.Kmd.Mapping

/-!
# The length of a mapping

`aipu_session_mmap_buf` searches a buffer with an `int` made of the length of the area, and maps the
area with its full length.  An area of less than 4 GiB fits into the buffer found: its length either
survives the conversion to `int`, or becomes negative and, compared with a `u64`, larger than every
buffer.  From 4 GiB on the search may stop at a buffer that holds only the lower half of the length;
`dma_mmap_coherent` refuses such an area, `remap_pfn_range` does not.
-/

namespace Aipu

open ListSearch Transition Word

/-! ## Exact mappings -/

/-- A call of `aipu_session_mmap_buf` that maps an area inside a buffer that was not mapped, and
counts it, or fails and does nothing.  The area is the one that was passed. -/
structure MmapExact (err : ℤ) (session : AipuSession) (vma : VmAreaStruct) : Prop where
  success : (aipuSessionMmapBuf err session vma).1 = 0 → ∃ d : Cursor SessionBuf,
    session.sbufList = d.toList ∧ d.entry.devOffset = vma.vmPgoff * pageSize ∧ d.entry.mapNum = 0 ∧
    vma.size ≤ d.entry.desc.bytes ∧
    aipuSessionMmapBuf err session vma = (0,
      { session with sbufList := d.before ++ { d.entry with mapNum := 1 } :: d.after }, vma,
      some (d.entry.desc.pa, vma.size))
  failure : (aipuSessionMmapBuf err session vma).1 ≠ 0 →
    aipuSessionMmapBuf err session vma =
      ((aipuSessionMmapBuf err session vma).1, session, vma, none)

/-- No area of 4 GiB or more is mapped by `remap_pfn_range` onto a smaller buffer. -/
def NotNarrowed (err : ℤ) (session : AipuSession) (vma : VmAreaStruct) : Prop :=
  err = 0 → 2 ^ 32 ≤ vma.size → ∀ d,
    findBufferByoffsetNoLock session (wrap 64 (vma.vmPgoff * pageSize)) vma.size = some d →
      d.entry.mapNum = 0 → d.entry.type ≠ .cma → vma.size ≤ d.entry.desc.bytes

section Calls

variable {err : ℤ} {session : AipuSession} {vma : VmAreaStruct} {d : Cursor SessionBuf}

/-- When the kernel function fails, so does the call. -/
theorem SessionBuf.mapInto_of_err (sbuf : SessionBuf) (herr : err ≠ 0) :
    (sbuf.mapInto err vma).1 ≠ 0 := by
  unfold SessionBuf.mapInto dmaMmapCoherent remapPfnRange
  cases sbuf.type
  case cma =>
    dsimp only
    rw [if_neg herr]
    split
    · exact herr
    · exact (by decide : (-enxio : ℤ) ≠ 0)
  all_goals
    dsimp only
    rw [if_neg herr]
    exact herr

/-- `remap_pfn_range` maps every area onto a buffer that is found and not mapped. -/
theorem aipuSessionMmapBuf_remap
    (hfind : findBufferByoffsetNoLock session (wrap 64 (vma.vmPgoff * pageSize)) vma.size = some d)
    (hnum : d.entry.mapNum = 0) (htype : d.entry.type ≠ .cma) :
    aipuSessionMmapBuf 0 session vma = (0,
      { session with sbufList := d.before ++ { d.entry with mapNum := 1 } :: d.after }, vma,
      some (d.entry.desc.pa / pageSize * pageSize, vma.size)) := by
  have hmap : d.entry.mapInto 0 { vma with vmPgoff := 0 } =
      (0, some (d.entry.desc.pa / pageSize * pageSize, vma.size)) := by
    unfold SessionBuf.mapInto
    split
    next hcma => exact absurd hcma htype
    all_goals rfl
  simp [aipuSessionMmapBuf, hfind, hnum, hmap]

/-- **Length of a mapping.**  In a session with buffers of whole pages a mapping is exact iff the
area is not one of 4 GiB or more that `remap_pfn_range` maps onto a smaller buffer. -/
theorem mmap_exact_iff (hpgoff : vma.vmPgoff < 2 ^ 52)
    (haligned : ∀ sbuf ∈ session.sbufList, sbuf.desc.PageAligned) :
    MmapExact err session vma ↔ NotNarrowed err session vma := by
  have hoffset : wrap 64 (vma.vmPgoff * pageSize) = vma.vmPgoff * pageSize := by
    unfold pageSize
    exact wrap_of_lt (by omega)
  constructor
  · rintro h rfl - d hfind hnum htype
    have hcall := aipuSessionMmapBuf_remap hfind hnum htype
    obtain ⟨d', hl', -, hnum', hfits, hcall'⟩ := h.success (by rw [hcall])
    obtain ⟨hl, -⟩ := seek_eq_some hfind
    have hset := congrArg (fun r => r.2.1.sbufList) (hcall.symm.trans hcall')
    -- the counter tells which buffer was mapped
    have hne : ∀ sbuf : SessionBuf, sbuf.mapNum = 0 →
        { sbuf with mapNum := 1 } ≠ sbuf := fun sbuf h0 heq => by
      have hone : (1 : ℤ) = sbuf.mapNum := congrArg SessionBuf.mapNum heq
      rw [h0] at hone
      exact absurd hone (by decide)
    obtain rfl : d = d' := Cursor.eq_of_set (f := fun sbuf => { sbuf with mapNum := 1 })
      (hl.symm.trans hl') hset (hne _ hnum) (hne _ hnum')
    exact hfits
  · intro hsafe
    rcases aipuSessionMmapBuf_cases err session vma with ⟨d, range, hfind, hnum, honto, hcall⟩ |
        ⟨ret, hret, hcall⟩
    · refine ⟨fun _ => ?_, fun hne => absurd (congrArg Prod.fst hcall) hne⟩
      obtain ⟨hl, hfound, -⟩ := seek_eq_some hfind
      obtain ⟨hdev, hlen⟩ : d.entry.devOffset = wrap 64 (vma.vmPgoff * pageSize) ∧
          signExtend 32 64 vma.size ≤ d.entry.desc.bytes := by simpa using hfound
      have hpage := haligned d.entry (hl ▸ d.entry_mem)
      have herr : err = 0 := by
        by_contra herr
        have hfail : (d.entry.mapInto err { vma with vmPgoff := 0 }).1 ≠ 0 :=
          d.entry.mapInto_of_err herr
        simp [aipuSessionMmapBuf, hfind, hnum, hfail] at hcall
      obtain ⟨-, hlower, hupper⟩ := honto.within hpage hlen fun htype => by
        rcases Nat.lt_or_ge vma.size (2 ^ 32) with hsmall | hbig
        · exact .inl hsmall
        · exact .inr (hsafe herr hbig d hfind hnum htype)
      have hstart : d.entry.desc.pa / pageSize * pageSize = d.entry.desc.pa :=
        Nat.div_mul_cancel (Nat.dvd_of_mod_eq_zero hpage.1)
      obtain ⟨rfl, -⟩ := honto
      rw [hstart] at hupper hcall
      exact ⟨d, hl, hdev.trans hoffset, hnum, Nat.le_of_add_le_add_left hupper, hcall⟩
    · refine ⟨fun h0 => absurd ((congrArg Prod.fst hcall).symm.trans h0) hret, fun _ => ?_⟩
      rw [hcall]

end Calls

/-! ## Buffers are whole pages -/

/-- The buffers of all sessions, and those on their way to one, are whole pages. -/
structure Kmd.BuffersAligned (k : Kmd) : Prop where
  files : ∀ f ∈ k.files, ∀ sbuf ∈ f.session.sbufList, sbuf.desc.PageAligned
  ops : ∀ op ∈ k.ops, op.BufOk

section Aligned

variable {k k' : Kmd} {a : KmdAction} {es : List KmdEvent} {f' : KmdFile}

/-- Where the session buffers come from: they were there, or they were on their way.  What is on its
way now, was so before, or the step has granted it. -/
structure BufferOrigins (k : Kmd) (a : KmdAction) (k' : Kmd) : Prop where
  files : ∀ f' ∈ k'.files, ∀ sbuf ∈ f'.session.sbufList,
    (∃ f ∈ k.files, ∃ old ∈ f.session.sbufList, old.desc = sbuf.desc ∧
      old.devOffset = sbuf.devOffset) ∨
      ∃ file req, KmdOp.reqbuf file req sbuf.desc ∈ k.ops ∧ sbuf.devOffset = sbuf.desc.pa
  ops : ∀ op ∈ k'.ops, op ∈ k.ops ∨ op.GrantedBy k a

/-- Every edit has the buffers of the file from there. -/
theorem FileEdit.bufferOrigin {f : KmdFile} (h : FileEdit k k' es a f f') {sbuf : SessionBuf}
    (hs : sbuf ∈ f'.session.sbufList) :
    (∃ old ∈ f.session.sbufList, old.desc = sbuf.desc ∧ old.devOffset = sbuf.devOffset) ∨
      ∃ file req, KmdOp.reqbuf file req sbuf.desc ∈ k.ops ∧ sbuf.devOffset = sbuf.desc.pa := by
  have hold : sbuf ∈ f.session.sbufList → ∃ old ∈ f.session.sbufList, old.desc = sbuf.desc ∧
      old.devOffset = sbuf.devOffset := fun hs => ⟨sbuf, hs, rfl, rfl⟩
  cases h with
  | reqAdd req buf _ hop =>
    rcases List.mem_cons.mp hs with rfl | hs
    · exact .inr ⟨f.id, req, hop, rfl⟩
    · exact .inl (hold hs)
  | freeDetach desc d _ hd | relDetach desc d _ hd =>
    obtain ⟨hbufs, -, -⟩ := findBufferBydescNoLock_eq_some hd
    exact .inl (hold (mem_of_detached hbufs hs))
  | mmap vma err d range _ hd =>
    obtain ⟨hbufs, -, -⟩ := seek_eq_some hd
    rcases List.mem_append.mp hs with hs | hs
    · exact .inl (hold (hbufs ▸ Cursor.mem_toList.mpr (.inl hs)))
    rcases List.mem_cons.mp hs with rfl | hs
    · exact .inl ⟨d.entry, hbufs ▸ d.entry_mem, rfl, rfl⟩
    · exact .inl (hold (hbufs ▸ Cursor.mem_toList.mpr (.inr (.inr hs))))
  | munmap | runAdd | query | pollRegister | done | relCancel | relDelete | buffersFreed | relFree
  | detachFailed | destroyFailed => exact .inl (hold hs)

/-- Every step has the session buffers from there. -/
theorem kmdStep_bufferOrigins (h : kmdStep k a = some (k', es)) : BufferOrigins k a k' := by
  refine ⟨fun f' hf' sbuf hs => ?_, (kmdStep_ops h).granted⟩
  rcases (kmdStep_edits h).mem_of hf' with hf | ⟨f, hf, hedit⟩ | ⟨pid, rfl⟩
  · exact .inl ⟨f', hf, sbuf, hs, rfl, rfl⟩
  · exact (hedit.bufferOrigin hs).imp_left fun hold => ⟨f, hf, hold⟩
  · cases hs

/-- Every step keeps the buffers aligned when its request is not close to the end of the address
space. -/
theorem kmdStep_aligned (hmm : k.mm.Inv) (hI : k.BuffersAligned) (hreq : k.requestOk a = true)
    (h : kmdStep k a = some (k', es)) : k'.BuffersAligned := by
  have horigins := kmdStep_bufferOrigins h
  refine ⟨fun f' hf' sbuf hs => ?_, fun op hop => ?_⟩
  · rcases horigins.files f' hf' sbuf hs with ⟨f, hf, old, hmem, hdesc, -⟩ | ⟨file, req, hop, -⟩
    · exact hdesc ▸ hI.files f hf old hmem
    · exact hI.ops _ hop
  · rcases horigins.ops op hop with hold | hgranted
    · exact hI.ops op hold
    · exact hgranted.bufOk hmm hreq

/-- The buffers of every session are whole pages, in every run whose requests are not close to the
end of the address space. -/
theorem kmdSystem_aligned {version : AipuVersion} {map : MemoryMap} {maxSchedNum : ℤ}
    {C : Kmd → KmdAction → Prop} (hreq : ∀ k a, C k a → k.requestOk a = true) {tr : List KmdEvent}
    (h : (kmdSystem version map maxSchedNum).Run C tr k) : k.BuffersAligned := by
  induction h with
  | start hs =>
    obtain ⟨-, -, hfiles, hops⟩ := hs
    exact ⟨by simp [hfiles], by simp [hops]⟩
  | next hrun hC hst ih =>
    obtain ⟨lost, hI, -⟩ := kmdSystem_own hreq hrun
    exact kmdStep_aligned hI.mm ih (hreq _ _ hC) hst

/-- The device offset of every session buffer is its address. -/
theorem kmdSystem_devOffset {version : AipuVersion} {map : MemoryMap} {maxSchedNum : ℤ}
    {C : Kmd → KmdAction → Prop} {tr : List KmdEvent}
    (h : (kmdSystem version map maxSchedNum).Run C tr k) :
    ∀ f ∈ k.files, ∀ sbuf ∈ f.session.sbufList, sbuf.devOffset = sbuf.desc.pa := by
  induction h with
  | start hs =>
    obtain ⟨-, -, hfiles, -⟩ := hs
    simp [hfiles]
  | next _ _ hst ih =>
    intro f' hf' sbuf hs
    rcases (kmdStep_bufferOrigins hst).files f' hf' sbuf hs with
      ⟨f, hf, old, hmem, hdesc, hoff⟩ | ⟨-, -, -, hoff⟩
    · rw [← hoff, ih f hf old hmem, hdesc]
    · exact hoff

end Aligned

/-! ## Sample calls -/

/-- An area of 4 GiB and a page at the device offset `0x100000`. -/
def wideVma : VmAreaStruct where
  vmStart := 0x7e0000000000
  vmEnd := 0x7e0100001000
  vmPgoff := 0x100
  start_lt := by decide
  end_lt := by decide
  start_aligned := by decide
  end_aligned := by decide

/-- An area of the size of its buffer. -/
theorem mmap_exact_sample : ∃ session : AipuSession,
    session.sbufList =
      [{ desc := sampleBuf, devOffset := 0x100000, type := .reserved, mapNum := 0 }] ∧
      MmapExact 0 session sampleVma := by
  refine ⟨{ userPid := 7, sbufList := _ }, rfl, (mmap_exact_iff (by decide) ?_).mpr ?_⟩
  · intro sbuf hs
    obtain rfl := List.mem_singleton.mp hs
    exact ⟨rfl, rfl⟩
  · exact fun _ hbig => absurd hbig (by decide)

/-- A session with a buffer of two pages maps 4 GiB and a page onto it. -/
theorem mmap_exceeds_buffer :
    ∃ k tr, (kmdSystem .zhouyiV2 sampleMap 1).Run BuffersServed tr k ∧ ∃ f ∈ k.files,
      f.session.sbufList.map (·.desc) = [sampleBuf] ∧
      (aipuSessionMmapBuf 0 f.session wideVma).2.2.2 = some (0x100000, 0x100001000) ∧
      ¬MmapExact 0 f.session wideVma := by
  obtain ⟨k, es, f, hexec, hfiles, hbufs, hcall⟩ :
      ∃ k es f, (kmdSystem .zhouyiV2 sampleMap 1).exec BuffersServed sampleKmd
        [.openFile 7 [], .reqAlloc 0 7 [] sampleReq {}, .reqAdd 0 sampleReq sampleBuf true] =
          some (k, es) ∧ k.files = [f] ∧
        f.session.sbufList =
          [{ desc := sampleBuf, devOffset := 0x100000, type := .reserved, mapNum := 0 }] ∧
        (aipuSessionMmapBuf 0 f.session wideVma).1 = 0 ∧
          (aipuSessionMmapBuf 0 f.session wideVma).2.2.2 = some (0x100000, 0x100001000) :=
    ⟨_, _, _, rfl, rfl, rfl, by decide +kernel, by decide +kernel⟩
  refine ⟨k, es, System.run_of_exec sampleKmd_init hexec, f, by simp [hfiles],
    by simp [hbufs], hcall.2, fun h => ?_⟩
  obtain ⟨d, hl, -, -, hfits, -⟩ := h.success hcall.1
  have hmem : d.entry ∈ f.session.sbufList := hl ▸ d.entry_mem
  rw [hbufs] at hmem
  rw [List.mem_singleton.mp hmem] at hfits
  exact absurd hfits (by decide)

end Aipu
