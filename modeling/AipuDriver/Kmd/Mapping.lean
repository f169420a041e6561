import Mathlib.Data.Fintype.Defs
import AipuDriver.Kmd.FileEdits
import AipuDriver.Kmd.Ownership

/-!
# What user space has mapped

A file keeps the physical ranges that its process has mapped.  The driver never looks at them:
`aipu_session_detach_buf` does not ask whether the buffer is mapped, and `aipu_session_mmap_buf`
compares the size of a buffer with a length that was cut down to an `int`.  The mapped bytes are
those of buffers of the session as long as no mapped buffer is freed and no area of four gigabytes
or more is mapped onto a smaller buffer (`Kmd.mappingSafe`).
-/

namespace Aipu

open ListSearch Transition Word

/-! ## Ranges -/

/-- The byte `b` lies in the range `x`. -/
def InRange (x : ℕ × ℕ) (b : ℕ) : Prop := x.1 ≤ b ∧ b < x.1 + x.2

/-- The range `x` lies in the range `y`. -/
def Within (x y : ℕ × ℕ) : Prop := y.1 ≤ x.1 ∧ x.1 + x.2 ≤ y.1 + y.2

instance (x y : ℕ × ℕ) : Decidable (RangesDisjoint x y) := inferInstanceAs (Decidable (_ ∨ _))

/-- The bytes of a range inside another one are bytes of the other one. -/
theorem Within.inRange {x y : ℕ × ℕ} (h : Within x y) {b : ℕ} (hb : InRange x b) : InRange y b := by
  unfold Within InRange at *
  omega

/-- What is left of a range after a part was unmapped is not empty and lies in the range. -/
theorem unmapPart_spec {map m : ℕ × ℕ} {front len : ℕ} (hlen : front + len ≤ map.2)
    (h : m ∈ unmapPart map front len) : 0 < m.2 ∧ Within m map := by
  unfold Within
  simp only [unmapPart, List.mem_filter, List.mem_cons, List.not_mem_nil, or_false,
    decide_eq_true_eq] at h
  obtain ⟨rfl | rfl, hne⟩ := h <;> dsimp only at hne ⊢ <;> omega

/-! ## The invariant -/

/-- The buffers of a file are whole pages, every mapped range lies in one of them, and nothing is
mapped after the release of the file has begun. -/
structure KmdFile.MapsOk (f : KmdFile) : Prop where
  aligned : ∀ sbuf ∈ f.session.sbufList, sbuf.desc.PageAligned
  backed : ∀ m ∈ f.maps, 0 < m.2 ∧ ∃ sbuf ∈ f.session.sbufList, Within m sbuf.range
  opened : f.maps ≠ [] → f.phase = .opened

/-- A buffer on its way to a session is whole pages. -/
def KmdOp.BufOk : KmdOp → Prop
  | .reqbuf _ _ buf => buf.PageAligned
  | _ => True

/-- The mapping invariant. -/
structure Kmd.MapInv (k : Kmd) : Prop where
  files : ∀ f ∈ k.files, f.MapsOk
  ops : ∀ op ∈ k.ops, op.BufOk

/-- The step does not free a buffer of which the file has a byte mapped, does not map four gigabytes
or more onto a smaller buffer, and does not ask for memory close to the end of the address space. -/
def Kmd.mappingSafe (k : Kmd) : KmdAction → Bool
  | .freeDetach file desc => decide (∀ f ∈ k.files, f.id = file →
      (∃ sbuf ∈ f.session.sbufList, sbuf.range = desc.range) →
      ∀ m ∈ f.maps, RangesDisjoint m desc.range)
  | .mmap file vma _ => decide (∀ f ∈ k.files, f.id = file → ∀ sbuf ∈ f.session.sbufList,
      sbuf.devOffset = wrap 64 (vma.vmPgoff * pageSize) → sbuf.type ≠ .cma →
      vma.size < 2 ^ 32 ∨ vma.size ≤ sbuf.desc.bytes)
  | .reqAlloc _ _ _ req _ => decide (req.NoWrap k.mm.version)
  | _ => true

/-- The condition on the steps of a run. -/
def MappingSafe (k : Kmd) (a : KmdAction) : Prop := k.mappingSafe a = true

instance : DecidableRel MappingSafe := fun _ _ => inferInstanceAs (Decidable (_ = _))

/-- Safe steps make no request close to the end of the address space. -/
theorem MappingSafe.requestOk {k : Kmd} {a : KmdAction} (h : MappingSafe k a) :
    k.requestOk a = true := by
  cases a <;> first | rfl | exact h

section Preservation

variable {k k' : Kmd} {a : KmdAction} {es : List KmdEvent} {f f' : KmdFile}

/-- The invariant of a file concerns its buffers and its mappings only. -/
theorem KmdFile.MapsOk.of_same (h : f.MapsOk) (hbufs : f'.session.sbufList = f.session.sbufList)
    (hmaps : f'.maps = f.maps) (hphase : f'.phase = f.phase ∨ f.maps = []) : f'.MapsOk := by
  obtain ⟨haligned, hbacked, hopened⟩ := h
  refine ⟨hbufs ▸ haligned, by rw [hbufs, hmaps]; exact hbacked, fun hne => ?_⟩
  rw [hmaps] at hne
  rcases hphase with hphase | hnil
  · exact hphase.trans (hopened hne)
  · exact absurd hnil hne

/-- Nothing is mapped when the release of the file has begun. -/
theorem KmdFile.MapsOk.maps_eq_nil (h : f.MapsOk) (hphase : f.phase ≠ .opened) : f.maps = [] := by
  by_contra hne
  exact hphase (h.opened hne)

/-- A buffer without mapped bytes is taken off the list. -/
theorem KmdFile.MapsOk.detached {desc : BufDesc} {d : Cursor SessionBuf} (h : f.MapsOk)
    (hd : findBufferBydescNoLock f.session desc = some d)
    (hsafe : ∀ m ∈ f.maps, RangesDisjoint m desc.range) :
    KmdFile.MapsOk { f with session := { f.session with sbufList := d.before ++ d.after } } := by
  obtain ⟨hbufs, hrange, -⟩ := findBufferBydescNoLock_eq_some hd
  refine ⟨fun sbuf hs => h.aligned sbuf (mem_of_detached hbufs hs), fun m hm => ?_, h.opened⟩
  obtain ⟨hpos, sbuf, hs, hwithin⟩ := h.backed m hm
  refine ⟨hpos, sbuf, ?_, hwithin⟩
  rw [hbufs, Cursor.mem_toList] at hs
  rcases hs with hs | rfl | hs
  · exact List.mem_append_left _ hs
  · -- the mapping would be one of the buffer that is freed
    have hdisj := hsafe m hm
    rw [hrange] at hwithin
    unfold RangesDisjoint at hdisj
    unfold Within at hwithin
    omega
  · exact List.mem_append_right _ hs

/-- A mapping that the driver grants lies in its buffer, when it is not of four gigabytes or more
and larger than the buffer. -/
theorem MapsOnto.within {vma : VmAreaStruct} {sbuf : SessionBuf} {range : ℕ × ℕ}
    (h : MapsOnto vma sbuf range) (haligned : sbuf.desc.PageAligned)
    (hlen : signExtend 32 64 vma.size ≤ sbuf.desc.bytes)
    (hsmall : sbuf.type ≠ .cma → vma.size < 2 ^ 32 ∨ vma.size ≤ sbuf.desc.bytes) :
    0 < range.2 ∧ Within range sbuf.range := by
  obtain ⟨rfl, hcma⟩ := h
  obtain ⟨hpa, hbytes⟩ := haligned
  have hstart := vma.start_aligned
  have hend := vma.end_aligned
  have hlt := vma.start_lt
  have hfits : vma.size ≤ sbuf.desc.bytes := by
    by_cases htype : sbuf.type = .cma
    · have hpages := hcma htype
      unfold VmAreaStruct.size pageSize at *
      omega
    · rcases hsmall htype with hsmall | hfits
      · unfold signExtend at hlen
        rw [wrap_of_lt hsmall] at hlen
        split at hlen <;> omega
      · exact hfits
  unfold Within SessionBuf.range VmAreaStruct.size pageSize at *
  dsimp only
  omega

/-- A buffer is mapped by an area that is not too large. -/
theorem KmdFile.MapsOk.mapped {vma : VmAreaStruct} {d : Cursor SessionBuf} {range : ℕ × ℕ}
    (h : f.MapsOk) (hphase : f.phase = .opened)
    (hd : findBufferByoffsetNoLock f.session (wrap 64 (vma.vmPgoff * pageSize)) vma.size = some d)
    (honto : MapsOnto vma d.entry range)
    (hsmall : d.entry.type ≠ .cma → vma.size < 2 ^ 32 ∨ vma.size ≤ d.entry.desc.bytes) :
    KmdFile.MapsOk { f with
      session := { f.session with
        sbufList := d.before ++ { d.entry with mapNum := 1 } :: d.after }
      maps := range :: f.maps } := by
  obtain ⟨hbufs, hfound, -⟩ := seek_eq_some hd
  obtain ⟨-, hlen⟩ : d.entry.devOffset = wrap 64 (vma.vmPgoff * pageSize) ∧
      signExtend 32 64 vma.size ≤ d.entry.desc.bytes := by simpa using hfound
  have hmem : d.entry ∈ f.session.sbufList := hbufs ▸ d.entry_mem
  have hnew := honto.within (h.aligned _ hmem) hlen hsmall
  -- the counter of mappings changes, the ranges do not
  have hmove : ∀ sbuf ∈ f.session.sbufList,
      ∃ sbuf' ∈ d.before ++ { d.entry with mapNum := 1 } :: d.after,
        sbuf'.range = sbuf.range := by
    intro sbuf hs
    rw [hbufs, Cursor.mem_toList] at hs
    rcases hs with hs | rfl | hs
    · exact ⟨sbuf, by simp [hs], rfl⟩
    · exact ⟨_, List.mem_append_right _ (List.mem_cons_self ..), rfl⟩
    · exact ⟨sbuf, by simp [hs], rfl⟩
  refine ⟨fun sbuf hs => ?_, fun m hm => ?_, fun _ => hphase⟩
  · rcases List.mem_append.mp hs with hs | hs
    · exact h.aligned sbuf (by rw [hbufs]; exact Cursor.mem_toList.mpr (.inl hs))
    rcases List.mem_cons.mp hs with rfl | hs
    · exact h.aligned d.entry hmem
    · exact h.aligned sbuf (by rw [hbufs]; exact Cursor.mem_toList.mpr (.inr (.inr hs)))
  · obtain ⟨hpos, sbuf, hs, hwithin⟩ : 0 < m.2 ∧ ∃ sbuf ∈ f.session.sbufList,
        Within m sbuf.range := by
      rcases List.mem_cons.mp hm with rfl | hm
      · exact ⟨hnew.1, d.entry, hmem, hnew.2⟩
      · exact h.backed m hm
    obtain ⟨sbuf', hs', heq⟩ := hmove sbuf hs
    exact ⟨hpos, sbuf', hs', heq ▸ hwithin⟩

/-- The kernel unmaps a part of a mapped range. -/
theorem KmdFile.MapsOk.unmapped {map : ℕ × ℕ} {front len : ℕ} (h : f.MapsOk)
    (hphase : f.phase = .opened) (hmap : map ∈ f.maps) (hlen : front + len ≤ map.2) :
    KmdFile.MapsOk { f with maps := unmapPart map front len ++ f.maps.erase map } := by
  refine ⟨h.aligned, fun m hm => ?_, fun _ => hphase⟩
  rcases List.mem_append.mp hm with hm | hm
  · obtain ⟨hpos, hwithin⟩ := unmapPart_spec hlen hm
    obtain ⟨-, sbuf, hs, hbacked⟩ := h.backed map hmap
    refine ⟨hpos, sbuf, hs, ?_⟩
    unfold Within at *
    omega
  · exact h.backed m (List.mem_of_mem_erase hm)

/-- Every edit that a safe step makes keeps the invariant of the file. -/
theorem FileEdit.mapsOk (h : FileEdit k k' es a f f') (hI : k.MapInv) (hC : MappingSafe k a)
    (hf : f ∈ k.files) : f'.MapsOk := by
  have hok := hI.files f hf
  cases h with
  | reqAdd req buf _ hop =>
    have haligned : buf.PageAligned := hI.ops _ hop
    refine ⟨List.forall_mem_cons.mpr ⟨haligned, hok.aligned⟩, fun m hm => ?_, hok.opened⟩
    obtain ⟨hpos, sbuf, hs, hwithin⟩ := hok.backed m hm
    exact ⟨hpos, sbuf, List.mem_cons_of_mem _ hs, hwithin⟩
  | freeDetach desc d _ hd =>
    obtain ⟨hbufs, hrange, -⟩ := findBufferBydescNoLock_eq_some hd
    have hC' := of_decide_eq_true hC
    exact hok.detached hd (hC' f hf rfl ⟨d.entry, hbufs ▸ d.entry_mem, hrange⟩)
  | mmap vma err d range hphase hd honto =>
    obtain ⟨hbufs, hfound, -⟩ := seek_eq_some hd
    obtain ⟨hoff, -⟩ : d.entry.devOffset = wrap 64 (vma.vmPgoff * pageSize) ∧
        signExtend 32 64 vma.size ≤ d.entry.desc.bytes := by simpa using hfound
    have hC' := of_decide_eq_true hC
    exact hok.mapped hphase hd honto (hC' f hf rfl d.entry (hbufs ▸ d.entry_mem) hoff)
  | munmap map front len hphase hmap hlen => exact hok.unmapped hphase hmap hlen
  | runAdd | query | pollRegister | done => exact hok.of_same rfl rfl (.inl rfl)
  | relCancel _ _ hmaps => exact hok.of_same rfl rfl (.inr hmaps)
  | relDelete hphase | buffersFreed hphase | relFree _ _ _ hphase | detachFailed _ hphase
  | destroyFailed hphase => exact hok.of_same rfl rfl (.inr (hok.maps_eq_nil (by simp [hphase])))
  | relDetach desc d hphase hd =>
    have hnil := hok.maps_eq_nil (by simp [hphase])
    obtain ⟨hbufs, -, -⟩ := findBufferBydescNoLock_eq_some hd
    exact ⟨fun sbuf hs => hok.aligned sbuf (mem_of_detached hbufs hs), by simp [hnil],
      by simp [hnil]⟩

/-- A buffer that is granted to a request far from the end of the address space is whole pages. -/
theorem KmdOp.GrantedBy.bufOk {op : KmdOp} (h : op.GrantedBy k a) (hmm : k.mm.Inv)
    (hreq : k.requestOk a = true) : op.BufOk := by
  cases op with
  | reqbuf file req buf =>
    obtain ⟨file₀, tid, kz, req₀, buf₀, r, rfl, halloc, hret, rfl⟩ := h
    have hnoWrap : req₀.NoWrap k.mm.version := of_decide_eq_true hreq
    rcases aipuMmAlloc_spec hmm hnoWrap halloc with ⟨hret', -⟩ | ⟨-, hgrant⟩
    · exact absurd hret hret'
    · exact hgrant.aligned
  | _ => trivial

/-- Every safe step keeps the mapping invariant. -/
theorem kmdStep_maps (hmm : k.mm.Inv) (hI : k.MapInv) (hC : MappingSafe k a)
    (h : kmdStep k a = some (k', es)) : k'.MapInv := by
  refine ⟨fun f' hf' => ?_, fun op hop => ?_⟩
  · rcases (kmdStep_edits h).mem_of hf' with hf | ⟨f, hf, hedit⟩ | ⟨pid, rfl⟩
    · exact hI.files f' hf
    · exact hedit.mapsOk hI hC hf
    · exact ⟨by simp, by simp, fun _ => rfl⟩
  · rcases (kmdStep_ops h).granted op hop with hold | hgranted
    · exact hI.ops op hold
    · exact hgranted.bufOk hmm hC.requestOk

end Preservation

/-! ## Runs -/

/-- Every mapped byte belongs to a buffer of the session that mapped it, and to no buffer that
another session owns. -/
def Kmd.MappedBytesOwned (k : Kmd) : Prop :=
  ∀ f ∈ k.files, ∀ m ∈ f.maps, ∀ b, InRange m b →
    (∃ sbuf ∈ f.session.sbufList, InRange sbuf.range b) ∧
      ∀ g ∈ k.files, g.id ≠ f.id → ∀ x ∈ g.owned, ¬InRange x b

/-- Two files own different ranges. -/
theorem Kmd.OwnInv.owned_disjoint {k : Kmd} {lost : List (ℕ × ℕ)} (hI : k.OwnInv lost)
    {f g : KmdFile} (hf : f ∈ k.files) (hg : g ∈ k.files) (hne : g.id ≠ f.id) :
    List.Disjoint f.owned g.owned := by
  have hnodup : (k.owned ++ lost).Nodup := hI.owned.nodup_iff.mp hI.mm.nodup
  have hfiles : (k.files.flatMap KmdFile.owned).Nodup :=
    (List.nodup_append.mp (List.nodup_append.mp hnodup).1).1
  have hpair := (List.nodup_flatMap.mp hfiles).2
  have : Std.Symm (Function.onFun List.Disjoint KmdFile.owned) := ⟨fun _ _ h _ hx hy => h hy hx⟩
  exact hpair.forall hf hg fun heq => hne (heq ▸ rfl)

/-- The two invariants together say that mapped bytes are owned. -/
theorem Kmd.MapInv.mappedBytesOwned {k : Kmd} {lost : List (ℕ × ℕ)} (hI : k.MapInv)
    (hown : k.OwnInv lost) : k.MappedBytesOwned := by
  intro f hf m hm b hb
  have hok := hI.files f hf
  obtain ⟨-, sbuf, hs, hwithin⟩ := hok.backed m hm
  have hsb := hwithin.inRange hb
  refine ⟨⟨sbuf, hs, hsb⟩, fun g hg hne x hx hxb => ?_⟩
  have hphase : f.phase = .opened := hok.opened (List.ne_nil_of_mem hm)
  have hsf : sbuf.range ∈ f.owned := by
    rw [KmdFile.owned_eq (by simp [hphase])]
    exact List.mem_map_of_mem hs
  have halloc : ∀ {h : KmdFile}, h ∈ k.files → ∀ {y}, y ∈ h.owned → y ∈ k.mm.allocated :=
    fun hh _ hy => hown.owned.mem_iff.mpr (List.mem_append_left _
      (List.mem_append_left _ (List.mem_flatMap.mpr ⟨_, hh, hy⟩)))
  unfold InRange at hsb hxb
  have heq := hown.mm.eq_of_overlap (halloc hf hsf) (halloc hg hx) (by omega) (by omega)
  exact hown.owned_disjoint hf hg hne hsf (heq ▸ hx)

/-- **Mappings and ownership.**  In every run whose steps are all safe, every byte that a session
has mapped and not unmapped belongs to a buffer in its list, and to no buffer of another session. -/
theorem mapped_bytes_owned (version : AipuVersion) (map : MemoryMap) (maxSchedNum : ℤ)
    {tr : List KmdEvent} {k : Kmd}
    (h : (kmdSystem version map maxSchedNum).Run MappingSafe tr k) : k.MappedBytesOwned := by
  have hown : ∀ {tr k}, (kmdSystem version map maxSchedNum).Run MappingSafe tr k →
      ∃ lost, k.OwnInv lost := fun h => by
    obtain ⟨lost, hI, -⟩ := kmdSystem_own (fun k a hC => MappingSafe.requestOk hC) h
    exact ⟨lost, hI⟩
  have hmaps : k.MapInv := by
    induction h with
    | start hs =>
      obtain ⟨-, -, hfiles, hops⟩ := hs
      exact ⟨by simp [hfiles], by simp [hops]⟩
    | next hrun hC hst ih =>
      obtain ⟨lost, hI⟩ := hown hrun
      exact kmdStep_maps hI.mm ih hC hst
  obtain ⟨lost, hI⟩ := hown h
  exact hmaps.mappedBytesOwned hI

/-! ## Sample runs -/

/-- An area of two pages at the device offset `0x100000`. -/
def sampleVma : VmAreaStruct where
  vmStart := 0x7f0000000000
  vmEnd := 0x7f0000002000
  vmPgoff := 0x100
  start_lt := by decide
  end_lt := by decide
  start_aligned := by decide
  end_aligned := by decide

/-- A request for two pages of text. -/
def sampleReq : BufRequest := { bytes := 5000, alignInPage := 1, dataType := aipuMmDataTypeText }

/-- The buffer granted for it on the idle sample platform. -/
def sampleBuf : AipuBuffer :=
  { pa := 0x100000, va := 0x40000000, bytes := 0x2000, type := .reserved }

/-- A buffer is mapped and half of it unmapped, while another session frees the buffer that it was
granted. -/
theorem mapped_bytes_owned_sample :
    ∃ k : Kmd, k.files.map (·.maps) = [[], [(0x100000, 0x1000)]] ∧ k.MappedBytesOwned := by
  have hexec : ((kmdSystem .zhouyiV2 sampleMap 1).exec MappingSafe sampleKmd
      [.openFile 7 [], .reqAlloc 0 7 [] sampleReq {}, .reqAdd 0 sampleReq sampleBuf true,
        .mmap 0 sampleVma 0, .openFile 9 [], .munmap 0 (0x100000, 0x2000) 0x1000 0x1000,
        .reqAlloc 1 9 [] sampleReq {},
        .reqAdd 1 sampleReq { sampleBuf with pa := 0x102000, va := 0x40002000 } true,
        .freeDetach 1 { pa := 0x102000, bytes := 0x2000 },
        .freeMm 1 { pa := 0x102000, bytes := 0x2000 }]).map (fun r => r.1.files.map (·.maps)) =
      some [[], [(0x100000, 0x1000)]] := by decide +kernel
  obtain ⟨⟨k, es⟩, hexec, hmaps⟩ := Option.map_eq_some_iff.mp hexec
  exact ⟨k, hmaps,
    mapped_bytes_owned .zhouyiV2 sampleMap 1 (System.run_of_exec sampleKmd_init hexec)⟩

/-- A session frees a buffer that it has mapped, and another session is granted the same memory: the
first session can still write to it. -/
theorem mapped_bytes_not_owned :
    ∃ k tr, (kmdSystem .zhouyiV2 sampleMap 1).Run BuffersServed tr k ∧
      (∃ f ∈ k.files, ∃ g ∈ k.files, g.id ≠ f.id ∧ (0x100000, 0x2000) ∈ f.maps ∧
        f.session.sbufList = [] ∧ (0x100000, 0x2000) ∈ g.owned) ∧ ¬k.MappedBytesOwned := by
  have hexec : ∃ k es f g, (kmdSystem .zhouyiV2 sampleMap 1).exec BuffersServed sampleKmd
      [.openFile 7 [], .openFile 9 [], .reqAlloc 0 7 [] sampleReq {},
        .reqAdd 0 sampleReq sampleBuf true, .mmap 0 sampleVma 0,
        .freeDetach 0 { pa := 0x100000, bytes := 0x2000 },
        .freeMm 0 { pa := 0x100000, bytes := 0x2000 },
        .reqAlloc 1 9 [] sampleReq {}, .reqAdd 1 sampleReq sampleBuf true] = some (k, es) ∧
      k.files = [g, f] ∧ f.id = 0 ∧ g.id = 1 ∧ f.maps = [(0x100000, 0x2000)] ∧
      f.session.sbufList = [] ∧ g.owned = [(0x100000, 0x2000)] :=
    ⟨_, _, _, _, rfl, rfl, rfl, rfl, rfl, rfl, rfl⟩
  obtain ⟨k, es, f, g, hexec, hfiles, hf, hg, hmaps, hbufs, howned⟩ := hexec
  have hfk : f ∈ k.files := by simp [hfiles]
  have hgk : g ∈ k.files := by simp [hfiles]
  have hmapped : (0x100000, 0x2000) ∈ f.maps := by simp [hmaps]
  refine ⟨k, es, System.run_of_exec sampleKmd_init hexec,
    ⟨f, hfk, g, hgk, by simp [hf, hg], hmapped, hbufs, by simp [howned]⟩, fun hall => ?_⟩
  have hbyte : InRange (0x100000, 0x2000) 0x100000 := by simp [InRange]
  obtain ⟨⟨sbuf, hs, -⟩, -⟩ := hall f hfk _ hmapped _ hbyte
  simp [hbufs] at hs

end Aipu
