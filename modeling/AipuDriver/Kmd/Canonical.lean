import AipuDriver.Kmd.MmSystem

/-!
# The block list is a canonical form

What the block list of a region shows, the triples of start, size and free mark, is a function of
the window of the region and of the set of its allocated ranges (`AipuMemRegion.Inv.view_eq`).
For the whole memory manager (`AipuMemoryManager.view`) this gives, without a look at the ways in
which blocks are split and merged, that a release undoes an allocation and that the order of
releases does not matter.
-/

namespace Aipu

open Transition Tiling

/-- The range that a buffer descriptor names. -/
def BufDesc.range (desc : BufDesc) : ℕ × ℕ := (desc.pa, desc.bytes)

/-- What the regions of a memory manager show: for each its geometry, the triples of its blocks
and its free counter. -/
def AipuMemoryManager.view (mm : AipuMemoryManager) :=
  mm.regions.map fun r => (r.geometry, r.triples, r.totFreeBytes)

/-- Two regions with the same window and the same allocated ranges have the same triples and the
same free counter. -/
theorem AipuMemRegion.Inv.view_eq {r r' : AipuMemRegion} (h : r.Inv) (h' : r'.Inv)
    (hpa : r'.pa = r.pa) (htot : r'.totBytes = r.totBytes)
    (hmem : ∀ x, x ∈ r.allocated ↔ x ∈ r'.allocated) :
    r.triples = r'.triples ∧ r.totFreeBytes = r'.totFreeBytes := by
  have htiles' : TileBlocks r.pa (r.pa + r.totBytes) r'.blkHead := hpa ▸ htot ▸ h'.tiles
  refine ⟨h.tiles.view_eq_of_occupied h.noFreePair htiles' h'.noFreePair hmem, ?_⟩
  have hocc : r.allocated = r'.allocated := h.tiles.occupied_eq h'.tiles hmem
  have hbal := h.totFree_add_allocated
  have hbal' := h'.totFree_add_allocated
  rw [hocc] at hbal
  omega

/-- Two memory managers with the same geometry and the same allocated ranges show the same. -/
theorem AipuMemoryManager.Inv.view_eq {mm mm' : AipuMemoryManager} (h : mm.Inv) (h' : mm'.Inv)
    (hg : mm'.geometry = mm.geometry) (hmem : ∀ x, x ∈ mm.allocated ↔ x ∈ mm'.allocated) :
    mm.view = mm'.view := by
  have hlen : mm.regions.length = mm'.regions.length := by
    simpa [geometry] using (congrArg List.length hg).symm
  refine List.ext_getElem (by simp [view, hlen]) fun i hi hi' => ?_
  simp only [view, List.length_map] at hi hi'
  have hr : mm.regions[i] ∈ mm.regions := List.getElem_mem hi
  have hr' : mm'.regions[i] ∈ mm'.regions := List.getElem_mem hi'
  have hgi : (mm'.regions[i]).geometry = (mm.regions[i]).geometry := by
    have := List.getElem_of_eq hg (i := i) (by simpa [geometry] using hi')
    simpa [geometry] using this
  obtain ⟨hpa, htot⟩ := AipuMemRegion.window_of_geometry hgi
  have hregion : ∀ x, x ∈ (mm.regions[i]).allocated ↔ x ∈ (mm'.regions[i]).allocated := by
    intro x
    constructor
    · intro hx
      have hwin := ((h.region _ hr).bounds hx).2
      exact h'.mem_of_window ((hmem x).mp (List.mem_flatMap.mpr ⟨_, hr, hx⟩)) hr'
        (by rwa [hpa, htot])
    · intro hx
      have hwin := ((h'.region _ hr').bounds hx).2
      exact h.mem_of_window ((hmem x).mpr (List.mem_flatMap.mpr ⟨_, hr', hx⟩)) hr
        (by rwa [← hpa, ← htot])
  obtain ⟨htriples, hfree⟩ := (h.region _ hr).view_eq (h'.region _ hr') hpa htot hregion
  simp [view, hgi, htriples, hfree]

section Orders

variable (version : AipuVersion) (map : MemoryMap) {geometry : List _} {s : MmState}

/-- Freeing different live ranges, one after the other, succeeds and takes exactly these ranges off
the live ones. -/
theorem freeAll_spec {descs : List BufDesc} (hs : s.Inv geometry)
    (hnodup : (descs.map BufDesc.range).Nodup) (hlive : ∀ d ∈ descs, d.range ∈ s.live) :
    ∃ s' es, (mmSystem version map).exec anyStep s (descs.map .free) = some (s', es) ∧
      (∀ e ∈ es, e = 0) ∧ s'.Inv geometry ∧ s.live.Perm (descs.map BufDesc.range ++ s'.live) := by
  induction descs generalizing s with
  | nil => exact ⟨s, [], rfl, by simp, hs, .refl _⟩
  | cons d ds ih =>
    obtain ⟨hd, hds⟩ := List.nodup_cons.mp hnodup
    obtain ⟨s₁, hstep, hinv, hperm⟩ := mmStep_free hs (hlive d (by simp))
    have hlive₁ : ∀ d' ∈ ds, d'.range ∈ s₁.live := by
      intro d' hd'
      have hmem := hperm.mem_iff.mp (hlive d' (List.mem_cons_of_mem d hd'))
      rcases List.mem_cons.mp hmem with heq | hmem
      · exact absurd (List.mem_map.mpr ⟨d', hd', heq⟩) hd
      · exact hmem
    obtain ⟨s₂, es, hexec, hzero, hinv₂, hperm₂⟩ := ih hinv hds hlive₁
    refine ⟨s₂, 0 :: es, ?_, ?_, hinv₂, hperm.trans (hperm₂.cons _)⟩
    · have hstep' : (mmSystem version map).step s (.free d) = some (s₁, [0]) := hstep
      simp only [List.map_cons, System.exec, hstep', hexec, if_pos (show anyStep s _ from trivial)]
      rfl
    · simpa using hzero

end Orders

/-- **Canonical form.**  In reachable states of any two platforms, each with disjoint nodes
(`MemoryMap.disjoint`), two regions with the same window and the same set of allocated ranges have
the same triples and the same free counter.  From a reachable state, a successful allocation
followed by the release of its buffer restores what all regions show; and releasing the same live
buffers in two orders succeeds and ends in memory managers that show the same. -/
theorem block_list_canonical {version version' : AipuVersion} {map map' : MemoryMap}
    {s s' : MmState} (h : (mmSystem version map).Reachable anyStep s)
    (h' : (mmSystem version' map').Reachable anyStep s') :
    (∀ r ∈ s.mm.regions, ∀ r' ∈ s'.mm.regions, r'.pa = r.pa → r'.totBytes = r.totBytes →
      (∀ x, x ∈ r.allocated ↔ x ∈ r'.allocated) →
      r.triples = r'.triples ∧ r.totFreeBytes = r'.totFreeBytes) ∧
    (∀ tid req buf, req.bytes < 2 ^ 32 → ∀ res, aipuMmAlloc [] tid s.mm req buf = some res →
      res.ret = 0 → ∀ desc : BufDesc, desc.range = (res.buf.pa, res.buf.bytes) →
      ∃ mm', aipuMmFree res.mem desc = (0, mm') ∧ mm'.view = s.mm.view) ∧
    (∀ descs₁ descs₂ : List BufDesc,
      (descs₁.map BufDesc.range).Perm (descs₂.map BufDesc.range) →
      (descs₁.map BufDesc.range).Nodup → (∀ d ∈ descs₁, d.range ∈ s.live) →
      ∃ s₁ es₁ s₂ es₂,
        (mmSystem version map).exec anyStep s (descs₁.map .free) = some (s₁, es₁) ∧
        (mmSystem version map).exec anyStep s (descs₂.map .free) = some (s₂, es₂) ∧
        (∀ e ∈ es₁ ++ es₂, e = 0) ∧ s₁.mm.view = s₂.mm.view) := by
  obtain ⟨mm₀, -, hinv⟩ := mmSystem_inv h
  obtain ⟨mm₀', -, hinv'⟩ := mmSystem_inv h'
  refine ⟨?_, ?_, ?_⟩
  · intro r hr r' hr' hpa htot hmem
    exact (hinv.mm.region r hr).view_eq (hinv'.mm.region r' hr') hpa htot hmem
  · intro tid req buf hbytes res halloc hret desc hdesc
    obtain ⟨hne, -⟩ | ⟨-, hgrant⟩ :=
      aipuMmAlloc_spec hinv.mm (BufRequest.noWrap_of_lt _ hbytes) halloc
    · exact absurd hret hne
    have hlive : (desc.pa, desc.bytes) ∈ res.mem.allocated :=
      hgrant.allocated.mem_iff.mpr (by rw [← hdesc]; exact List.mem_cons_self)
    obtain ⟨mm', hfree, hrel⟩ := aipuMmFree_spec hgrant.inv hlive
    refine ⟨mm', hfree, ?_⟩
    have hperm : mm'.allocated.Perm s.mm.allocated := by
      have := hrel.allocated.symm.trans hgrant.allocated
      rw [← hdesc] at this
      exact this.cons_inv
    exact hrel.inv.view_eq hinv.mm (hrel.geometry.trans hgrant.geometry).symm
      fun x => hperm.mem_iff
  · intro descs₁ descs₂ hperm hnodup hlive
    have hlive₂ : ∀ d ∈ descs₂, d.range ∈ s.live := by
      intro d hd
      obtain ⟨d₁, hd₁, heq⟩ := List.mem_map.mp (hperm.mem_iff.mpr (List.mem_map_of_mem hd))
      exact heq ▸ hlive d₁ hd₁
    obtain ⟨s₁, es₁, hexec₁, hzero₁, hinv₁, hperm₁⟩ :=
      freeAll_spec version map hinv hnodup hlive
    obtain ⟨s₂, es₂, hexec₂, hzero₂, hinv₂, hperm₂⟩ :=
      freeAll_spec version map hinv (hperm.nodup_iff.mp hnodup) hlive₂
    refine ⟨s₁, es₁, s₂, es₂, hexec₁, hexec₂, ?_, ?_⟩
    · intro e he
      rcases List.mem_append.mp he with he | he
      · exact hzero₁ e he
      · exact hzero₂ e he
    · have hleft : s₁.live.Perm s₂.live := by
        have := hperm₁.symm.trans (hperm₂.trans (hperm.symm.append_right _))
        exact (List.perm_append_left_iff _).mp this
      exact hinv₁.mm.view_eq hinv₂.mm (hinv₂.geometry.trans hinv₁.geometry.symm)
        fun x => ((hinv₁.live.trans hleft).trans hinv₂.live.symm).mem_iff

/-- Two buffers on the sample platform, released in both orders. -/
theorem block_list_canonical_sample :
    ∃ s : MmState, s.live = [(0x106000, 0x1000), (0x100000, 0x2000)] ∧
      (∃ s₁ es₁ s₂ es₂,
        (mmSystem .zhouyiV2 sampleMap).exec anyStep s
          [.free { pa := 0x106000, bytes := 0x1000 }, .free { pa := 0x100000, bytes := 0x2000 }] =
            some (s₁, es₁) ∧
        (mmSystem .zhouyiV2 sampleMap).exec anyStep s
          [.free { pa := 0x100000, bytes := 0x2000 }, .free { pa := 0x106000, bytes := 0x1000 }] =
            some (s₂, es₂) ∧ s₁.mm.view = s₂.mm.view) := by
  obtain ⟨s, es, hexec, hlive⟩ : ∃ s es, (mmSystem .zhouyiV2 sampleMap).exec anyStep ⟨sampleMm, []⟩
      [.alloc 7 { bytes := 5000, alignInPage := 1, dataType := aipuMmDataTypeText } {},
        .alloc 7 { bytes := 4096, alignInPage := 2, dataType := aipuMmDataTypeNone } {}] =
          some (s, es) ∧
      s.live = [(0x106000, 0x1000), (0x100000, 0x2000)] := ⟨_, _, rfl, rfl⟩
  have hreach : (mmSystem .zhouyiV2 sampleMap).Reachable anyStep s :=
    ⟨es, System.run_of_exec ⟨bringUp_sample, rfl⟩ hexec⟩
  have horders := (block_list_canonical hreach hreach).2.2
    [{ pa := 0x106000, bytes := 0x1000 }, { pa := 0x100000, bytes := 0x2000 }]
    [{ pa := 0x100000, bytes := 0x2000 }, { pa := 0x106000, bytes := 0x1000 }]
    (List.Perm.swap _ _ _) (by decide) (by simp [hlive, BufDesc.range])
  obtain ⟨s₁, es₁, s₂, es₂, h₁, h₂, -, hview⟩ := horders
  exact ⟨s, hlive, s₁, es₁, s₂, es₂, h₁, h₂, hview⟩

end Aipu
