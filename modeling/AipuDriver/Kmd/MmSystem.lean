import AipuDriver.Lib.Transition
import AipuDriver.Kmd.Regions

/-!
# Runs of the memory manager

The memory manager is brought up from the memory-region nodes of a `MemoryMap` and then serves
calls of `aipu_mm_alloc` and `aipu_mm_free` in any order.  The state of the system `mmSystem`
keeps, next to the memory manager, the list `live` of the ranges handed out and not yet freed;
only such a range may be freed.  Every reachable state satisfies the invariant of all regions, and
the allocated blocks are exactly the live ranges.
-/

namespace Aipu

open Transition

/-! ## Bringing the memory manager up -/

/-- A memory-region node: its window, its type, and the address at which the kernel maps it. -/
structure RegionNode where
  base : ℕ
  bytes : ℕ
  type : AipuMemType
  va : ℕ
deriving DecidableEq

/-- The windows of two nodes share no address. -/
def RegionNode.DisjointFrom (m n : RegionNode) : Prop :=
  m.base + m.bytes ≤ n.base ∨ n.base + n.bytes ≤ m.base

/-- The memory-region nodes of a platform: each starts no lower than its size, the ends are `u64`
addresses, and no two share an address. -/
structure MemoryMap where
  nodes : List RegionNode
  bytes_le : ∀ n ∈ nodes, n.bytes ≤ n.base
  end_lt : ∀ n ∈ nodes, n.base + n.bytes < 2 ^ 64
  disjoint : nodes.Pairwise RegionNode.DisjointFrom

/-- Call `aipu_mm_add_region` for the nodes in turn, whatever each call returns. -/
def addRegions : List RegionNode → AipuMemoryManager → Option AipuMemoryManager
  | [], mm => some mm
  | n :: ns, mm =>
    match aipuMmAddRegion [] mm n.base n.bytes n.type n.va with
    | none => none
    | some (_, mm, _) => addRegions ns mm

/-- The memory manager after `aipu_init_mm` and the calls for all nodes. -/
def bringUp (version : AipuVersion) (map : MemoryMap) : Option AipuMemoryManager :=
  addRegions map.nodes (aipuInitMm version)

/-- A call of `aipu_mm_add_region` returns, and it either changes nothing or puts a region with
one free block among the regions. -/
theorem aipuMmAddRegion_spec (mm : AipuMemoryManager) (n : RegionNode) :
    ∃ ret mm', aipuMmAddRegion [] mm n.base n.bytes n.type n.va = some (ret, mm', []) ∧
      (mm' = mm ∨ ∃ r : AipuMemRegion, 0 < n.bytes ∧ mm'.regions.Perm (r :: mm.regions) ∧
        r.pa = n.base ∧ r.totBytes = n.bytes ∧ r.totFreeBytes = n.bytes ∧ r.flag = .compact ∧
        r.blkHead = [⟨n.base, n.bytes, 0, aipuMmDataTypeNone, .free⟩]) := by
  unfold aipuMmAddRegion
  split
  · exact ⟨_, _, rfl, .inl rfl⟩
  rename_i hbytes
  simp only [Oracle.next, Bool.true_eq_false, if_false, aipuInitRegion, createBlock, if_true]
  split
  · exact ⟨_, _, rfl, .inl rfl⟩
  split
  · exact ⟨_, _, rfl, .inr ⟨_, by omega, .refl _, rfl, rfl, rfl, rfl, rfl⟩⟩
  · exact ⟨_, _, rfl, .inr ⟨_, by omega, List.perm_middle, rfl, rfl, rfl, rfl, rfl⟩⟩

/-- A region with one free block satisfies the invariant and has nothing allocated. -/
theorem AipuMemRegion.inv_of_single {r : AipuMemRegion} {blk : AipuBlock}
    (hblk : r.blkHead = [blk]) (hfree : blk.state = .free) (hpa : blk.pa = r.pa)
    (hbytes : blk.bytes = r.totBytes) (hpos : 0 < r.totBytes)
    (htot : r.totFreeBytes = r.totBytes) : r.Inv ∧ r.allocated = [] := by
  have hocc : r.allocated = [] := by
    rw [AipuMemRegion.allocated, hblk,
      Tiling.occupied_cons_free (AipuBlock.isFree_eq_true.mpr hfree), Tiling.occupied_nil]
  refine ⟨.of_balance ?_ ?_ ?_, hocc⟩
  · rw [hblk]
    refine ⟨hpa, by omega, ?_⟩
    rw [hbytes, Tiling.tiles_nil]
  · rw [hblk]
    exact .singleton _
  · simp [hocc, htot]

/-- Adding nodes whose windows are disjoint from each other and from the regions already there
keeps the invariant and allocates nothing. -/
theorem addRegions_inv {nodes : List RegionNode} {mm : AipuMemoryManager} (hmm : mm.Inv)
    (hlive : mm.allocated = []) (hle : ∀ n ∈ nodes, n.bytes ≤ n.base)
    (hend : ∀ n ∈ nodes, n.base + n.bytes < 2 ^ 64)
    (hdisj : nodes.Pairwise RegionNode.DisjointFrom)
    (hnew : ∀ r ∈ mm.regions, ∀ n ∈ nodes,
      r.pa + r.totBytes ≤ n.base ∨ n.base + n.bytes ≤ r.pa) :
    ∃ mm', addRegions nodes mm = some mm' ∧ mm'.Inv ∧ mm'.allocated = [] := by
  induction nodes generalizing mm with
  | nil => exact ⟨mm, rfl, hmm, hlive⟩
  | cons n ns ih =>
    obtain ⟨hn, hns⟩ := List.pairwise_cons.mp hdisj
    obtain ⟨ret, mm', hadd, hmm'⟩ := aipuMmAddRegion_spec mm n
    simp only [addRegions, hadd]
    have hle' := fun m hm => hle m (List.mem_cons_of_mem n hm)
    have hend' := fun m hm => hend m (List.mem_cons_of_mem n hm)
    rcases hmm' with rfl | ⟨r, hpos, hperm, hpa, htot, hfree, hflag, hblk⟩
    · exact ih hmm hlive hle' hend' hns fun r hr m hm => hnew r hr m (List.mem_cons_of_mem n hm)
    have hnle := hle n (by simp)
    have hnend := hend n (by simp)
    obtain ⟨hinv, hocc⟩ := AipuMemRegion.inv_of_single hblk rfl hpa.symm htot.symm (by omega)
      (by omega)
    have hmem : ∀ s ∈ mm'.regions, s = r ∨ s ∈ mm.regions := fun s hs => by
      simpa using hperm.mem_iff.mp hs
    refine ih ⟨fun s hs => ?_, fun s hs => ?_, ?_⟩ ?_ hle' hend' hns fun s hs m hm => ?_
    · rcases hmem s hs with rfl | hs
      · exact hinv
      · exact hmm.region s hs
    · rcases hmem s hs with rfl | hs
      · exact ⟨hflag, by omega, by omega⟩
      · exact hmm.placed s hs
    · refine (hperm.pairwise_iff (fun h => Or.symm h)).mpr
        (List.pairwise_cons.mpr ⟨?_, hmm.disjoint⟩)
      intro s hs
      have := hnew s hs n (by simp)
      omega
    · have := (hperm.flatMap_right AipuMemRegion.allocated)
      rw [List.flatMap_cons, hocc] at this
      exact (this.trans (.of_eq hlive)).eq_nil
    · rcases hmem s hs with rfl | hs
      · have := hn m hm
        unfold RegionNode.DisjointFrom at this
        omega
      · exact hnew s hs m (List.mem_cons_of_mem n hm)

/-- Bringing the memory manager up from a memory map establishes the invariant. -/
theorem bringUp_inv (version : AipuVersion) (map : MemoryMap) :
    ∃ mm, bringUp version map = some mm ∧ mm.Inv ∧ mm.allocated = [] :=
  addRegions_inv ⟨by simp [AipuMemoryManager.regions, aipuInitMm],
    by simp [AipuMemoryManager.regions, aipuInitMm], List.Pairwise.nil⟩ rfl map.bytes_le map.end_lt
    map.disjoint (by simp [AipuMemoryManager.regions, aipuInitMm])

/-! ## The system -/

/-- The memory manager, and the ranges handed out and not yet freed. -/
structure MmState where
  mm : AipuMemoryManager
  live : List (ℕ × ℕ)

/-- A call of the memory manager. -/
inductive MmAction
  /-- `aipu_mm_alloc` by the thread `tid`, with the buffer record it is passed. -/
  | alloc (tid : ℤ) (req : BufRequest) (buf : AipuBuffer)
  /-- `aipu_mm_free` -/
  | free (desc : BufDesc)

/-- One call; the event is the code that it returns.  Requests have sizes below `2 ^ 32`, and only
live ranges are freed. -/
def mmStep (s : MmState) : MmAction → Option (MmState × List ℤ)
  | .alloc tid req buf =>
    if req.bytes < 2 ^ 32 then
      match aipuMmAlloc [] tid s.mm req buf with
      | none => none
      | some r =>
        some (⟨r.mem, if r.ret = 0 then (r.buf.pa, r.buf.bytes) :: s.live else s.live⟩, [r.ret])
    else none
  | .free desc =>
    if (desc.pa, desc.bytes) ∈ s.live then
      let (ret, mm) := aipuMmFree s.mm desc
      some (⟨mm, if ret = 0 then s.live.erase (desc.pa, desc.bytes) else s.live⟩, [ret])
    else none

/-- The runs of the memory manager of a platform. -/
def mmSystem (version : AipuVersion) (map : MemoryMap) : System MmState MmAction ℤ where
  init s := bringUp version map = some s.mm ∧ s.live = []
  step := mmStep

/-- The invariant of the runs: the regions satisfy theirs, the geometry is `geometry`, and exactly
the live ranges are allocated. -/
structure MmState.Inv (geometry : List (ℕ × ℕ × ℕ × ℕ × AipuAllocFlag × AipuMemType))
    (s : MmState) : Prop where
  mm : s.mm.Inv
  geometry : s.mm.geometry = geometry
  live : s.mm.allocated.Perm s.live

/-- Freeing a live range is enabled, returns zero, keeps the invariant and takes the range off the
live ones. -/
theorem mmStep_free {geometry} {s : MmState} {desc : BufDesc} (hs : s.Inv geometry)
    (hmem : (desc.pa, desc.bytes) ∈ s.live) :
    ∃ s', mmStep s (.free desc) = some (s', [0]) ∧ s'.Inv geometry ∧
      s.live.Perm ((desc.pa, desc.bytes) :: s'.live) := by
  obtain ⟨hmm, hgeom, hlive⟩ := hs
  obtain ⟨mm', hfree, hrel⟩ := aipuMmFree_spec hmm (hlive.mem_iff.mpr hmem)
  have herase := List.perm_cons_erase hmem
  refine ⟨⟨mm', s.live.erase (desc.pa, desc.bytes)⟩, ?_, ⟨hrel.inv, ?_, ?_⟩, herase⟩
  · rw [mmStep, if_pos hmem, hfree]
    rfl
  · exact hrel.geometry.trans hgeom
  · exact (hrel.allocated.symm.trans (hlive.trans herase)).cons_inv

/-- An allocation keeps the invariant; when it returns zero its range becomes live. -/
theorem mmStep_alloc {geometry} {s s' : MmState} {tid : ℤ} {req : BufRequest} {buf : AipuBuffer}
    {es : List ℤ} (hs : s.Inv geometry) (h : mmStep s (.alloc tid req buf) = some (s', es)) :
    s'.Inv geometry := by
  obtain ⟨hmm, hgeom, hlive⟩ := hs
  simp only [mmStep] at h
  split at h
  case isFalse => cases h
  case isTrue hbytes =>
    cases halloc : aipuMmAlloc [] tid s.mm req buf with
    | none => simp [halloc] at h
    | some r =>
      simp only [halloc, Option.some.injEq, Prod.mk.injEq] at h
      obtain ⟨rfl, -⟩ := h
      rcases aipuMmAlloc_spec hmm (BufRequest.noWrap_of_lt _ hbytes) halloc with
        ⟨hret, hmem⟩ | ⟨hret, hgrant⟩
      · rw [if_neg hret, hmem]
        exact ⟨hmm, hgeom, hlive⟩
      · rw [if_pos hret]
        exact ⟨hgrant.inv, hgrant.geometry.trans hgeom, hgrant.allocated.trans (hlive.cons _)⟩

/-- Every call keeps the invariant. -/
theorem mmStep_inv {geometry} {s s' : MmState} {a : MmAction} {es : List ℤ}
    (hs : s.Inv geometry) (h : mmStep s a = some (s', es)) : s'.Inv geometry := by
  cases a with
  | alloc tid req buf => exact mmStep_alloc hs h
  | free desc =>
    by_cases hmem : (desc.pa, desc.bytes) ∈ s.live
    · obtain ⟨s₁, hstep, hinv, -⟩ := mmStep_free hs hmem
      obtain ⟨rfl, -⟩ := Prod.mk.inj (Option.some.inj (hstep.symm.trans h))
      exact hinv
    · simp [mmStep, hmem] at h

/-- The invariant holds of every run. -/
theorem mmSystem_inv {version : AipuVersion} {map : MemoryMap} {s : MmState}
    (h : (mmSystem version map).Reachable anyStep s) :
    ∃ mm₀, bringUp version map = some mm₀ ∧ s.Inv mm₀.geometry := by
  obtain ⟨mm₀, hbring, hinv, hocc⟩ := bringUp_inv version map
  obtain ⟨tr, hrun⟩ := h
  refine ⟨mm₀, hbring, hrun.stateInvariant (I := MmState.Inv mm₀.geometry) ?_
    fun s a s' es hI _ hst => mmStep_inv hI hst⟩
  rintro s ⟨hs, hlive⟩
  obtain rfl : mm₀ = s.mm := Option.some.inj (hbring.symm.trans hs)
  exact ⟨hinv, rfl, by rw [hocc, hlive]⟩

/-- No call is blocked: an allocation of an allowed size returns in every state. -/
theorem mmStep_alloc_enabled (s : MmState) (tid : ℤ) {req : BufRequest} (buf : AipuBuffer)
    (hbytes : req.bytes < 2 ^ 32) : (mmStep s (.alloc tid req buf)).isSome := by
  obtain ⟨r, hr⟩ := aipuMmAlloc_total tid s.mm req buf
  rw [mmStep, if_pos hbytes, hr]
  rfl

/-- **Representation of the regions.**  In every reachable state of a platform whose nodes share no
address (`MemoryMap.disjoint`, vacuous for the one node of `aipu_probe`) the regions lie where they
were added, the blocks of each tile its window without free neighbours and its free counter is exact
(`AipuMemRegion.Inv`), and the allocated blocks are the ranges handed out and not yet freed: over
all regions with their multiplicities, and for each region those that lie in its window. -/
theorem region_representation (version : AipuVersion) (map : MemoryMap) {s : MmState}
    (h : (mmSystem version map).Reachable anyStep s) :
    (∃ mm₀, bringUp version map = some mm₀ ∧ s.mm.geometry = mm₀.geometry) ∧
      (∀ r ∈ s.mm.regions, r.Inv) ∧ s.mm.allocated.Perm s.live ∧ s.live.Nodup ∧
      ∀ r ∈ s.mm.regions, ∀ x, x ∈ r.allocated ↔
        x ∈ s.live ∧ r.pa ≤ x.1 ∧ x.1 + x.2 ≤ r.pa + r.totBytes := by
  obtain ⟨mm₀, hbring, hmm, hgeom, hlive⟩ := mmSystem_inv h
  refine ⟨⟨mm₀, hbring, hgeom⟩, hmm.region, hlive, hlive.nodup_iff.mp hmm.nodup, ?_⟩
  intro r hr x
  constructor
  · intro hx
    have hall : x ∈ s.mm.allocated := List.mem_flatMap.mpr ⟨r, hr, hx⟩
    exact ⟨hlive.mem_iff.mp hall, ((hmm.region r hr).bounds hx).2⟩
  · rintro ⟨hx, hwin⟩
    exact hmm.mem_of_window (hlive.mem_iff.mpr hx) hr hwin

/-! ## A sample platform -/

/-- A platform with one reserved region of eight pages. -/
def sampleMap : MemoryMap where
  nodes := [⟨0x100000, 0x8000, .reserved, 0x40000000⟩]
  bytes_le := by decide
  end_lt := by decide
  disjoint := by simp

/-- The memory manager of the sample platform after it was brought up. -/
def sampleMm : AipuMemoryManager :=
  { aipuInitMm .zhouyiV2 with
    ddrHead := [{ id := 0, blkHead := [⟨0x100000, 0x8000, 0, aipuMmDataTypeNone, .free⟩],
                  pa := 0x100000, va := 0x40000000, totBytes := 0x8000, totFreeBytes := 0x8000,
                  flag := .compact, type := .reserved }]
    ddrCnt := 1 }

theorem bringUp_sample : bringUp .zhouyiV2 sampleMap = some sampleMm := rfl

/-- A text buffer, a work buffer and a release of the text buffer on the sample platform. -/
theorem region_representation_sample :
    ∃ s : MmState, s.live = [(0x106000, 0x1000)] ∧
      (mmSystem .zhouyiV2 sampleMap).Reachable anyStep s ∧ s.mm.allocated.Perm s.live := by
  obtain ⟨s, es, hexec, hlive⟩ : ∃ s es, (mmSystem .zhouyiV2 sampleMap).exec anyStep ⟨sampleMm, []⟩
      [.alloc 7 { bytes := 5000, alignInPage := 1, dataType := aipuMmDataTypeText } {},
        .alloc 7 { bytes := 4096, alignInPage := 2, dataType := aipuMmDataTypeNone } {},
        .free { pa := 0x100000, bytes := 0x2000 }] = some (s, es) ∧
      s.live = [(0x106000, 0x1000)] := ⟨_, _, rfl, rfl⟩
  have hreach : (mmSystem .zhouyiV2 sampleMap).Reachable anyStep s :=
    ⟨es, System.run_of_exec ⟨bringUp_sample, rfl⟩ hexec⟩
  exact ⟨s, hlive, hreach, (region_representation .zhouyiV2 sampleMap hreach).2.2.1⟩

end Aipu
