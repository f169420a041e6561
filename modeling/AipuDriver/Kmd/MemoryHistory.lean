import AipuDriver.Lib.Simulation
import AipuDriver.Kmd.SessionRelease

/-!
# The memory does not remember

Blocks keep the thread and the data type of a request, also after they were cut and merged, so two
memory managers with the same allocated ranges need not be equal.  But `aipu_mm_alloc` and
`aipu_mm_free` never look at these two fields: they respect `AipuMemoryManager.bare`, which forgets
them.  Since the block list is a canonical form, the bare memory manager of a reachable state is a
function of the ranges that are owned (`owned_determines_memory`), whatever calls were made before,
in which order and by whom.
-/

namespace Aipu

open ListSearch Transition Tiling Word

/-! ## Forgetting the owners -/

/-- A block without the thread and the data type of the request. -/
def AipuBlock.bare (blk : AipuBlock) : AipuBlock :=
  { blk with tid := 0, type := aipuMmDataTypeNone }

/-- A region with bare blocks. -/
def AipuMemRegion.bare (r : AipuMemRegion) : AipuMemRegion :=
  { r with blkHead := r.blkHead.map AipuBlock.bare }

/-- A memory manager with bare blocks. -/
def AipuMemoryManager.bare (mm : AipuMemoryManager) : AipuMemoryManager :=
  { mm with
    sramHead := mm.sramHead.map AipuMemRegion.bare
    ddrHead := mm.ddrHead.map AipuMemRegion.bare }

/-- The result of a call with another memory. -/
def AllocResult.mapMem {μ ν : Type} (f : μ → ν) (res : AllocResult μ) : AllocResult ν :=
  ⟨res.ret, f res.mem, res.req, res.buf, res.kz⟩

@[simp] theorem AipuBlock.bare_mk (pa bytes : ℕ) (tid : ℤ) (type : ℕ) (state : AipuBlkState) :
    (AipuBlock.mk pa bytes tid type state).bare = ⟨pa, bytes, 0, aipuMmDataTypeNone, state⟩ := rfl

@[simp] theorem AipuBlock.bare_bytes (blk : AipuBlock) : blk.bare.bytes = blk.bytes := rfl

@[simp] theorem AipuBlock.bare_state (blk : AipuBlock) : blk.bare.state = blk.state := rfl

@[simp] theorem AipuBlock.bare_comp_bare : AipuBlock.bare ∘ AipuBlock.bare = AipuBlock.bare := rfl

@[simp] theorem AipuMemRegion.bare_bare (r : AipuMemRegion) : r.bare.bare = r.bare := by
  simp [bare]

@[simp] theorem AipuMemRegion.bare_comp_bare :
    AipuMemRegion.bare ∘ AipuMemRegion.bare = AipuMemRegion.bare :=
  funext AipuMemRegion.bare_bare

@[simp] theorem AipuMemoryManager.bare_bare (mm : AipuMemoryManager) : mm.bare.bare = mm.bare := by
  simp [bare]

/-! ## Allocation does not look at the owners -/

section Allocation

variable (kz : Oracle) (tid : ℤ) (req : BufRequest) (buf : AipuBuffer)

/-- The search finds the same position and the same start among bare blocks. -/
theorem aipuMmFindBlockCandidateNoLock_bare (head : List AipuBlock)
    (bytes alignment dataType : ℕ) :
    aipuMmFindBlockCandidateNoLock (head.map AipuBlock.bare) bytes alignment dataType =
      (aipuMmFindBlockCandidateNoLock head bytes alignment dataType).map fun r =>
        (r.1.map AipuBlock.bare, r.2) := by
  have hforward : (fun blk : AipuBlock => forwardStart bytes alignment blk.bare) =
      forwardStart bytes alignment := rfl
  have hreverse : (fun blk : AipuBlock => reverseStart bytes alignment blk.bare) =
      reverseStart bytes alignment := rfl
  unfold aipuMmFindBlockCandidateNoLock
  simp only [findFirst_map, findLast_map, hforward, hreverse]
  split_ifs
  · rfl
  · cases findFirst (forwardStart bytes alignment) head <;> rfl
  · cases findLast (reverseStart bytes alignment) head <;> rfl

/-- A bare block is split like the block. -/
theorem aipuMmSplitBlockNoLock_bare (target : Cursor AipuBlock) (allocBase allocBytes type : ℕ) :
    (aipuMmSplitBlockNoLock kz tid (target.map AipuBlock.bare) allocBase allocBytes type).map
        (fun r => (r.1, r.2.1.map AipuBlock.bare, r.2.2)) =
      (aipuMmSplitBlockNoLock kz tid target allocBase allocBytes type).map
        fun r => (r.1, r.2.1.map AipuBlock.bare, r.2.2) := by
  obtain ⟨before, ⟨pa, bytes, oldTid, oldType, state⟩, after⟩ := target
  have hbare : Cursor.map AipuBlock.bare ⟨before, ⟨pa, bytes, oldTid, oldType, state⟩, after⟩ =
      ⟨before.map AipuBlock.bare, ⟨pa, bytes, 0, aipuMmDataTypeNone, state⟩,
        after.map AipuBlock.bare⟩ := rfl
  rw [hbare]
  unfold aipuMmSplitBlockNoLock
  dsimp only
  generalize wrapSub 64 (wrap 64 (allocBase + allocBytes)) 1 = allocEnd
  generalize wrapSub 64 (wrap 64 (pa + bytes)) 1 = targetEnd
  by_cases hrefused : allocBytes = 0 ∨ allocEnd < pa ∨ allocEnd > targetEnd
  · simp only [if_pos hrefused]
    simp [Cursor.toList]
  by_cases hwhole : allocBase = pa ∧ allocEnd = targetEnd
  · simp only [if_neg hrefused, if_pos hwhole]
    simp
  simp only [if_neg hrefused, if_neg hwhole]
  cases createBlock kz allocBase allocBytes tid type .allocated with
  | mk allocBlk kz =>
  cases allocBlk with
  | none => simp [Cursor.toList]
  | some allocBlk =>
    dsimp only
    by_cases hfront : allocBase = pa ∧ allocEnd < targetEnd
    · simp only [if_pos hfront]
      simp
    by_cases hback : allocBase > pa ∧ allocEnd = targetEnd
    · simp only [if_neg hfront, if_pos hback]
      simp
    simp only [if_neg hfront, if_neg hback]
    cases createBlock kz _ _ tid type .free with
    | mk back kz =>
    cases back with
    | none => rfl
    | some back => simp

/-- A request is served in a bare region as in the region. -/
theorem aipuMmAllocInRegionNoLock_bare (region : AipuMemRegion) :
    (aipuMmAllocInRegionNoLock kz tid region.bare req buf).map
        (AllocResult.mapMem AipuMemRegion.bare) =
      (aipuMmAllocInRegionNoLock kz tid region req buf).map
        (AllocResult.mapMem AipuMemRegion.bare) := by
  have hsize : getAllocSize region.bare req.bytes = getAllocSize region req.bytes := rfl
  have hhead : region.bare.blkHead = region.blkHead.map AipuBlock.bare := rfl
  unfold aipuMmAllocInRegionNoLock
  dsimp only
  rw [hsize, hhead, aipuMmFindBlockCandidateNoLock_bare]
  cases aipuMmFindBlockCandidateNoLock region.blkHead (getAllocSize region req.bytes) _
    req.dataType with
  | error ret => simp [Except.map, AllocResult.mapMem]
  | ok found =>
    obtain ⟨blkCand, allocPa⟩ := found
    dsimp only [Except.map]
    rcases image_eq_cases (aipuMmSplitBlockNoLock_bare kz tid blkCand allocPa
      (getAllocSize region req.bytes) req.dataType) with
      ⟨hbare, hsplit⟩ | ⟨⟨ret, l, kz'⟩, ⟨ret', l', kz''⟩, hbare, hsplit, heq⟩
    · rw [hbare, hsplit]
    · obtain ⟨rfl, hl, rfl⟩ : ret = ret' ∧ l.map AipuBlock.bare = l'.map AipuBlock.bare ∧
        kz' = kz'' := by simpa using heq
      rw [hbare, hsplit]
      dsimp only
      split_ifs
      · simp [AllocResult.mapMem, AipuMemRegion.bare, hl]
      · simp [AllocResult.mapMem, AipuMemRegion.bare, hl]

/-- A try in a bare region is a try in the region. -/
theorem aipuMmTryAllocInRegion_bare (region : AipuMemRegion) :
    (aipuMmTryAllocInRegion kz tid region.bare req buf).map
        (AllocResult.mapMem AipuMemRegion.bare) =
      (aipuMmTryAllocInRegion kz tid region req buf).map
        (AllocResult.mapMem AipuMemRegion.bare) := by
  unfold aipuMmTryAllocInRegion
  rw [AipuMemRegion.allocInRegion_eq, AipuMemRegion.allocInRegion_eq]
  rcases image_eq_cases (aipuMmAllocInRegionNoLock_bare kz tid req buf region) with
    ⟨hbare, halloc⟩ | ⟨res, res', hbare, halloc, heq⟩
  · rw [hbare, halloc]
  · obtain ⟨ret, ⟨id, blkHead, pa, va, totBytes, totFreeBytes, flag, type⟩, req', buf', kz'⟩ := res
    obtain ⟨ret', ⟨id', blkHead', pa', va', totBytes', totFreeBytes', flag', type'⟩, req'', buf'',
      kz''⟩ := res'
    simp only [AllocResult.mapMem, AipuMemRegion.bare, AllocResult.mk.injEq,
      AipuMemRegion.mk.injEq] at heq
    obtain ⟨rfl, ⟨rfl, hblk, rfl, rfl, rfl, rfl, rfl, rfl⟩, rfl, rfl, rfl⟩ := heq
    rw [hbare, halloc]
    dsimp only
    split_ifs
    · simp only [Option.map_some, AllocResult.mapMem, AipuMemRegion.bare, hblk]
    · simp only [Option.map_some, AllocResult.mapMem, AipuMemRegion.bare, hblk]

/-- Two results of a scan that agree but for the owners are extended in the same way by a region
that was passed over. -/
theorem map_cons_bare {x y : Option (AllocResult (List AipuMemRegion))} {s s' : AipuMemRegion}
    (h : x.map (AllocResult.mapMem (List.map AipuMemRegion.bare)) =
      y.map (AllocResult.mapMem (List.map AipuMemRegion.bare))) (hs : s.bare = s'.bare) :
    (x.map fun res => { res with mem := s :: res.mem }).map
        (AllocResult.mapMem (List.map AipuMemRegion.bare)) =
      (y.map fun res => { res with mem := s' :: res.mem }).map
        (AllocResult.mapMem (List.map AipuMemRegion.bare)) := by
  rcases image_eq_cases h with
    ⟨rfl, rfl⟩ | ⟨⟨ret, l, req, buf, kz⟩, ⟨ret', l', req', buf', kz'⟩, rfl, rfl, heq⟩
  · rfl
  · simp only [AllocResult.mapMem, AllocResult.mk.injEq] at heq
    obtain ⟨rfl, hl, rfl, rfl, rfl⟩ := heq
    simp [AllocResult.mapMem, hs, hl]

/-- A scan, with the results for the rest of the regions extended. -/
theorem scanRegions_cons (sel : AipuMemRegion → Bool) (r : AipuMemRegion)
    (rest : List AipuMemRegion) (ret : ℤ) :
    scanRegions sel tid (r :: rest) ret kz req buf =
      if sel r then
        (aipuMmTryAllocInRegion kz tid r req buf).bind fun res =>
          if res.ret = 0 then some ⟨0, res.mem :: rest, res.req, res.buf, res.kz⟩
          else (scanRegions sel tid rest res.ret res.kz res.req res.buf).map fun res' =>
            { res' with mem := res.mem :: res'.mem }
      else (scanRegions sel tid rest ret kz req buf).map fun res' =>
        { res' with mem := r :: res'.mem } := by
  rw [scanRegions]
  split_ifs
  · cases aipuMmTryAllocInRegion kz tid r req buf with
    | none => rfl
    | some res =>
      dsimp only [Option.bind_some]
      split_ifs
      · rfl
      · cases scanRegions sel tid rest res.ret res.kz res.req res.buf <;> rfl
  · cases scanRegions sel tid rest ret kz req buf <;> rfl

/-- The scan of bare regions is the scan of the regions, when it selects the same ones. -/
theorem scanRegions_bare {sel : AipuMemRegion → Bool} (hsel : ∀ r, sel r.bare = sel r)
    (head : List AipuMemRegion) (ret : ℤ) :
    (scanRegions sel tid (head.map AipuMemRegion.bare) ret kz req buf).map
        (AllocResult.mapMem (List.map AipuMemRegion.bare)) =
      (scanRegions sel tid head ret kz req buf).map
        (AllocResult.mapMem (List.map AipuMemRegion.bare)) := by
  induction head generalizing kz req buf ret with
  | nil => rfl
  | cons r rest ih =>
    rw [List.map_cons, scanRegions_cons, scanRegions_cons, hsel]
    split_ifs
    · rcases image_eq_cases (aipuMmTryAllocInRegion_bare kz tid req buf r) with
        ⟨hbare, htry⟩ | ⟨⟨ret₁, s, req₁, buf₁, kz₁⟩, ⟨ret₂, s', req₂, buf₂, kz₂⟩, hbare, htry, heq⟩
      · simp [hbare, htry]
      · simp only [AllocResult.mapMem, AllocResult.mk.injEq] at heq
        obtain ⟨rfl, hs, rfl, rfl, rfl⟩ := heq
        rw [hbare, htry]
        simp only [Option.bind_some]
        split_ifs
        · simp [AllocResult.mapMem, hs]
        · exact map_cons_bare (ih kz₁ req₁ buf₁ ret₁) hs
    · exact map_cons_bare (ih kz req buf ret) (AipuMemRegion.bare_bare r)

/-- The scan of the DDR regions does not look at the owners. -/
theorem allocFromDdr_bare (mm : AipuMemoryManager) :
    (allocFromDdr kz tid mm.bare req buf).map (AllocResult.mapMem AipuMemoryManager.bare) =
      (allocFromDdr kz tid mm req buf).map (AllocResult.mapMem AipuMemoryManager.bare) := by
  have hsel : ∀ r : AipuMemRegion, req.selects mm.version r.bare = req.selects mm.version r :=
    fun _ => rfl
  have hversion : mm.bare.version = mm.version := rfl
  have hhead : mm.bare.ddrHead = mm.ddrHead.map AipuMemRegion.bare := rfl
  unfold allocFromDdr
  rw [aipuMmScanRegionsAlloc_eq, aipuMmScanRegionsAlloc_eq, hversion, hhead]
  rcases image_eq_cases (scanRegions_bare kz tid req buf hsel mm.ddrHead (-enomem)) with
    ⟨hbare, hscan⟩ | ⟨⟨ret₁, l, req₁, buf₁, kz₁⟩, ⟨ret₂, l', req₂, buf₂, kz₂⟩, hbare, hscan, heq⟩
  · rw [hbare, hscan]
  · simp only [AllocResult.mapMem, AllocResult.mk.injEq] at heq
    obtain ⟨rfl, hl, rfl, rfl, rfl⟩ := heq
    rw [hbare, hscan]
    simp [AllocResult.mapMem, AipuMemoryManager.bare, hl]

/-- Where SRAM is not configured, an allocation with valid arguments is the scan of the DDR
regions. -/
theorem aipuMmAlloc_eq (mm : AipuMemoryManager) :
    aipuMmAlloc kz tid mm req buf =
      if req.bytes = 0 ∨ req.alignInPage = 0 then some ⟨-einval, mm, req, buf, kz⟩
      else if mm.sramCnt = 0 ∧ mm.ddrCnt = 0 then some ⟨-enomem, mm, req, {}, kz⟩
      else allocFromDdr kz tid mm req {} := by
  have hsram : ¬(aipuConfigEnableSram = true ∧ mm.sramGlobal &&& getAsid req.dataType ≠ 0) := by
    simp [aipuConfigEnableSram]
  unfold aipuMmAlloc
  dsimp only
  rw [if_neg hsram]

/-- `aipu_mm_alloc` serves a request from a bare memory manager as from the memory manager. -/
theorem aipuMmAlloc_bare (mm : AipuMemoryManager) :
    (aipuMmAlloc kz tid mm.bare req buf).map (AllocResult.mapMem AipuMemoryManager.bare) =
      (aipuMmAlloc kz tid mm req buf).map (AllocResult.mapMem AipuMemoryManager.bare) := by
  have hcnt : mm.bare.sramCnt = mm.sramCnt ∧ mm.bare.ddrCnt = mm.ddrCnt := ⟨rfl, rfl⟩
  rw [aipuMmAlloc_eq, aipuMmAlloc_eq, hcnt.1, hcnt.2]
  split_ifs
  · simp [AllocResult.mapMem]
  · simp [AllocResult.mapMem]
  · exact allocFromDdr_bare kz tid req {} mm

end Allocation

/-! ## Release does not look at the owners -/

/-- Merging with the block before commutes with forgetting the owners. -/
theorem mergePrev_bare (before : List AipuBlock) (target : AipuBlock) :
    mergePrev (before.map AipuBlock.bare) target.bare =
      Prod.map (List.map AipuBlock.bare) AipuBlock.bare (mergePrev before target) := by
  unfold mergePrev
  rw [List.getLast?_map]
  cases before.getLast? with
  | none => rfl
  | some prev =>
    simp only [Option.map_some, AipuBlock.bare_bytes, AipuBlock.bare_state, ← List.map_dropLast]
    split_ifs <;> rfl

/-- Merging with the block after commutes with forgetting the owners. -/
theorem mergeNext_bare (target : AipuBlock) (after : List AipuBlock) :
    mergeNext target.bare (after.map AipuBlock.bare) =
      Prod.map AipuBlock.bare (List.map AipuBlock.bare) (mergeNext target after) := by
  cases after with
  | nil => rfl
  | cons next rest =>
    rw [List.map_cons, mergeNext, mergeNext]
    by_cases hmerge : next.bytes ≠ 0 ∧ next.state ≠ .allocated
    · have hbare : next.bare.bytes ≠ 0 ∧ next.bare.state ≠ .allocated := hmerge
      rw [if_pos hmerge, if_pos hbare]
      rfl
    · have hbare : ¬(next.bare.bytes ≠ 0 ∧ next.bare.state ≠ .allocated) := hmerge
      rw [if_neg hmerge, if_neg hbare]
      rfl

/-- A release in a bare region is the release in the region. -/
theorem aipuMmFreeInRegion_bare (region : AipuMemRegion) (buf : BufDesc) :
    aipuMmFreeInRegion region.bare buf =
      Prod.map id AipuMemRegion.bare (aipuMmFreeInRegion region buf) := by
  have htest : (fun blk : AipuBlock => decide (blk.bare.pa = buf.pa ∧ blk.bare.bytes = buf.bytes)) =
      fun blk => decide (blk.pa = buf.pa ∧ blk.bytes = buf.bytes) := rfl
  have hhead : region.bare.blkHead = region.blkHead.map AipuBlock.bare := rfl
  unfold aipuMmFreeInRegion
  rw [hhead, seek_map, htest]
  cases seek (fun blk => decide (blk.pa = buf.pa ∧ blk.bytes = buf.bytes)) region.blkHead with
  | none => rfl
  | some c =>
    obtain ⟨before, entry, after⟩ := c
    obtain ⟨target, htarget⟩ : ∃ target : AipuBlock,
        { entry with tid := 0, type := aipuMmDataTypeNone, state := .free } = target := ⟨_, rfl⟩
    have hbare : { entry.bare with tid := 0, type := aipuMmDataTypeNone, state := .free } =
        target.bare := by rw [← htarget]; rfl
    simp only [Option.map_some, Cursor.map, hbare, htarget, mergePrev_bare, Prod.map]
    cases mergePrev before target with
    | mk before target =>
    simp only [mergeNext_bare, Prod.map]
    cases mergeNext target after with
    | mk target after =>
    simp [AipuMemRegion.bare]

/-- A release in the list of bare regions is the release in the list. -/
theorem freeAt_bare (c : Cursor AipuMemRegion) (buf : BufDesc) :
    freeAt (c.map AipuMemRegion.bare) buf =
      Prod.map id (List.map AipuMemRegion.bare) (freeAt c buf) := by
  simp [freeAt, Cursor.map, aipuMmFreeInRegion_bare]

/-- The region of a range is found among the bare regions at the same position. -/
theorem aipuMmFindRegion_bare (head : List AipuMemRegion) (pa bytes : ℕ) :
    aipuMmFindRegion (head.map AipuMemRegion.bare) pa bytes =
      (aipuMmFindRegion head pa bytes).map (Cursor.map AipuMemRegion.bare) := by
  unfold aipuMmFindRegion
  split_ifs
  · rfl
  · rw [seek_map]
    rfl

/-- `aipu_mm_free` of a bare memory manager is that of the memory manager. -/
theorem aipuMmFree_bare (mm : AipuMemoryManager) (buf : BufDesc) :
    aipuMmFree mm.bare buf = Prod.map id AipuMemoryManager.bare (aipuMmFree mm buf) := by
  have hsram : mm.bare.sramHead = mm.sramHead.map AipuMemRegion.bare := rfl
  have hddr : mm.bare.ddrHead = mm.ddrHead.map AipuMemRegion.bare := rfl
  unfold aipuMmFree
  rw [hsram, hddr, aipuMmFindRegion_bare, aipuMmFindRegion_bare]
  cases aipuMmFindRegion mm.sramHead buf.pa buf.bytes with
  | some c =>
    simp only [Option.map_some, freeAt_bare]
    rfl
  | none =>
    cases aipuMmFindRegion mm.ddrHead buf.pa buf.bytes with
    | some c =>
      simp only [Option.map_some, Option.map_none, freeAt_bare]
      rfl
    | none => rfl

/-! ## Calls of the memory manager -/

/-- A call of the memory manager, with the answers of `kzalloc` in it. -/
inductive MmRequest
  | alloc (kz : Oracle) (tid : ℤ) (req : BufRequest) (buf : AipuBuffer)
  | free (desc : BufDesc)
deriving DecidableEq

/-- What a call returns: its code and, for an allocation, the request and the buffer as written by
it, with the answers of `kzalloc` that it did not use. -/
inductive MmReply
  | alloc (ret : ℤ) (req : BufRequest) (buf : AipuBuffer) (kz : Oracle)
  | free (ret : ℤ)
deriving DecidableEq

/-- A call; there is no step where the source dereferences a null pointer. -/
def mmRequest (mm : AipuMemoryManager) : MmRequest → Option (AipuMemoryManager × List MmReply)
  | .alloc kz tid req buf =>
    (aipuMmAlloc kz tid mm req buf).map fun res =>
      (res.mem, [.alloc res.ret res.req res.buf res.kz])
  | .free desc =>
    let (ret, mm) := aipuMmFree mm desc
    some (mm, [.free ret])

/-- Calls of a memory manager, one after the other. -/
def mmCalls : System AipuMemoryManager MmRequest MmReply where
  init _ := True
  step := mmRequest

/-- No call looks at the owners of the blocks. -/
theorem mmCalls_respects : mmCalls.Respects AipuMemoryManager.bare := by
  -- a call of the memory manager is the call of the bare one
  have hbare : ∀ (mm : AipuMemoryManager) (a : MmRequest),
      (mmRequest mm.bare a).map (Prod.map AipuMemoryManager.bare id) =
        (mmRequest mm a).map (Prod.map AipuMemoryManager.bare id) := by
    intro mm a
    cases a with
    | alloc kz tid req buf =>
      unfold mmRequest
      dsimp only
      rcases image_eq_cases (aipuMmAlloc_bare kz tid req buf mm) with
        ⟨h, h'⟩ | ⟨⟨ret, m, req₁, buf₁, kz₁⟩, ⟨ret', m', req₂, buf₂, kz₂⟩, h, h', heq⟩
      · rw [h, h']
      · simp only [AllocResult.mapMem, AllocResult.mk.injEq] at heq
        obtain ⟨rfl, hm, rfl, rfl, rfl⟩ := heq
        simp [h, h', hm]
    | free desc =>
      unfold mmRequest
      dsimp only
      rw [aipuMmFree_bare]
      simp
  intro mm mm' a h
  exact (hbare mm a).symm.trans (h ▸ hbare mm' a)

/-! ## The bare memory manager is a function of the owned ranges -/

/-- A block without owners is determined by its triple. -/
def blockOfTriple (t : ℕ × ℕ × Bool) : AipuBlock :=
  ⟨t.1, t.2.1, 0, aipuMmDataTypeNone, if t.2.2 then .free else .allocated⟩

/-- The bare blocks of a region are determined by its triples. -/
theorem AipuMemRegion.bare_blkHead (r : AipuMemRegion) :
    r.bare.blkHead = r.triples.map blockOfTriple := by
  have hblk : ∀ blk : AipuBlock,
      blk.bare = blockOfTriple (view AipuBlock.pa AipuBlock.bytes AipuBlock.isFree blk) := by
    intro blk
    obtain ⟨pa, bytes, tid, type, state⟩ := blk
    cases state <;> rfl
  rw [triples, List.map_map]
  exact List.map_congr_left fun blk _ => hblk blk

/-- Forgetting the owners does not change what a region shows. -/
theorem AipuMemRegion.bare_triples (r : AipuMemRegion) : r.bare.triples = r.triples := by
  rw [triples, triples, bare, List.map_map]
  rfl

/-- Nor what the memory manager shows. -/
theorem AipuMemoryManager.bare_view (mm : AipuMemoryManager) : mm.bare.view = mm.view := by
  have hregion : ∀ r : AipuMemRegion, (r.bare.geometry, r.bare.triples, r.bare.totFreeBytes) =
      (r.geometry, r.triples, r.totFreeBytes) := by
    intro r
    rw [r.bare_triples]
    rfl
  have hregions : mm.bare.regions = mm.regions.map AipuMemRegion.bare := by
    simp [regions, bare]
  rw [view, view, hregions, List.map_map]
  exact List.map_congr_left fun r _ => hregion r

/-- What a region shows determines the bare region. -/
theorem AipuMemRegion.bare_eq {r r' : AipuMemRegion}
    (h : (r.geometry, r.triples, r.totFreeBytes) = (r'.geometry, r'.triples, r'.totFreeBytes)) :
    r.bare = r'.bare := by
  simp only [geometry, Prod.mk.injEq] at h
  obtain ⟨⟨hid, hpa, hva, htot, hflag, htype⟩, htriples, hfree⟩ := h
  have hblk : r.bare.blkHead = r'.bare.blkHead := by
    rw [r.bare_blkHead, r'.bare_blkHead, htriples]
  have hblk' : r.blkHead.map AipuBlock.bare = r'.blkHead.map AipuBlock.bare := hblk
  simp only [bare, hid, hpa, hva, htot, hflag, htype, hfree, hblk']

/-- Regions that show the same are the same when bare. -/
theorem map_bare_eq {l l' : List AipuMemRegion}
    (h : l.map (fun r => (r.geometry, r.triples, r.totFreeBytes)) =
      l'.map fun r => (r.geometry, r.triples, r.totFreeBytes)) :
    l.map AipuMemRegion.bare = l'.map AipuMemRegion.bare := by
  induction l generalizing l' with
  | nil =>
    obtain rfl : l' = [] := by simpa using h.symm
    rfl
  | cons r rest ih =>
    obtain _ | ⟨r', rest'⟩ := l'
    · simp at h
    · obtain ⟨hr, hrest⟩ := List.cons.inj h
      rw [List.map_cons, List.map_cons, AipuMemRegion.bare_eq hr, ih hrest]

/-- What the calls never change: the counts, the configuration and the windows of the regions, in
both lists. -/
structure SameLayout (mm mm' : AipuMemoryManager) : Prop where
  same : SameManager mm mm'
  sramLength : mm'.sramHead.length = mm.sramHead.length
  geometry : mm'.geometry = mm.geometry

theorem SameLayout.refl (mm : AipuMemoryManager) : SameLayout mm mm :=
  ⟨⟨rfl, rfl, rfl, rfl⟩, rfl, rfl⟩

theorem SameLayout.trans {mm mm' mm'' : AipuMemoryManager} (h : SameLayout mm mm')
    (h' : SameLayout mm' mm'') : SameLayout mm mm'' where
  same := ⟨h'.same.sramCnt.trans h.same.sramCnt, h'.same.ddrCnt.trans h.same.ddrCnt,
    h'.same.sramGlobal.trans h.same.sramGlobal, h'.same.version.trans h.same.version⟩
  sramLength := h'.sramLength.trans h.sramLength
  geometry := h'.geometry.trans h.geometry

theorem SameLayout.symm {mm mm' : AipuMemoryManager} (h : SameLayout mm mm') :
    SameLayout mm' mm where
  same := ⟨h.same.sramCnt.symm, h.same.ddrCnt.symm, h.same.sramGlobal.symm, h.same.version.symm⟩
  sramLength := h.sramLength.symm
  geometry := h.geometry.symm

/-- Two memory managers with the same layout and the same allocated ranges are the same when
bare. -/
theorem AipuMemoryManager.Inv.bare_eq {mm mm' : AipuMemoryManager} (h : mm.Inv) (h' : mm'.Inv)
    (hlayout : SameLayout mm mm') (hmem : ∀ x, x ∈ mm.allocated ↔ x ∈ mm'.allocated) :
    mm.bare = mm'.bare := by
  have hview : mm.view = mm'.view := h.view_eq h' hlayout.geometry hmem
  unfold AipuMemoryManager.view AipuMemoryManager.regions at hview
  rw [List.map_append, List.map_append] at hview
  obtain ⟨hsram, hddr⟩ := List.append_inj hview (by simp [hlayout.sramLength])
  obtain ⟨hsramCnt, hddrCnt, hglobal, hversion⟩ := hlayout.same
  simp only [AipuMemoryManager.bare, map_bare_eq hsram, map_bare_eq hddr, hsramCnt, hddrCnt,
    hglobal, hversion]

/-! ## The layout in the driver -/

section Layout

variable {version : AipuVersion} {map : MemoryMap} {maxSchedNum maxSchedNum' : ℤ}
  {k k' : Kmd} {es tr tr' : List KmdEvent} {lost : List (ℕ × ℕ)}

/-- An allocation keeps the layout. -/
theorem aipuMmAlloc_layout {mm : AipuMemoryManager} {kz : Oracle} {tid : ℤ} {req : BufRequest}
    {buf : AipuBuffer} {res : AllocResult AipuMemoryManager} (hmm : mm.Inv)
    (hreq : req.NoWrap mm.version) (h : aipuMmAlloc kz tid mm req buf = some res) :
    SameLayout mm res.mem := by
  rcases aipuMmAlloc_spec hmm hreq h with ⟨-, hmem⟩ | ⟨hret, hgrant⟩
  · rw [hmem]
    exact .refl mm
  · obtain ⟨hne, -⟩ | ⟨-, hmem, -⟩ := aipuMmAlloc_cases h
    · exact absurd hret hne
    · have hgeom := hgrant.geometry
      rw [hmem] at hgeom ⊢
      exact ⟨⟨rfl, rfl, rfl, rfl⟩, rfl, hgeom⟩

/-- A release keeps the number of SRAM regions. -/
theorem aipuMmFree_sramLength (mm : AipuMemoryManager) (buf : BufDesc) :
    (aipuMmFree mm buf).2.sramHead.length = mm.sramHead.length := by
  unfold aipuMmFree
  split
  next c hfind =>
    have hl : mm.sramHead = c.toList := by
      unfold aipuMmFindRegion at hfind
      split_ifs at hfind
      exact (seek_eq_some hfind).1
    simp [freeAt, hl, Cursor.toList]
  · split <;> rfl

/-- The release of an allocated range keeps the layout. -/
theorem aipuMmFree_layout {mm : AipuMemoryManager} {buf : BufDesc} (hmm : mm.Inv)
    (hbuf : buf.range ∈ mm.allocated) : SameLayout mm (aipuMmFree mm buf).2 := by
  obtain ⟨mm', hfree, hrel⟩ := aipuMmFree_spec hmm hbuf
  have hlength := aipuMmFree_sramLength mm buf
  rw [hfree] at hlength ⊢
  exact ⟨(aipuMmFree_freed hmm hbuf hfree).1, hlength, hrel.geometry⟩

/-- Every step of the driver keeps the layout. -/
theorem kmdStep_layout {a : KmdAction} (hI : k.OwnInv lost) (hreq : k.requestOk a = true)
    (h : kmdStep k a = some (k', es)) : SameLayout k.mm k'.mm := by
  suffices hsame : k'.mm = k.mm ∨ SameLayout k.mm k'.mm by
    rcases hsame with heq | hlayout
    · rw [heq]
      exact .refl k.mm
    · exact hlayout
  have hrun : ∀ ja, k.runJm ja = some (k', es) → k'.mm = k.mm := by
    intro ja h
    obtain ⟨js, jes, -, rfl, -⟩ := Kmd.runJm_cases h
    rfl
  cases a with
  | openFile pid kz => rcases aipuOpen_cases h with ⟨rfl, -⟩ | ⟨rfl, -⟩ <;> exact .inl rfl
  | reqAlloc file tid kz req buf =>
    obtain ⟨c, r, -, halloc, hr⟩ := reqbufAlloc_cases h
    have hlayout : SameLayout k.mm r.mem :=
      aipuMmAlloc_layout hI.mm (by simpa [Kmd.requestOk] using hreq) halloc
    rcases hr with ⟨-, rfl, -⟩ | ⟨-, rfl, -⟩ <;> exact .inr hlayout
  | reqAdd file req buf kzOk =>
    obtain ⟨-, c, ret, -, -, ⟨-, rfl⟩ | ⟨-, rfl⟩⟩ := reqbufAdd_cases h <;> exact .inl rfl
  | freeDetach file desc =>
    obtain ⟨c, -, ⟨d, -, -, rfl⟩ | ⟨-, rfl, -⟩⟩ := freebufDetach_cases h <;> exact .inl rfl
  | freeMm file desc =>
    obtain ⟨hop, rfl, -⟩ := freebufFree_cases h
    have hmem : desc.range ∈ k.owned := by
      apply List.mem_append_right
      exact (ops_erase_perm hop).mem_iff.mpr (by simp [KmdOp.owned])
    exact .inr (aipuMmFree_layout hI.mm (hI.owned.mem_iff.mpr (List.mem_append_left _ hmem)))
  | mmap file vma err =>
    obtain ⟨c, ret, -, -, ⟨d, range, -, -, rfl⟩ | rfl⟩ := aipuMmap_cases h <;> exact .inl rfl
  | munmap file map front len =>
    obtain ⟨c, -, -, -, -, rfl⟩ := munmapPages_cases h
    exact .inl rfl
  | runAdd file tid userJob kz =>
    obtain ⟨c, -, ⟨waitQueue, userJob', -, -, -, rfl⟩ | ⟨rfl, -⟩⟩ := runjobAdd_cases h <;>
      exact .inl rfl
  | runSchedule file userJob kernJob kzOk stale =>
    obtain ⟨-, ⟨-, js, jes, -, rfl, -⟩ | ⟨-, rfl, -⟩⟩ := runjobSchedule_cases h <;> exact .inl rfl
  | kill file tid jobId stale =>
    obtain ⟨js, jes, -, rfl, -⟩ := killTimeoutJob_cases h
    exact .inl rfl
  | query file query kzOk notCopied notCopiedQuery =>
    obtain ⟨c, ret, kept, taken, -, -, -, -, rfl, -⟩ := queryStatus_cases h
    exact .inl rfl
  | pollRegister file tid =>
    obtain ⟨c, single, queues, -, -, rfl⟩ := aipuPollRegister_cases h
    exact .inl rfl
  | pollCheck file tid =>
    obtain ⟨rfl, -⟩ := aipuPollCheck_cases h
    exact .inl rfl
  | upperHalf flag stale => exact .inl (hrun (.upperHalf (k.mem stale) flag) h)
  | queueWork => exact .inl (hrun .queueWork h)
  | bhStart => exact .inl (hrun .bhStart h)
  | bhDone =>
    obtain ⟨curr, next, woken, -, -, ⟨c, d, -, -, rfl, -⟩ | ⟨-, rfl⟩⟩ := bottomHalfDone_cases h <;>
      exact .inl rfl
  | bhResume => exact .inl (hrun .bhResume h)
  | relCancel file stale =>
    obtain ⟨c, js, jes, -, -, -, -, rfl, -⟩ := releaseCancel_cases h
    exact .inl rfl
  | relDelete file =>
    obtain ⟨c, -, -, rfl⟩ := releaseDelete_cases h
    exact .inl rfl
  | relFree file =>
    obtain ⟨c, hc, ⟨-, rfl, -⟩ | ⟨sbuf, rest, desc, hcons, hpa, hbytes, rfl, -⟩⟩ :=
      releaseFree_cases h
    · exact .inl rfl
    · obtain ⟨hl, -, hphase⟩ := Kmd.inPhase_eq_some hc
      have hrange : sbuf.range = desc.range := by
        simp [SessionBuf.range, BufDesc.range, hpa, hbytes]
      have hmem : desc.range ∈ c.entry.owned := by
        rw [KmdFile.owned_eq (by simp [hphase]), hcons, List.map_cons, hrange]
        exact List.mem_cons_self
      have howned : desc.range ∈ k.owned := by
        apply List.mem_append_left
        exact List.mem_flatMap.mpr ⟨c.entry, hl ▸ c.entry_mem, hmem⟩
      exact .inr (aipuMmFree_layout hI.mm (hI.owned.mem_iff.mpr (List.mem_append_left _ howned)))
  | relDetach file =>
    obtain ⟨c, desc, -, -, -, ⟨d, -, rfl⟩ | ⟨-, rfl⟩⟩ := releaseDetach_cases h <;> exact .inl rfl
  | relDestroy file =>
    obtain ⟨c, ret, -, -, ⟨-, -, rfl⟩ | ⟨-, rfl⟩⟩ := releaseDestroy_cases h <;> exact .inl rfl

/-- In every run the layout is that of the memory manager as it was brought up. -/
theorem kmdSystem_layout (h : (kmdSystem version map maxSchedNum).Run BuffersServed tr k) :
    ∃ mm₀, bringUp version map = some mm₀ ∧ SameLayout mm₀ k.mm := by
  obtain ⟨mm₀, hbring, -, -⟩ := bringUp_inv version map
  refine ⟨mm₀, hbring, ?_⟩
  have hboth : (∃ lost, k.OwnInv lost) ∧ SameLayout mm₀ k.mm := by
    refine h.stateInvariant (I := fun k => (∃ lost, k.OwnInv lost) ∧ SameLayout mm₀ k.mm) ?_ ?_
    · intro k hinit
      obtain ⟨lost, hI, -⟩ := kmdSystem_own (fun k a hC => requestOk_of_small hC.1)
        (System.Run.start (C := BuffersServed) hinit)
      obtain rfl : mm₀ = k.mm := Option.some.inj (hbring.symm.trans hinit.1)
      exact ⟨⟨lost, hI⟩, .refl k.mm⟩
    · rintro k a k' es ⟨⟨lost, hI⟩, hlayout⟩ hC hst
      have hreq : k.requestOk a = true := requestOk_of_small hC.1
      obtain ⟨⟨more, hI', -⟩, -⟩ := kmdStep_own hI hreq hst
      exact ⟨⟨more ++ lost, hI'⟩, hlayout.trans (kmdStep_layout hI hreq hst)⟩
  exact hboth.2

/-- The bare memory managers of two runs whose files and calls own the same ranges are equal. -/
theorem bare_eq_of_owned (h : (kmdSystem version map maxSchedNum).Run BuffersServed tr k)
    (h' : (kmdSystem version map maxSchedNum').Run BuffersServed tr' k')
    (howned : ∀ x, x ∈ k.owned ↔ x ∈ k'.owned) : k.mm.bare = k'.mm.bare := by
  obtain ⟨lost, hI, hlost, -⟩ := kmdSystem_own (fun k a hC => requestOk_of_small hC.1) h
  obtain ⟨lost', hI', hlost', -⟩ := kmdSystem_own (fun k a hC => requestOk_of_small hC.1) h'
  obtain rfl := hlost fun k a hC => hC.2
  obtain rfl := hlost' fun k a hC => hC.2
  obtain ⟨mm₀, hbring, hlayout⟩ := kmdSystem_layout h
  obtain ⟨mm₁, hbring', hlayout'⟩ := kmdSystem_layout h'
  obtain rfl : mm₀ = mm₁ := Option.some.inj (hbring.symm.trans hbring')
  refine hI.mm.bare_eq hI'.mm (hlayout.symm.trans hlayout') fun x => ?_
  have hmem : x ∈ k.mm.allocated ↔ x ∈ k.owned := by simpa using hI.owned.mem_iff
  have hmem' : x ∈ k'.mm.allocated ↔ x ∈ k'.owned := by simpa using hI'.owned.mem_iff
  rw [hmem, howned x, hmem']

end Layout

/-! ## Main result -/

/-- **The memory does not remember.**  Take two runs of the driver on the same platform, with any
calls in any order and any number of jobs on the hardware, that end with the same ranges owned by
files and by calls in progress.  Then all regions show the same, and no sequence of requests and
releases tells the two memory managers apart: it crashes in both or in neither, and returns the
same codes, requests and buffers.  When all files are closed, the memory manager cannot be told
apart from the one that was brought up. -/
theorem owned_determines_memory {version : AipuVersion} {map : MemoryMap}
    {maxSchedNum maxSchedNum' : ℤ} {tr tr' : List KmdEvent} {k k' : Kmd}
    (h : (kmdSystem version map maxSchedNum).Run BuffersServed tr k)
    (h' : (kmdSystem version map maxSchedNum').Run BuffersServed tr' k')
    (howned : ∀ x, x ∈ k.owned ↔ x ∈ k'.owned) :
    k.mm.view = k'.mm.view ∧
      (∀ calls, (mmCalls.exec anyStep k.mm calls).map (Prod.map AipuMemoryManager.bare id) =
        (mmCalls.exec anyStep k'.mm calls).map (Prod.map AipuMemoryManager.bare id)) ∧
      (k.files = [] → k.ops = [] → ∃ mm₀, bringUp version map = some mm₀ ∧
        ∀ calls, (mmCalls.exec anyStep k.mm calls).map Prod.snd =
          (mmCalls.exec anyStep mm₀ calls).map Prod.snd) := by
  have hbare : k.mm.bare = k'.mm.bare := bare_eq_of_owned h h' howned
  refine ⟨?_, fun calls => mmCalls_respects.exec_eq calls hbare, fun hfiles hops => ?_⟩
  · rw [← k.mm.bare_view, ← k'.mm.bare_view, hbare]
  · obtain ⟨mm₀, hbring, -, -⟩ := bringUp_inv version map
    refine ⟨mm₀, hbring, fun calls => ?_⟩
    -- the driver before the first file is opened
    have hinit : (kmdSystem version map maxSchedNum).init
        { mm := mm₀, js := .initial maxSchedNum false [], files := [], ops := [], nextFile := 0,
          nextSessionJob := 0 } := ⟨hbring, ⟨[], rfl⟩, rfl, rfl⟩
    have heq := bare_eq_of_owned h (.start hinit) (by simp [Kmd.owned, hfiles, hops])
    have hexec := congrArg (Option.map Prod.snd) (mmCalls_respects.exec_eq calls heq)
    simpa [Option.map_map, Function.comp_def] using hexec

/-- One session that requests a buffer, and two sessions of which one requested, freed and closed:
the memory they leave behind serves the next request at the same place. -/
theorem owned_determines_memory_sample :
    ∃ k k' : Kmd, k.owned = [(0x106000, 0x1000)] ∧ k'.owned = [(0x106000, 0x1000)] ∧
      k.mm ≠ k'.mm ∧ k.mm.view = k'.mm.view := by
  have hexec : ∃ k es, (kmdSystem .zhouyiV2 sampleMap 1).exec BuffersServed sampleKmd
      [.openFile 7 [],
        .reqAlloc 0 7 [] { bytes := 4096, alignInPage := 2, dataType := aipuMmDataTypeNone } {},
        .reqAdd 0 { bytes := 4096, alignInPage := 2, dataType := aipuMmDataTypeNone }
          { pa := 0x106000, va := 0x40006000, bytes := 0x1000, type := .reserved } true] =
        some (k, es) ∧
      k.owned = [(0x106000, 0x1000)] ∧ (k.mm.regions.flatMap (·.blkHead)).map (·.tid) =
        [0, 7, 7] := ⟨_, _, rfl, rfl, rfl⟩
  have hexec' : ∃ k es, (kmdSystem .zhouyiV2 sampleMap 1).exec BuffersServed sampleKmd
      [.openFile 9 [], .openFile 7 [],
        .reqAlloc 0 9 [] { bytes := 5000, alignInPage := 1, dataType := aipuMmDataTypeText } {},
        .reqAdd 0 { bytes := 5000, alignInPage := 1, dataType := aipuMmDataTypeText }
          { pa := 0x100000, va := 0x40000000, bytes := 0x2000, type := .reserved } true,
        .reqAlloc 1 8 [] { bytes := 4096, alignInPage := 2, dataType := aipuMmDataTypeNone } {},
        .relCancel 0 ⟨fun _ => 0, fun _ => 0⟩, .relDelete 0, .relFree 0,
        .reqAdd 1 { bytes := 4096, alignInPage := 2, dataType := aipuMmDataTypeNone }
          { pa := 0x106000, va := 0x40006000, bytes := 0x1000, type := .reserved } true,
        .relDetach 0, .relFree 0, .relDestroy 0] = some (k, es) ∧
      k.owned = [(0x106000, 0x1000)] ∧ (k.mm.regions.flatMap (·.blkHead)).map (·.tid) =
        [0, 8, 8] := ⟨_, _, rfl, rfl, rfl⟩
  obtain ⟨k, es, hexec, howned, htids⟩ := hexec
  obtain ⟨k', es', hexec', howned', htids'⟩ := hexec'
  refine ⟨k, k', howned, howned', fun heq => ?_, (owned_determines_memory
    (System.run_of_exec sampleKmd_init hexec) (System.run_of_exec sampleKmd_init hexec')
    (by simp [howned, howned'])).1⟩
  rw [heq, htids'] at htids
  exact absurd htids (by decide)

end Aipu
