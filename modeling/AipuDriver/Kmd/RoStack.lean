import AipuDriver.Kmd.Placement

/-!
# Requests that skip the guard on the free bytes

On the second version of the hardware the free bytes of a region are not looked at for
`AIPU_MM_DATA_TYPE_RO_STACK`: only sums in `u64` stand between the request and the blocks.  The
search may stop at a block because the end of the request has come round the address space.  The
split refuses such a place, unless the end has passed the start of the block once more
(`AipuMemRegion.OvertakenBy`); then a range is handed out that no block holds, and the blocks no
longer tile the region.

The regions lie anywhere below `2 ^ 63`: they may start lower than their size and may overlap.  The
calls are made in any order, with requests of any size and with any buffer to be freed
(`mmCallSystem`).
-/

namespace Aipu

open ListSearch Word Tiling Transition

/-! ## Places in exact arithmetic -/

/-- The end of the request, counted from the place where the search stops, has come round the
address space and passed the start of the block again. -/
def AipuMemRegion.OvertakenBy (r : AipuMemRegion) (req : BufRequest) : Prop :=
  ∃ c start, r.candidate req = .ok (c, start) ∧
    c.entry.pa + 2 ^ 64 < start + getAllocSize r req.bytes

/-- Whether a region is overtaken can be computed. -/
instance overtakenByDecidable (r : AipuMemRegion) (req : BufRequest) :
    Decidable (r.OvertakenBy req) :=
  match h : r.candidate req with
  | .ok (c, start) =>
    decidable_of_iff (c.entry.pa + 2 ^ 64 < start + getAllocSize r req.bytes)
      ⟨fun hlt => ⟨c, start, h, hlt⟩, fun ⟨_, _, h', hlt⟩ => by
        obtain ⟨rfl, rfl⟩ := Prod.mk.inj (Except.ok.inj (h.symm.trans h'))
        exact hlt⟩
  | .error _ => isFalse fun ⟨_, _, h', _⟩ => by rw [h] at h'; cases h'

/-- A region whose blocks tile it and that lies in the lower half of the address space. -/
structure AipuMemRegion.Low (r : AipuMemRegion) : Prop where
  flag : r.flag = .compact
  end_le : r.pa + r.totBytes ≤ 2 ^ 63
  tiles : TileBlocks r.pa (r.pa + r.totBytes) r.blkHead

/-- The size of an allocation is the requested one rounded up to pages, or zero when the sum of the
rounding is no word. -/
theorem getAllocSize_eq {r : AipuMemRegion} {n : ℕ} (hflag : r.flag = .compact) (hn : n < 2 ^ 64)
    (hpos : 0 < getAllocSize r n) :
    getAllocSize r n = (n + (pageSize - 1)) / pageSize * pageSize := by
  have hn0 : n ≠ 0 := by
    rintro rfl
    exact absurd hpos (by simp [getAllocSize])
  have hmod := getAllocSize_aligned hflag n
  rcases Nat.lt_or_ge (n + 4095) (2 ^ 64) with hlt | hge
  · obtain ⟨hle, hub⟩ := getAllocSize_bounds hflag (Nat.pos_of_ne_zero hn0) hlt
    unfold pageSize at *
    omega
  · -- the sum comes round to less than a page, of which no page is left
    have hsize : getAllocSize r n ≤ wrap 64 (n + wrapSub 64 pageSize 1) := by
      simp only [getAllocSize, hn0, if_false, hflag]
      exact maskAlign_le_wrap
    have hsub : wrapSub 64 pageSize 1 = 4095 := rfl
    have hround : wrap 64 (n + 4095) < pageSize := by
      unfold wrap pageSize
      omega
    rw [hsub] at hsize
    have := Nat.mod_eq_of_lt (hsize.trans_lt hround)
    omega

/-- A sum of two words that is no word has come round once. -/
theorem wrap_add_of_ge {x y : ℕ} (hx : x < 2 ^ 64) (hy : y < 2 ^ 64) (h : 2 ^ 64 ≤ x + y) :
    wrap 64 (x + y) = x + y - 2 ^ 64 := by
  rw [wrap, Nat.mod_eq_sub_mod h, Nat.mod_eq_of_lt (by omega)]

section Candidate

variable {r : AipuMemRegion} {req : BufRequest} {c : Cursor AipuBlock} {start : ℕ}

/-- What the test of the search says about the place where it stops. -/
theorem AipuMemRegion.Low.accepted (hr : r.Low) (h : r.candidate req = .ok (c, start)) :
    c.entry.state = .free ∧ c.entry.pa ≤ start ∧ start < 2 ^ 64 ∧
      wrap 64 (start + getAllocSize r req.bytes) ≤ c.entry.pa + c.entry.bytes := by
  obtain ⟨hl, -, ha, -, hstart⟩ := aipuMmFindBlockCandidateNoLock_spec h
  have hfree : c.entry.state ≠ .allocated → c.entry.state = .free := by
    cases c.entry.state <;> simp
  rcases hstart with ⟨-, hfwd⟩ | ⟨-, hrev⟩
  · obtain ⟨hstate, hfwd⟩ := Option.ite_none_right_eq_some.mp hfwd
    obtain ⟨hle, hfwd⟩ := Option.ite_none_right_eq_some.mp hfwd
    obtain rfl := Option.some.inj hfwd
    have halign := wrap_lt 32 (req.alignInPage * 4 * 1024)
    have hhi := (hr.tiles.bounds (hl ▸ c.entry_mem : c.entry ∈ r.blkHead)).2
    have hlow := hr.end_le
    exact ⟨hfree hstate, le_maskAlign ha (by omega), maskAlign_le_wrap.trans_lt (wrap_lt 64 _),
      hle.trans (wrap_le 64 _)⟩
  · obtain ⟨hstate, hrev⟩ := Option.ite_none_right_eq_some.mp hrev
    obtain ⟨⟨hge, hle⟩, hrev⟩ := Option.ite_none_right_eq_some.mp hrev
    obtain rfl := Option.some.inj hrev
    exact ⟨hfree hstate, hge, wrap_lt 64 _, hle.trans (wrap_le 64 _)⟩

/-- The block where the search stops is a word-sized part of the region. -/
theorem AipuMemRegion.Low.entry (hr : r.Low) (h : r.candidate req = .ok (c, start)) :
    r.blkHead = c.toList ∧ 0 < c.entry.bytes ∧ c.entry.pa + c.entry.bytes < 2 ^ 64 := by
  obtain ⟨hl, -⟩ := aipuMmFindBlockCandidateNoLock_spec h
  have hmem : c.entry ∈ r.blkHead := hl ▸ c.entry_mem
  have hhi := (hr.tiles.bounds hmem).2
  have hlow := hr.end_le
  exact ⟨hl, hr.tiles.len_pos hmem, by omega⟩

/-- A place where the search stops and that has not overtaken its block is inside the block or
refused by the split. -/
theorem AipuMemRegion.Low.fits_or_refused (hr : r.Low) (h : r.candidate req = .ok (c, start))
    (hnot : ¬r.OvertakenBy req) :
    FitsIn c.entry start (getAllocSize r req.bytes) ∨
      Refused c.entry start (getAllocSize r req.bytes) := by
  obtain ⟨-, hge, hstart, hle⟩ := hr.accepted h
  obtain ⟨-, hblk, hend⟩ := hr.entry h
  have hsize := getAllocSize_lt r req.bytes
  have hpass : ¬c.entry.pa + 2 ^ 64 < start + getAllocSize r req.bytes :=
    fun hlt => hnot ⟨c, start, h, hlt⟩
  rcases Nat.lt_or_ge (start + getAllocSize r req.bytes) (2 ^ 64) with hsum | hsum
  · rw [wrap_of_lt hsum] at hle
    exact .inl ⟨hge, hle⟩
  · have hround := wrap_add_of_ge hstart hsize hsum
    exact .inr (refused_of_wrapped hblk hend (by omega))

/-- A place that has overtaken its block is not refused. -/
theorem AipuMemRegion.Low.not_refused (hr : r.Low) (h : r.candidate req = .ok (c, start))
    (hpass : c.entry.pa + 2 ^ 64 < start + getAllocSize r req.bytes) :
    ¬Refused c.entry start (getAllocSize r req.bytes) := by
  obtain ⟨-, -, hstart, hle⟩ := hr.accepted h
  obtain ⟨-, -, hend⟩ := hr.entry h
  have hsize := getAllocSize_lt r req.bytes
  have hround := wrap_add_of_ge hstart hsize (by omega)
  unfold Refused
  rw [lastAddr_eq (by omega) hend, hround, wrapSub_of_le (by omega) (by omega)]
  omega

end Candidate

/-! ## Tries in a region -/

section Try

variable {tid : ℤ} {r r' : AipuMemRegion} {req : BufRequest} {buf : AipuBuffer}

/-- When every `kzalloc` succeeds, a split that is not refused succeeds. -/
theorem exists_split_of_not_refused (tid : ℤ) {c : Cursor AipuBlock} {start bytes : ℕ} (type : ℕ)
    (hb : 0 < bytes) (h : ¬Refused c.entry start bytes) :
    ∃ l, aipuMmSplitBlockNoLock [] tid c start bytes type = some (0, l, []) := by
  unfold aipuMmSplitBlockNoLock
  dsimp only
  rw [if_neg (by unfold Refused at h; omega)]
  simp only [createBlock, Oracle.next, if_true]
  split_ifs <;> exact ⟨_, rfl⟩

/-- A region keeps its place. -/
structure Kept (r r' : AipuMemRegion) : Prop where
  low : r'.Low
  geometry : r'.geometry = r.geometry

/-- The place of a try that succeeds, when the region is not overtaken: a free block holds the
range, and the blocks still tile the region. -/
theorem TriedIn.kept (h : TriedIn tid req buf r r') (hr : r.Low) (hnot : ¬r.OvertakenBy req) :
    Kept r r' ∧ ∃ blk ∈ r.blkHead, blk.state = .free ∧
      FitsIn blk buf.pa (getAllocSize r req.bytes) ∧ 0 < getAllocSize r req.bytes := by
  obtain ⟨kz, buf₀, res, htry, hret, rfl, rfl⟩ := h
  rcases aipuMmTryAllocInRegion_cases htry with ⟨hne, -⟩ | ⟨-, c, start, hplaced⟩
  · exact absurd hret hne
  obtain ⟨kz', hsplit⟩ := hplaced.split
  obtain ⟨-, hb, -⟩ := aipuMmFindBlockCandidateNoLock_spec hplaced.found
  obtain ⟨hl, hblk, hend⟩ := hr.entry hplaced.found
  have hfree := (hr.accepted hplaced.found).1
  have hfit := (hr.fits_or_refused hplaced.found hnot).resolve_right (not_refused_of_split hsplit)
  refine ⟨⟨⟨?_, ?_, ?_⟩, ?_⟩, c.entry, hl ▸ c.entry_mem, hfree, hplaced.pa ▸ hfit, hb⟩
  · rw [hplaced.mem]
    exact hr.flag
  · rw [hplaced.mem]
    exact hr.end_le
  · rcases aipuMmSplitBlockNoLock_spec hfree hblk hend hb (.inl hfit) hsplit with
      ⟨hne, -⟩ | ⟨-, seg, hnew, hseg⟩
    · exact absurd rfl hne
    · have htiles := hr.tiles
      rw [hl, Cursor.toList] at htiles
      rw [hplaced.mem]
      show TileBlocks r.pa (r.pa + r.totBytes) res.mem.blkHead
      rw [hnew]
      exact htiles.splice hseg.tiles
  · rw [hplaced.mem]
    rfl

/-- In a region that is overtaken the try succeeds when every `kzalloc` does. -/
theorem AipuMemRegion.OvertakenBy.exists_try (h : r.OvertakenBy req) (hr : r.Low) (tid : ℤ)
    (buf : AipuBuffer) :
    ∃ out, aipuMmTryAllocInRegion [] tid r req buf = some out ∧ out.ret = 0 ∧
      0 < getAllocSize r req.bytes ∧ 2 ^ 64 < out.buf.pa + getAllocSize r req.bytes := by
  obtain ⟨c, start, hfind, hpass⟩ := h
  obtain ⟨-, hb, -⟩ := aipuMmFindBlockCandidateNoLock_spec hfind
  obtain ⟨l, hsplit⟩ := exists_split_of_not_refused tid req.dataType hb (hr.not_refused hfind hpass)
  obtain ⟨out, htry, hout, hpa, -⟩ := exists_try_of_split buf hfind hsplit
  exact ⟨out, htry, hout, hb, by omega⟩

/-- A request that overtakes a region has an alignment. -/
theorem AipuMemRegion.OvertakenBy.alignInPage_ne_zero (h : r.OvertakenBy req) :
    req.alignInPage ≠ 0 := by
  obtain ⟨c, start, hfind, -⟩ := h
  obtain ⟨-, -, ha, -⟩ := aipuMmFindBlockCandidateNoLock_spec hfind
  rintro h0
  simp [h0, wrap] at ha

end Try

/-! ## Releases in a region -/

/-- A release keeps the region, whatever buffer is freed. -/
theorem aipuMmFreeInRegion_kept {r r' : AipuMemRegion} {buf : BufDesc} {ret : ℤ} (hr : r.Low)
    (h : aipuMmFreeInRegion r buf = (ret, r')) : Kept r r' := by
  have htiles := hr.tiles
  have hlow := hr.end_le
  cases hseek : seek (fun blk => blk.pa = buf.pa ∧ blk.bytes = buf.bytes) r.blkHead with
  | none =>
    rw [aipuMmFreeInRegion, hseek] at h
    obtain ⟨-, rfl⟩ := Prod.mk.inj h
    exact ⟨hr, rfl⟩
  | some c =>
    obtain ⟨hl, -⟩ := seek_eq_some hseek
    rw [hl, Cursor.toList] at htiles
    obtain ⟨m, hbefore, rfl, hlen, hafter⟩ := tiles_append.mp htiles
    have hle := hafter.le
    obtain ⟨before', target₁, target₂, after', hprev, hnext, heq⟩ := aipuMmFreeInRegion_eq hseek
    obtain ⟨htiles₁, hend₁, hlen₁⟩ := mergePrev_tiles hprev hlen (by dsimp only; omega) hbefore
    obtain ⟨hpa₂, hlen₂, htiles₂⟩ :=
      mergeNext_tiles hnext hlen₁ (by omega : r.pa + r.totBytes < 2 ^ 64) (hend₁ ▸ hafter)
    obtain ⟨-, rfl⟩ := Prod.mk.inj (heq.symm.trans h)
    exact ⟨⟨hr.flag, hlow, tiles_append.mpr ⟨_, htiles₁, hpa₂, hlen₂, hpa₂ ▸ htiles₂⟩⟩, rfl⟩

/-! ## Calls of the memory manager -/

/-- A call of the memory manager. -/
inductive MmCall
  /-- `aipu_mm_alloc` by the thread `tid`, with the answers of `kzalloc` and the buffer it is
  passed. -/
  | alloc (kz : Oracle) (tid : ℤ) (req : BufRequest) (buf : AipuBuffer)
  /-- `aipu_mm_free` -/
  | free (desc : BufDesc)

/-- One call; the event is the code that it returns. -/
def mmCall (mm : AipuMemoryManager) : MmCall → Option (AipuMemoryManager × List ℤ)
  | .alloc kz tid req buf =>
    match aipuMmAlloc kz tid mm req buf with
    | none => none
    | some r => some (r.mem, [r.ret])
  | .free desc =>
    let (ret, mm) := aipuMmFree mm desc
    some (mm, [ret])

/-- The runs of the memory manager of a platform with any memory-region nodes, any requests and any
releases. -/
def mmCallSystem (version : AipuVersion) (nodes : List RegionNode) :
    System AipuMemoryManager MmCall ℤ where
  init mm := addRegions nodes (aipuInitMm version) = some mm
  step := mmCall

/-- No region that is tried for the request is overtaken by it. -/
def NoneOvertaken (mm : AipuMemoryManager) : MmCall → Prop
  | .alloc _ _ req _ => ∀ r ∈ mm.ddrHead, req.selects mm.version r = true → ¬r.OvertakenBy req
  | .free _ => True

/-- Whether a call overtakes a region can be computed. -/
instance noneOvertakenDecidable : DecidableRel NoneOvertaken := fun mm a => by
  rcases a <;> unfold NoneOvertaken <;> infer_instance

/-- The invariant of the runs: the regions keep their places, and the identifiers of the DDR regions
are different. -/
structure CallInv (version : AipuVersion) (mm : AipuMemoryManager) : Prop where
  version : mm.version = version
  low : ∀ r ∈ mm.regions, r.Low
  ids : (mm.ddrHead.map AipuMemRegion.id).Nodup
  id_lt : ∀ r ∈ mm.ddrHead, r.id < mm.sramCnt + mm.ddrCnt
  ddrCnt : mm.ddrCnt = mm.ddrHead.length

section Lists

variable {l l' : List AipuMemRegion} {version : AipuVersion} {mm mm' : AipuMemoryManager}

/-- A list in which one region was replaced by one that keeps its place has the same identifiers. -/
theorem ReplacedIn.map_id (h : ReplacedIn Kept l l') :
    l'.map AipuMemRegion.id = l.map AipuMemRegion.id := by
  obtain ⟨pre, r, r', post, rfl, rfl, hkept⟩ := h
  have hid : r'.id = r.id := (Prod.mk.inj hkept.geometry).1
  simp [hid]

/-- A list in which one region was replaced by one that keeps its place keeps them all. -/
theorem ReplacedIn.low (h : ReplacedIn Kept l l') (hl : ∀ r ∈ l, r.Low) : ∀ r ∈ l', r.Low := by
  obtain ⟨pre, r, r', post, rfl, rfl, hkept⟩ := h
  intro s hs
  rcases List.mem_append.mp hs with hs | hs
  · exact hl s (List.mem_append_left _ hs)
  · rcases List.mem_cons.mp hs with rfl | hs
    · exact hkept.low
    · exact hl s (List.mem_append_right _ (List.mem_cons_of_mem _ hs))

/-- The invariant depends on the regions up to their blocks and counters. -/
theorem CallInv.of_replaced (h : CallInv version mm)
    (hsram : mm'.sramHead = mm.sramHead ∨ ReplacedIn Kept mm.sramHead mm'.sramHead)
    (hddr : mm'.ddrHead = mm.ddrHead ∨ ReplacedIn Kept mm.ddrHead mm'.ddrHead)
    (hrest : mm' = { mm with sramHead := mm'.sramHead, ddrHead := mm'.ddrHead }) :
    CallInv version mm' := by
  have hids : mm'.ddrHead.map AipuMemRegion.id = mm.ddrHead.map AipuMemRegion.id := by
    rcases hddr with h' | h'
    · rw [h']
    · exact h'.map_id
  obtain ⟨hlowSram, hlowDdr⟩ := List.forall_mem_append.mp h.low
  have hlen : mm'.ddrHead.length = mm.ddrHead.length := by
    simpa using congrArg List.length hids
  have hid : ∀ r ∈ mm'.ddrHead, r.id < mm.sramCnt + mm.ddrCnt := by
    intro r hr
    obtain ⟨s, hs, hsr⟩ := List.mem_map.mp (hids ▸ List.mem_map_of_mem (f := AipuMemRegion.id) hr)
    exact hsr ▸ h.id_lt s hs
  refine ⟨?_, List.forall_mem_append.mpr ⟨?_, ?_⟩, hids ▸ h.ids, ?_, ?_⟩
  · rw [hrest]
    exact h.version
  · rcases hsram with h' | h'
    · exact h' ▸ hlowSram
    · exact h'.low hlowSram
  · rcases hddr with h' | h'
    · exact h' ▸ hlowDdr
    · exact h'.low hlowDdr
  · rw [hrest]
    exact hid
  · rw [hrest]
    exact h.ddrCnt.trans hlen.symm

end Lists

/-- A release in the region at a cursor keeps the regions. -/
theorem freeAt_kept {head head' : List AipuMemRegion} {c : Cursor AipuMemRegion} {buf : BufDesc}
    {ret : ℤ} (hl : head = c.toList) (hlow : ∀ r ∈ head, r.Low) (h : freeAt c buf = (ret, head')) :
    ReplacedIn Kept head head' := by
  unfold freeAt at h
  cases hfree : aipuMmFreeInRegion c.entry buf with
  | mk ret₁ r' =>
  simp only [hfree] at h
  obtain ⟨-, rfl⟩ := Prod.mk.inj h
  exact ⟨c.before, c.entry, r', c.after, hl, rfl,
    aipuMmFreeInRegion_kept (hlow _ (hl ▸ c.entry_mem)) hfree⟩

/-- The region that `aipu_mm_find_region` finds is one of the list. -/
theorem aipuMmFindRegion_toList {head : List AipuMemRegion} {c : Cursor AipuMemRegion}
    {pa bytes : ℕ} (h : aipuMmFindRegion head pa bytes = some c) : head = c.toList := by
  unfold aipuMmFindRegion at h
  split at h
  · cases h
  · exact (seek_eq_some h).1

section Calls

variable {version : AipuVersion} {mm mm' : AipuMemoryManager} {req : BufRequest}

/-- `aipu_mm_free` keeps the invariant, whatever buffer is freed. -/
theorem CallInv.free {desc : BufDesc} {ret : ℤ} (h : CallInv version mm)
    (hfree : aipuMmFree mm desc = (ret, mm')) : CallInv version mm' := by
  obtain ⟨hlowSram, hlowDdr⟩ := List.forall_mem_append.mp h.low
  unfold aipuMmFree at hfree
  split at hfree
  next c hfind =>
    cases hat : freeAt c desc with
    | mk ret₁ head' =>
    simp only [hat] at hfree
    obtain ⟨-, rfl⟩ := Prod.mk.inj hfree
    exact h.of_replaced (.inr (freeAt_kept (aipuMmFindRegion_toList hfind) hlowSram hat))
      (.inl rfl) rfl
  · split at hfree
    · obtain ⟨-, rfl⟩ := Prod.mk.inj hfree
      exact h
    next c hfind =>
      cases hat : freeAt c desc with
      | mk ret₁ head' =>
      simp only [hat] at hfree
      obtain ⟨-, rfl⟩ := Prod.mk.inj hfree
      exact h.of_replaced (.inl rfl)
        (.inr (freeAt_kept (aipuMmFindRegion_toList hfind) hlowDdr hat)) rfl

/-- `aipu_mm_alloc` keeps the invariant when no region tried is overtaken; when it succeeds, a free
block of a region tried holds the range. -/
theorem CallInv.alloc {kz : Oracle} {tid : ℤ} {buf : AipuBuffer}
    {res : AllocResult AipuMemoryManager} (h : CallInv version mm)
    (hnone : ∀ r ∈ mm.ddrHead, req.selects mm.version r = true → ¬r.OvertakenBy req)
    (halloc : aipuMmAlloc kz tid mm req buf = some res) :
    CallInv version res.mem ∧ (res.ret ≠ 0 → res.mem = mm) ∧
      (res.ret = 0 → ∃ r ∈ mm.ddrHead, req.selects mm.version r = true ∧ ∃ blk ∈ r.blkHead,
        blk.state = .free ∧ FitsIn blk res.buf.pa (getAllocSize r req.bytes) ∧
          0 < getAllocSize r req.bytes) := by
  obtain ⟨-, hlowDdr⟩ := List.forall_mem_append.mp h.low
  rcases aipuMmAlloc_cases halloc with
    ⟨hret, hmem⟩ | ⟨hret, hmem, pre, r, r', post, hl, hl', hsel, htry⟩
  · exact ⟨hmem ▸ h, fun _ => hmem, fun h0 => absurd h0 hret⟩
  · have hr : r ∈ mm.ddrHead := hl ▸ by simp
    obtain ⟨hkept, hblk⟩ := htry.kept (hlowDdr r hr) (hnone r hr hsel)
    have hsram : res.mem.sramHead = mm.sramHead := by rw [hmem]
    exact ⟨h.of_replaced (.inl hsram) (.inr ⟨pre, r, r', post, hl, hl', hkept⟩) (hsram ▸ hmem),
      fun hne => absurd hret hne, fun _ => ⟨r, hr, hsel, hblk⟩⟩

end Calls

/-! ## Runs -/

/-- The region that a memory-region node becomes. -/
def RegionNode.region (n : RegionNode) (id : ℕ) : AipuMemRegion :=
  { id := id, blkHead := [⟨n.base, n.bytes, 0, aipuMmDataTypeNone, .free⟩],
    pa := n.base, va := n.va,
    totBytes := n.bytes, totFreeBytes := n.bytes, flag := .compact, type := n.type }

/-- What adding a node does. -/
theorem aipuMmAddRegion_cases (mm : AipuMemoryManager) (n : RegionNode) :
    ∃ ret mm', aipuMmAddRegion [] mm n.base n.bytes n.type n.va = some (ret, mm', []) ∧
      (mm' = mm ∨ 0 < n.bytes ∧
        (mm' = { mm with
            sramHead := n.region (mm.sramCnt + mm.ddrCnt) :: mm.sramHead
            sramCnt := mm.sramCnt + 1 } ∨
          mm' = { mm with
            ddrHead := n.region (mm.sramCnt + mm.ddrCnt) :: mm.ddrHead
            ddrCnt := mm.ddrCnt + 1 })) := by
  unfold aipuMmAddRegion
  split
  · exact ⟨_, _, rfl, .inl rfl⟩
  next hbytes =>
    simp only [Oracle.next, Bool.true_eq_false, if_false, aipuInitRegion, createBlock, if_true]
    split
    · exact ⟨_, _, rfl, .inl rfl⟩
    split
    · exact ⟨_, _, rfl, .inr ⟨Nat.pos_of_ne_zero hbytes, .inl rfl⟩⟩
    · exact ⟨_, _, rfl, .inr ⟨Nat.pos_of_ne_zero hbytes, .inr rfl⟩⟩

/-- A node below `2 ^ 63` becomes a region that its one block tiles. -/
theorem RegionNode.region_low {n : RegionNode} (hpos : 0 < n.bytes)
    (hend : n.base + n.bytes ≤ 2 ^ 63) (id : ℕ) : (n.region id).Low :=
  ⟨rfl, hend, rfl, hpos, tiles_nil.mpr rfl⟩

/-- Adding a node keeps the invariant. -/
theorem CallInv.addRegion {version : AipuVersion} {mm mm' : AipuMemoryManager} {n : RegionNode}
    (h : CallInv version mm) (hend : n.base + n.bytes ≤ 2 ^ 63)
    (hcases : mm' = mm ∨ 0 < n.bytes ∧
      (mm' = { mm with
          sramHead := n.region (mm.sramCnt + mm.ddrCnt) :: mm.sramHead
          sramCnt := mm.sramCnt + 1 } ∨
        mm' = { mm with
          ddrHead := n.region (mm.sramCnt + mm.ddrCnt) :: mm.ddrHead
          ddrCnt := mm.ddrCnt + 1 })) : CallInv version mm' := by
  obtain ⟨hlowSram, hlowDdr⟩ := List.forall_mem_append.mp h.low
  rcases hcases with rfl | ⟨hpos, rfl | rfl⟩
  · exact h
  · refine ⟨h.version, List.forall_mem_append.mpr ⟨?_, hlowDdr⟩, h.ids, fun r hr => ?_, h.ddrCnt⟩
    · exact List.forall_mem_cons.mpr ⟨RegionNode.region_low hpos hend _, hlowSram⟩
    · have := h.id_lt r hr
      dsimp only
      omega
  · refine ⟨h.version, List.forall_mem_append.mpr ⟨hlowSram, ?_⟩, ?_, ?_, ?_⟩
    · exact List.forall_mem_cons.mpr ⟨RegionNode.region_low hpos hend _, hlowDdr⟩
    · -- the new identifier is the number of regions, and the others are smaller
      refine List.nodup_cons.mpr ⟨fun hmem => ?_, h.ids⟩
      obtain ⟨r, hr, hid⟩ := List.mem_map.mp hmem
      have hnew : r.id = mm.sramCnt + mm.ddrCnt := hid
      have := h.id_lt r hr
      omega
    · refine List.forall_mem_cons.mpr ⟨?_, fun r hr => ?_⟩
      · exact Nat.lt_succ_self _
      · have := h.id_lt r hr
        dsimp only
        omega
    · exact congrArg Nat.succ h.ddrCnt

/-- Adding nodes keeps the invariant. -/
theorem CallInv.addRegions {version : AipuVersion} {nodes : List RegionNode}
    {mm mm' : AipuMemoryManager} (h : CallInv version mm)
    (hnodes : ∀ n ∈ nodes, n.base + n.bytes ≤ 2 ^ 63) (hadd : Aipu.addRegions nodes mm = some mm') :
    CallInv version mm' := by
  induction nodes generalizing mm with
  | nil => exact Option.some.inj hadd ▸ h
  | cons n ns ih =>
    obtain ⟨hn, hns⟩ := List.forall_mem_cons.mp hnodes
    obtain ⟨ret, mm₁, hone, hcases⟩ := aipuMmAddRegion_cases mm n
    rw [Aipu.addRegions, hone] at hadd
    exact ih (h.addRegion hn hcases) hns hadd

/-- The invariant holds in every state reached by calls that overtake no region. -/
theorem mmCallSystem_inv {version : AipuVersion} {nodes : List RegionNode} {mm : AipuMemoryManager}
    (hnodes : ∀ n ∈ nodes, n.base + n.bytes ≤ 2 ^ 63)
    (h : (mmCallSystem version nodes).Reachable NoneOvertaken mm) : CallInv version mm := by
  obtain ⟨tr, hrun⟩ := h
  refine hrun.stateInvariant (I := CallInv version) (fun mm hinit => ?_)
    fun mm a mm' es hI hC hst => ?_
  · have hempty : CallInv version (aipuInitMm version) :=
      ⟨rfl, by simp [AipuMemoryManager.regions, aipuInitMm], by simp [aipuInitMm],
        by simp [aipuInitMm], rfl⟩
    exact hempty.addRegions hnodes hinit
  · cases a with
    | alloc kz tid req buf =>
      change (match aipuMmAlloc kz tid mm req buf with
        | none => none | some r => some (r.mem, [r.ret])) = some (mm', es) at hst
      split at hst
      · cases hst
      next res halloc =>
        obtain ⟨rfl, -⟩ := Prod.mk.inj (Option.some.inj hst)
        exact (hI.alloc hC halloc).1
    | free desc =>
      cases hfree : aipuMmFree mm desc with
      | mk ret mm₁ =>
      have hst' : some (mm₁, [ret]) = some (mm', es) := by
        rw [← hst]
        simp only [mmCallSystem, mmCall, hfree]
      obtain ⟨rfl, -⟩ := Prod.mk.inj (Option.some.inj hst')
      exact hI.free hfree

/-! ## Exact allocations -/

/-- An allocation in exact arithmetic: a success takes whole pages inside a free block of the
requested region, a failure changes nothing, and the blocks tile every region afterwards. -/
structure AllocExact (mm : AipuMemoryManager) (req : BufRequest)
    (res : AllocResult AipuMemoryManager) : Prop where
  placed : res.ret = 0 → ∃ r ∈ mm.regions, r.id = req.regionId ∧ ∃ blk ∈ r.blkHead,
    blk.state = .free ∧ FitsIn blk res.buf.pa ((req.bytes + (pageSize - 1)) / pageSize * pageSize)
  unchanged : res.ret ≠ 0 → res.mem = mm
  tiles : ∀ r ∈ res.mem.regions, TileBlocks r.pa (r.pa + r.totBytes) r.blkHead

/-- **No wrap-around.**  In every state reached by calls that overtake no region, a request for a
read-only or stack buffer on the second version of the hardware is exact, whatever `kzalloc`
answers, iff it does not overtake the region that it asks for. -/
theorem roStack_exact_iff {nodes : List RegionNode}
    (hnodes : ∀ n ∈ nodes, n.base + n.bytes ≤ 2 ^ 63)
    {mm : AipuMemoryManager} (h : (mmCallSystem .zhouyiV2 nodes).Reachable NoneOvertaken mm)
    {req : BufRequest} (htype : req.dataType = aipuMmDataTypeRoStack)
    (hbytes : req.bytes < 2 ^ 64) :
    (∀ kz tid buf res, aipuMmAlloc kz tid mm req buf = some res → AllocExact mm req res) ↔
      ∀ r ∈ mm.ddrHead, r.id = req.regionId → ¬r.OvertakenBy req := by
  have hinv := mmCallSystem_inv hnodes h
  obtain ⟨-, hlowDdr⟩ := List.forall_mem_append.mp hinv.low
  have hselects : ∀ r, req.selects mm.version r = true ↔ r.id = req.regionId := by
    intro r
    rw [BufRequest.selects, if_pos ⟨hinv.version, htype⟩, decide_eq_true_eq, eq_comm]
  constructor
  · intro hexact r hr hid hover
    obtain ⟨pre, post, hl⟩ := List.append_of_mem hr
    have hpre : ∀ s ∈ pre, req.selects mm.version s = false := by
      intro s hs
      have hids := hinv.ids
      rw [hl, List.map_append, List.map_cons] at hids
      have hne := (List.nodup_append.mp hids).2.2 s.id
        (List.mem_map_of_mem hs) r.id List.mem_cons_self
      rw [← Bool.not_eq_true, hselects]
      exact fun hs' => hne (hs'.trans hid.symm)
    obtain ⟨out, htry, hout, hpos, hpass⟩ := hover.exists_try (hlowDdr r hr) 0 {}
    have hsize := getAllocSize_eq (hlowDdr r hr).flag hbytes hpos
    have hbytes0 : req.bytes ≠ 0 := by
      intro h0
      simp [getAllocSize, h0] at hpos
    have hcnt : mm.ddrCnt ≠ 0 := by
      rw [hinv.ddrCnt, hl]
      simp
    obtain ⟨res, hres, hret, hbuf⟩ := exists_alloc_of_try {} hbytes0
      hover.alignInPage_ne_zero hcnt hl hpre ((hselects r).mpr hid) htry hout
    -- no block reaches as far as the end of the range
    obtain ⟨s, hs, -, blk, hblk, -, -, hend⟩ := (hexact _ _ _ _ hres).placed hret
    have hbounds := ((hinv.low s hs).tiles.bounds hblk).2
    have hlow := (hinv.low s hs).end_le
    rw [← hsize, hbuf] at hend
    omega
  · intro hnone kz tid buf res halloc
    obtain ⟨hinv', hfail, hsuccess⟩ :=
      hinv.alloc (fun r hr hsel => hnone r hr ((hselects r).mp hsel)) halloc
    refine ⟨fun hret => ?_, hfail, fun r hr => (hinv'.low r hr).tiles⟩
    obtain ⟨r, hr, hsel, blk, hblk, hfree, hfit, hpos⟩ := hsuccess hret
    rw [getAllocSize_eq (hlowDdr r hr).flag hbytes hpos] at hfit
    exact ⟨r, List.mem_append_right _ hr, (hselects r).mp hsel, blk, hblk, hfree, hfit⟩

/-- The sample platform after a text buffer of one page was allocated. -/
def textMm : AipuMemoryManager :=
  { sampleMm with
    ddrHead := [{ id := 0,
                  blkHead := [⟨0x100000, 0x1000, 7, aipuMmDataTypeText, .allocated⟩,
                    ⟨0x101000, 0x7000, 0, aipuMmDataTypeNone, .free⟩],
                  pa := 0x100000, va := 0x40000000, totBytes := 0x8000, totFreeBytes := 0x7000,
                  flag := .compact, type := .reserved }] }

/-- The call for the text buffer overtakes no region. -/
theorem textMm_reachable :
    (mmCallSystem .zhouyiV2 sampleMap.nodes).Reachable NoneOvertaken textMm := by
  have hexec : (mmCallSystem .zhouyiV2 sampleMap.nodes).exec NoneOvertaken sampleMm
      [.alloc [] 7 { bytes := 4096, alignInPage := 1, dataType := aipuMmDataTypeText } {}] =
        some (textMm, [0]) := by decide +kernel
  exact ⟨_, System.run_of_exec bringUp_sample hexec⟩

/-- A stack of two pages next to the text buffer. -/
theorem roStack_exact_sample :
    0x2000 < 2 ^ 64 ∧ ∀ kz tid buf res,
      aipuMmAlloc kz tid textMm
        { bytes := 0x2000, alignInPage := 4, dataType := aipuMmDataTypeRoStack } buf =
        some res →
      AllocExact textMm
        { bytes := 0x2000, alignInPage := 4, dataType := aipuMmDataTypeRoStack } res :=
  ⟨by decide, (roStack_exact_iff (by decide) textMm_reachable rfl (by decide)).mpr
    (by decide +kernel)⟩

/-- A request for all but one page of the address space, aligned to four pages, is granted next to
the text buffer, and no block holds its range. -/
theorem roStack_overtakes :
    (mmCallSystem .zhouyiV2 sampleMap.nodes).Reachable NoneOvertaken textMm ∧
      ∃ res, aipuMmAlloc [] 7 textMm
          { bytes := 2 ^ 64 - 4096, alignInPage := 4, dataType := aipuMmDataTypeRoStack }
            {} = some res ∧
        res.ret = 0 ∧ ¬AllocExact textMm
          { bytes := 2 ^ 64 - 4096, alignInPage := 4, dataType := aipuMmDataTypeRoStack } res := by
  refine ⟨textMm_reachable, ?_⟩
  obtain ⟨res, hres, hret, hblocks⟩ : ∃ res, aipuMmAlloc [] 7 textMm
      { bytes := 2 ^ 64 - 4096, alignInPage := 4, dataType := aipuMmDataTypeRoStack }
        {} = some res ∧
      res.ret = 0 ∧ ¬∀ r ∈ res.mem.regions, (r.blkHead.map AipuBlock.bytes).sum = r.totBytes := by
    refine ⟨_, rfl, by decide +kernel, by decide +kernel⟩
  refine ⟨res, hres, hret, fun hexact => hblocks fun r hr => ?_⟩
  have := (hexact.tiles r hr).sum_len
  omega

end Aipu
