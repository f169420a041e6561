import AipuDriver.Lib.Tiling
import AipuDriver.Kmd.MemoryManager

/-!
# One memory region: representation invariant and the effect of its operations

The blocks of a region tile its address window, no two neighbours are free, and the free counter
is the total size of the free blocks (`AipuMemRegion.Inv`).  The abstract content of a region is
`AipuMemRegion.allocated`, the list of the ranges of its allocated blocks.  An allocation adds one
range to it (`Granted`), a release takes one away (`Released`); both keep the invariant and the
geometry of the region.

The searches compute in `u64` arithmetic.  The search from the back needs the region to start no
lower than its size (`AipuMemRegion.Placed`); the search from the front may place a request by a
wrapped address, and then the split refuses it.
-/

namespace Aipu

open ListSearch Word Tiling

/-! ## The invariant -/

/-- Whether a block is free. -/
def AipuBlock.isFree (blk : AipuBlock) : Bool := blk.state = .free

theorem AipuBlock.isFree_eq_true {blk : AipuBlock} :
    blk.isFree = true ↔ blk.state = .free := by simp [AipuBlock.isFree]

theorem AipuBlock.isFree_eq_false {blk : AipuBlock} :
    blk.isFree = false ↔ blk.state = .allocated := by
  cases h : blk.state <;> simp [AipuBlock.isFree, h]

/-- The blocks `l` tile `[a, b)`. -/
abbrev TileBlocks (a b : ℕ) (l : List AipuBlock) : Prop :=
  Tiles AipuBlock.pa AipuBlock.bytes a b l

/-- The ranges of the allocated blocks of a region, in order. -/
def AipuMemRegion.allocated (r : AipuMemRegion) : List (ℕ × ℕ) :=
  occupied AipuBlock.pa AipuBlock.bytes AipuBlock.isFree r.blkHead

/-- The triples of start, size and free mark of the blocks of a region, in order. -/
def AipuMemRegion.triples (r : AipuMemRegion) : List (ℕ × ℕ × Bool) :=
  r.blkHead.map (view AipuBlock.pa AipuBlock.bytes AipuBlock.isFree)

/-- The representation invariant of a region. -/
structure AipuMemRegion.Inv (r : AipuMemRegion) : Prop where
  /-- The blocks are non-empty, contiguous and tile the address window of the region. -/
  tiles : TileBlocks r.pa (r.pa + r.totBytes) r.blkHead
  /-- No two neighbouring blocks are both free. -/
  noFreePair : NoFreePair AipuBlock.isFree r.blkHead
  /-- The free counter is the total size of the free blocks. -/
  totFree : r.totFreeBytes = freeLen AipuBlock.bytes AipuBlock.isFree r.blkHead

/-- Where a region lies: its flag is the configured one, it starts no lower than its size, and its
end is a `u64`. -/
structure AipuMemRegion.Placed (r : AipuMemRegion) : Prop where
  flag : r.flag = .compact
  totBytes_le : r.totBytes ≤ r.pa
  end_lt : r.pa + r.totBytes < 2 ^ 64

/-- The fields of a region that no allocation and no release changes. -/
def AipuMemRegion.geometry (r : AipuMemRegion) :
    ℕ × ℕ × ℕ × ℕ × AipuAllocFlag × AipuMemType :=
  (r.id, r.pa, r.va, r.totBytes, r.flag, r.type)

/-- Placement depends on the geometry only. -/
theorem AipuMemRegion.Placed.of_geometry {r r' : AipuMemRegion} (h : r.Placed)
    (hg : r'.geometry = r.geometry) : r'.Placed := by
  simp only [geometry, Prod.mk.injEq] at hg
  obtain ⟨-, hpa, -, htot, hflag, -⟩ := hg
  exact ⟨hflag ▸ h.flag, hpa ▸ htot ▸ h.totBytes_le, hpa ▸ htot ▸ h.end_lt⟩

namespace AipuMemRegion.Inv

variable {r : AipuMemRegion}

/-- Free bytes and allocated bytes add up to the size of the region. -/
theorem totFree_add_allocated (h : r.Inv) :
    r.totFreeBytes + (r.allocated.map Prod.snd).sum = r.totBytes := by
  have htotal : r.pa + freeLen AipuBlock.bytes AipuBlock.isFree r.blkHead +
      (r.allocated.map Prod.snd).sum = r.pa + r.totBytes := h.tiles.freeLen_add_occupied
  rw [← h.totFree] at htotal
  omega

/-- The invariant follows from the tiling, the absence of free neighbours and the balance of the
free counter with the allocated ranges. -/
theorem of_balance (htiles : TileBlocks r.pa (r.pa + r.totBytes) r.blkHead)
    (hpair : NoFreePair AipuBlock.isFree r.blkHead)
    (hbal : r.totFreeBytes + (r.allocated.map Prod.snd).sum = r.totBytes) : r.Inv := by
  refine ⟨htiles, hpair, ?_⟩
  have htotal : r.pa + freeLen AipuBlock.bytes AipuBlock.isFree r.blkHead +
      (r.allocated.map Prod.snd).sum = r.pa + r.totBytes := htiles.freeLen_add_occupied
  omega

/-- An allocated range is not empty and lies in the window of its region. -/
theorem bounds (h : r.Inv) {x : ℕ × ℕ} (hx : x ∈ r.allocated) :
    0 < x.2 ∧ r.pa ≤ x.1 ∧ x.1 + x.2 ≤ r.pa + r.totBytes := by
  obtain ⟨blk, hblk, -, rfl⟩ := mem_occupied.mp hx
  exact ⟨h.tiles.len_pos hblk, h.tiles.bounds hblk⟩

/-- The allocated ranges are pairwise different. -/
theorem nodup (h : r.Inv) : r.allocated.Nodup := h.tiles.occupied_nodup

/-- Two allocated ranges that share a byte are the same range. -/
theorem eq_of_overlap (h : r.Inv) {x y : ℕ × ℕ} (hx : x ∈ r.allocated) (hy : y ∈ r.allocated)
    (hxy : x.1 < y.1 + y.2) (hyx : y.1 < x.1 + x.2) : x = y := by
  obtain ⟨b, hb, -, rfl⟩ := mem_occupied.mp hx
  obtain ⟨c, hc, -, rfl⟩ := mem_occupied.mp hy
  rw [h.tiles.eq_of_overlap hb hc hxy hyx]

end AipuMemRegion.Inv

/-! ## The effect of an allocation and of a release -/

/-- A buffer of whole pages. -/
def AipuBuffer.PageAligned (buf : AipuBuffer) : Prop :=
  buf.pa % pageSize = 0 ∧ buf.bytes % pageSize = 0

/-- `r'` is `r` with the range of `buf` allocated in it. -/
structure Granted (r r' : AipuMemRegion) (buf : AipuBuffer) : Prop where
  aligned : buf.PageAligned
  inv : r'.Inv
  geometry : r'.geometry = r.geometry
  allocated : r'.allocated.Perm ((buf.pa, buf.bytes) :: r.allocated)

/-- `r'` is `r` with the range `x` released. -/
structure Released (r r' : AipuMemRegion) (x : ℕ × ℕ) : Prop where
  inv : r'.Inv
  geometry : r'.geometry = r.geometry
  allocated : r.allocated.Perm (x :: r'.allocated)

/-! ## Searching a candidate block -/

/-- The size of an allocation in a compact region is at least the requested one. -/
theorem getAllocSize_bounds {r : AipuMemRegion} {n : ℕ} (hflag : r.flag = .compact) (hn : 0 < n)
    (hlt : n + 4095 < 2 ^ 64) : n ≤ getAllocSize r n ∧ getAllocSize r n ≤ n + 4095 := by
  have hoverflow : n + (pageSize - 1) < 2 ^ 64 := by unfold pageSize; omega
  have hsize : getAllocSize r n = maskAlign 64 n pageSize := by
    simp [getAllocSize, hflag, Nat.pos_iff_ne_zero.mp hn]
  rw [hsize]
  exact ⟨le_maskAlign (by decide) hoverflow, maskAlign_le (by decide) hoverflow⟩

/-- The size of an allocation in a compact region is a multiple of the page size. -/
theorem getAllocSize_aligned {r : AipuMemRegion} (hflag : r.flag = .compact) (n : ℕ) :
    getAllocSize r n % pageSize = 0 := by
  unfold getAllocSize
  split
  · rfl
  · rw [hflag]
    exact maskAlign_mod_two_pow (k := 12) (by decide) (by decide) (by decide)

/-- The size of an allocation is a word. -/
theorem getAllocSize_lt (r : AipuMemRegion) (n : ℕ) : getAllocSize r n < 2 ^ 64 := by
  unfold getAllocSize
  split
  · decide
  split
  · exact max_lt (by decide) (wrap_lt 64 _)
  · exact maskAlign_le_wrap.trans_lt (wrap_lt 64 _)
  · decide

/-- The request of `bytes` bytes at `start` lies in the block `blk`. -/
def FitsIn (blk : AipuBlock) (start bytes : ℕ) : Prop :=
  blk.pa ≤ start ∧ start + bytes ≤ blk.pa + blk.bytes

/-- The split refuses the request: its last byte is, in `u64` arithmetic, outside the block. -/
def Refused (blk : AipuBlock) (start bytes : ℕ) : Prop :=
  wrapSub 64 (wrap 64 (start + bytes)) 1 < blk.pa ∨
    wrapSub 64 (wrap 64 (blk.pa + blk.bytes)) 1 < wrapSub 64 (wrap 64 (start + bytes)) 1

section Search

variable {blk : AipuBlock} {bytes alignment start : ℕ}

/-- The last address of a non-empty range whose end is a word. -/
theorem lastAddr_eq {n : ℕ} (hn : 0 < n) (hlt : n < 2 ^ 64) :
    wrapSub 64 (wrap 64 n) 1 = n - 1 := by
  rw [wrap_of_lt hlt, wrapSub_of_le hlt hn]

/-- A request whose end has wrapped around to no more than the start of the block is refused. -/
theorem refused_of_wrapped (hblk : 0 < blk.bytes) (hend : blk.pa + blk.bytes < 2 ^ 64)
    (hsmall : wrap 64 (start + bytes) ≤ blk.pa) : Refused blk start bytes := by
  unfold Refused
  rw [lastAddr_eq (by omega) hend]
  rcases Nat.eq_zero_or_pos (wrap 64 (start + bytes)) with h | h
  · rw [h, wrapSub_zero_one]
    omega
  · rw [wrapSub_of_le (wrap_lt _ _) h]
    omega

/-- The search from the front places the request inside a free block, or at an address that has
wrapped around and that the split refuses. -/
theorem forwardStart_spec (hblk : 0 < blk.bytes) (hend : blk.pa + blk.bytes < 2 ^ 64)
    (hb : bytes + alignment ≤ 2 ^ 64) (ha : 0 < alignment) (ha' : alignment < 2 ^ 64)
    (h : forwardStart bytes alignment blk = some start) :
    blk.state = .free ∧ (FitsIn blk start bytes ∨ Refused blk start bytes) := by
  unfold forwardStart at h
  split at h
  case isFalse => cases h
  case isTrue hstate =>
    have hfree : blk.state = .free := by cases hs : blk.state <;> simp_all
    obtain ⟨hle, hstart⟩ := Option.ite_none_right_eq_some.mp h
    obtain rfl : maskAlign 64 blk.pa alignment = start := Option.some.inj hstart
    rw [wrap_of_lt hend] at hle
    refine ⟨hfree, ?_⟩
    rcases Nat.lt_or_ge (blk.pa + (alignment - 1)) (2 ^ 64) with hno | hover
    · have hge := le_maskAlign ha hno
      have hub := maskAlign_le ha hno
      rcases Nat.lt_or_ge (maskAlign 64 blk.pa alignment + bytes) (2 ^ 64) with hsum | hsum
      · rw [wrap_of_lt hsum] at hle
        exact .inl ⟨hge, hle⟩
      · -- the aligned start is still a word, but the end of the request is not
        refine .inr (refused_of_wrapped hblk hend ?_)
        have : wrap 64 (maskAlign 64 blk.pa alignment + bytes) =
            maskAlign 64 blk.pa alignment + bytes - 2 ^ 64 := by
          rw [wrap, Nat.mod_eq_sub_mod hsum, Nat.mod_eq_of_lt (by omega)]
        omega
    · -- the aligned start itself has wrapped around
      refine .inr (refused_of_wrapped hblk hend ?_)
      have hmask : wrapSub 64 alignment 1 = alignment - 1 := wrapSub_of_le (by omega) ha
      have hsmall : wrap 64 (blk.pa + (alignment - 1)) = blk.pa + (alignment - 1) - 2 ^ 64 := by
        rw [wrap, Nat.mod_eq_sub_mod hover, Nat.mod_eq_of_lt (by omega)]
      have hle' : maskAlign 64 blk.pa alignment ≤ wrap 64 (blk.pa + wrapSub 64 alignment 1) :=
        maskAlign_le_wrap
      rw [hmask, hsmall] at hle'
      exact (wrap_le _ _).trans (by omega)

/-- The search from the back places the request inside a free block, when the block ends no lower
than the size of the request. -/
theorem reverseStart_spec (hend : blk.pa + blk.bytes < 2 ^ 64) (hb : bytes ≤ blk.pa + blk.bytes)
    (ha' : alignment < 2 ^ 32) (h : reverseStart bytes alignment blk = some start) :
    blk.state = .free ∧ FitsIn blk start bytes := by
  unfold reverseStart at h
  split at h
  case isFalse => cases h
  case isTrue hstate =>
    have hfree : blk.state = .free := by cases hs : blk.state <;> simp_all
    obtain ⟨⟨hge, hle⟩, hstart⟩ := Option.ite_none_right_eq_some.mp h
    rw [wrap_of_lt hend, wrapSub_of_le hend hb, wrap_of_lt ha'] at hge hle hstart
    have hmul := Nat.div_mul_le_self (blk.pa + blk.bytes - bytes) alignment
    have hlt : (blk.pa + blk.bytes - bytes) / alignment * alignment < 2 ^ 64 := by omega
    rw [wrap_of_lt hlt] at hge hle hstart
    obtain rfl := Option.some.inj hstart
    exact ⟨hfree, hge, by omega⟩

/-- Both directions compute a start on a page. -/
theorem start_aligned (ha : 0 < alignment) (ha' : alignment < 2 ^ 32)
    (hpage : alignment % pageSize = 0)
    (h : forwardStart bytes alignment blk = some start ∨
      reverseStart bytes alignment blk = some start) : start % pageSize = 0 := by
  have hdvd : 2 ^ 12 ∣ alignment := Nat.dvd_of_mod_eq_zero hpage
  rcases h with h | h
  · obtain ⟨-, h⟩ := Option.ite_none_right_eq_some.mp h
    obtain ⟨-, h⟩ := Option.ite_none_right_eq_some.mp h
    obtain rfl := Option.some.inj h
    exact maskAlign_mod_two_pow (k := 12) ha (by omega) hdvd
  · obtain ⟨-, h⟩ := Option.ite_none_right_eq_some.mp h
    obtain ⟨-, h⟩ := Option.ite_none_right_eq_some.mp h
    obtain rfl := Option.some.inj h
    have hword : 2 ^ 12 ∣ 2 ^ 64 := Nat.pow_dvd_pow 2 (by decide)
    exact Nat.mod_eq_zero_of_dvd ((Nat.dvd_mod_iff hword).mpr (Dvd.dvd.mul_left hdvd _))

end Search

/-- Whether requests of a data type are searched from the front. -/
def SearchesForward (dataType : ℕ) : Prop :=
  dataType = aipuMmDataTypeText ∨ dataType = aipuMmDataTypeRoStack

/-- The direction of the search can be computed. -/
instance searchesForwardDecidable (dataType : ℕ) : Decidable (SearchesForward dataType) :=
  inferInstanceAs (Decidable (_ ∨ _))

section Candidate

variable {head : List AipuBlock} {bytes alignment dataType start : ℕ}
    {c : Cursor AipuBlock} {ret : ℤ}

/-- The loop over the blocks, in the direction of the data type. -/
def findCandidate (head : List AipuBlock) (bytes alignment dataType : ℕ) :
    Option (Cursor AipuBlock × ℕ) :=
  if SearchesForward dataType then findFirst (forwardStart bytes alignment) head
  else findLast (reverseStart bytes alignment) head

/-- On valid arguments the search is its loop. -/
theorem aipuMmFindBlockCandidateNoLock_eq (hb : 0 < bytes) (ha : 0 < alignment)
    (hpage : alignment % pageSize = 0) :
    aipuMmFindBlockCandidateNoLock head bytes alignment dataType =
      (findCandidate head bytes alignment dataType).elim (.error (-enomem)) .ok := by
  have hargs : ¬(bytes = 0 ∨ alignment = 0 ∨ alignment % pageSize ≠ 0) := by omega
  have hloop : (if dataType = aipuMmDataTypeText ∨ dataType = aipuMmDataTypeRoStack then
      findFirst (forwardStart bytes alignment) head
    else findLast (reverseStart bytes alignment) head) =
      findCandidate head bytes alignment dataType := rfl
  rw [aipuMmFindBlockCandidateNoLock, if_neg hargs]
  simp only [hloop]
  cases findCandidate head bytes alignment dataType <;> rfl

/-- The search succeeds when its arguments are valid and the loop stops at a block. -/
theorem aipuMmFindBlockCandidateNoLock_eq_ok :
    aipuMmFindBlockCandidateNoLock head bytes alignment dataType = .ok (c, start) ↔
      0 < bytes ∧ 0 < alignment ∧ alignment % pageSize = 0 ∧
        findCandidate head bytes alignment dataType = some (c, start) := by
  by_cases hargs : 0 < bytes ∧ 0 < alignment ∧ alignment % pageSize = 0
  · obtain ⟨hb, ha, hpage⟩ := hargs
    rw [aipuMmFindBlockCandidateNoLock_eq hb ha hpage]
    cases findCandidate head bytes alignment dataType <;> simp [hb, ha, hpage]
  · have hzero : bytes = 0 ∨ alignment = 0 ∨ alignment % pageSize ≠ 0 := by omega
    rw [aipuMmFindBlockCandidateNoLock, if_pos hzero]
    exact iff_of_false (by intro h; cases h) fun h => hargs ⟨h.1, h.2.1, h.2.2.1⟩

/-- It fails on valid arguments when the loop stops nowhere. -/
theorem aipuMmFindBlockCandidateNoLock_eq_error (hb : 0 < bytes) (ha : 0 < alignment)
    (hpage : alignment % pageSize = 0) :
    aipuMmFindBlockCandidateNoLock head bytes alignment dataType = .error ret ↔
      -enomem = ret ∧ findCandidate head bytes alignment dataType = none := by
  rw [aipuMmFindBlockCandidateNoLock_eq hb ha hpage]
  cases findCandidate head bytes alignment dataType <;> simp

/-- What the candidate search returns: a position of the block list, and the start that one of the
two directions computes for the block there. -/
theorem aipuMmFindBlockCandidateNoLock_spec
    (h : aipuMmFindBlockCandidateNoLock head bytes alignment dataType = .ok (c, start)) :
    head = c.toList ∧ 0 < bytes ∧ 0 < alignment ∧ alignment % pageSize = 0 ∧
      (SearchesForward dataType ∧ forwardStart bytes alignment c.entry = some start ∨
        ¬SearchesForward dataType ∧ reverseStart bytes alignment c.entry = some start) := by
  obtain ⟨hb, ha, hpage, hfound⟩ := aipuMmFindBlockCandidateNoLock_eq_ok.mp h
  unfold findCandidate at hfound
  by_cases hdir : SearchesForward dataType
  · rw [if_pos hdir] at hfound
    obtain ⟨hl, hstart, -⟩ := findFirst_eq_some hfound
    exact ⟨hl, hb, ha, hpage, .inl ⟨hdir, hstart⟩⟩
  · rw [if_neg hdir] at hfound
    obtain ⟨hl, hstart, -⟩ := findLast_eq_some hfound
    exact ⟨hl, hb, ha, hpage, .inr ⟨hdir, hstart⟩⟩

/-- A failed candidate search returns an error code. -/
theorem aipuMmFindBlockCandidateNoLock_error
    (h : aipuMmFindBlockCandidateNoLock head bytes alignment dataType = .error ret) : ret ≠ 0 := by
  unfold aipuMmFindBlockCandidateNoLock at h
  split at h
  · obtain rfl := Except.error.inj h
    decide
  · dsimp only at h
    split at h
    · cases h
    · obtain rfl := Except.error.inj h
      decide

end Candidate

/-! ## Splitting a block -/

/-- The blocks `seg` that a split puts in the place of `blk`: they tile `blk`, and exactly
`[start, start + bytes)` is allocated in them. -/
structure SplitOf (blk : AipuBlock) (start bytes : ℕ) (seg : List AipuBlock) : Prop where
  tiles : TileBlocks blk.pa (blk.pa + blk.bytes) seg
  noFreePair : NoFreePair AipuBlock.isFree seg
  allocated : occupied AipuBlock.pa AipuBlock.bytes AipuBlock.isFree seg = [(start, bytes)]

/-- A split of a free block into its front, the request and its back, where the front and the back
may be missing. -/
theorem splitOf_parts {blk : AipuBlock} (front : List AipuBlock) (blkA : AipuBlock)
    (back : List AipuBlock)
    (hA : blkA.state = .allocated) (hpos : 0 < blkA.bytes)
    (hfront : front = [] ∧ blkA.pa = blk.pa ∨
      ∃ f, front = [f] ∧ f.state = .free ∧ f.pa = blk.pa ∧ 0 < f.bytes ∧ f.pa + f.bytes = blkA.pa)
    (hback : back = [] ∧ blkA.pa + blkA.bytes = blk.pa + blk.bytes ∨
      ∃ b, back = [b] ∧ b.state = .free ∧ b.pa = blkA.pa + blkA.bytes ∧ 0 < b.bytes ∧
        b.pa + b.bytes = blk.pa + blk.bytes) :
    SplitOf blk blkA.pa blkA.bytes (front ++ blkA :: back) := by
  have hAf : blkA.isFree = false := AipuBlock.isFree_eq_false.mpr hA
  have hback' : TileBlocks blkA.pa (blk.pa + blk.bytes) (blkA :: back) ∧
      NoFreePair AipuBlock.isFree (blkA :: back) ∧
      occupied AipuBlock.pa AipuBlock.bytes AipuBlock.isFree (blkA :: back) =
        [(blkA.pa, blkA.bytes)] := by
    rcases hback with ⟨rfl, hend⟩ | ⟨b, rfl, hb, hpa, hlen, hend⟩
    · exact ⟨⟨rfl, hpos, hend⟩, .singleton _, occupied_cons_occ hAf⟩
    · have hbf : b.isFree = true := AipuBlock.isFree_eq_true.mpr hb
      refine ⟨⟨rfl, hpos, hpa, hlen, ?_⟩, ?_, ?_⟩
      · rw [tiles_nil]
        omega
      · exact List.isChain_cons_cons.mpr ⟨by simp [hAf], .singleton _⟩
      · rw [occupied_cons_occ hAf, occupied_cons_free hbf, occupied_nil]
  obtain ⟨htiles, hpair, hocc⟩ := hback'
  rcases hfront with ⟨rfl, hpa⟩ | ⟨f, rfl, hf, hpa, hlen, hend⟩
  · exact ⟨hpa ▸ htiles, hpair, hocc⟩
  · have hff : f.isFree = true := AipuBlock.isFree_eq_true.mpr hf
    refine ⟨⟨hpa, hlen, ?_⟩, ?_, ?_⟩
    · rw [show blk.pa + f.bytes = blkA.pa by omega]
      exact htiles
    · exact List.isChain_cons_cons.mpr ⟨by simp [hAf], hpair⟩
    · rw [List.singleton_append, occupied_cons_free hff, hocc]

/-- The first answer of `kzalloc` decides whether a block is created. -/
theorem createBlock_spec {kz kz' : Oracle} {base bytes type : ℕ} {tid : ℤ} {state : AipuBlkState}
    {blk : AipuBlock} (h : createBlock kz base bytes tid type state = (some blk, kz')) :
    blk = ⟨base, bytes, tid, type, state⟩ := by
  unfold createBlock at h
  split at h
  simp only [Prod.mk.injEq] at h
  exact (Option.some.inj (Option.ite_none_right_eq_some.mp h.1).2.symm)

/-- A split either fails and leaves the block list alone, or replaces a free block by a split of
it. -/
theorem aipuMmSplitBlockNoLock_spec {kz kz' : Oracle} {tid ret : ℤ} {c : Cursor AipuBlock}
    {start bytes type : ℕ} {l : List AipuBlock} (hfree : c.entry.state = .free)
    (hblk : 0 < c.entry.bytes) (hend : c.entry.pa + c.entry.bytes < 2 ^ 64) (hb : 0 < bytes)
    (hfit : FitsIn c.entry start bytes ∨ Refused c.entry start bytes)
    (h : aipuMmSplitBlockNoLock kz tid c start bytes type = some (ret, l, kz')) :
    (ret ≠ 0 ∧ l = c.toList) ∨
      (ret = 0 ∧ ∃ seg, l = c.before ++ seg ++ c.after ∧ SplitOf c.entry start bytes seg) := by
  unfold aipuMmSplitBlockNoLock at h
  by_cases hguard : Refused c.entry start bytes
  · rw [if_pos (.inr hguard)] at h
    obtain ⟨rfl, rfl, -⟩ : -einval = ret ∧ c.toList = l ∧ kz = kz' := by simpa using h
    exact .inl ⟨by decide, rfl⟩
  obtain ⟨hlo, hhi⟩ : FitsIn c.entry start bytes := hfit.resolve_right hguard
  have hlast : wrapSub 64 (wrap 64 (start + bytes)) 1 = start + bytes - 1 :=
    lastAddr_eq (by omega) (by omega)
  have htarget : wrapSub 64 (wrap 64 (c.entry.pa + c.entry.bytes)) 1 =
      c.entry.pa + c.entry.bytes - 1 := lastAddr_eq (by omega) hend
  simp only [hlast, htarget] at h
  rw [if_neg (by omega)] at h
  split at h
  case isTrue hwhole =>
    -- the request is the whole block
    simp only [Option.some.injEq, Prod.mk.injEq] at h
    obtain ⟨rfl, rfl, -⟩ := h
    refine .inr ⟨rfl, _, rfl, ?_⟩
    obtain ⟨rfl, hlen⟩ : start = c.entry.pa ∧ bytes = c.entry.bytes := by omega
    subst hlen
    exact splitOf_parts [] { c.entry with tid := tid, type := type, state := .allocated } [] rfl
      hblk (.inl ⟨rfl, rfl⟩) (.inl ⟨rfl, rfl⟩)
  case isFalse hwhole =>
    cases hA : createBlock kz start bytes tid type .allocated with
    | mk o kz₁ =>
    cases o with
    | none =>
      simp only [hA, Option.some.injEq, Prod.mk.injEq] at h
      obtain ⟨rfl, rfl, -⟩ := h
      exact .inl ⟨by decide, rfl⟩
    | some blkA =>
      obtain rfl := createBlock_spec hA
      have hsub : wrapSub 64 c.entry.bytes bytes = c.entry.bytes - bytes :=
        wrapSub_of_le (by omega) (by omega)
      simp only [hA, hsub] at h
      split at h
      case isTrue hfront =>
        -- the request is the front of the block
        simp only [Option.some.injEq, Prod.mk.injEq] at h
        obtain ⟨rfl, rfl, -⟩ := h
        refine .inr ⟨rfl, _, rfl, ?_⟩
        rw [wrap_of_lt (by omega)]
        refine splitOf_parts [] ⟨start, bytes, tid, type, .allocated⟩ [_] rfl hb
          (.inl ⟨rfl, hfront.1⟩) (.inr ⟨_, rfl, hfree, ?_, ?_, ?_⟩) <;> dsimp only <;> omega
      case isFalse hfront =>
        split at h
        case isTrue hback =>
          -- the request is the back of the block
          simp only [Option.some.injEq, Prod.mk.injEq] at h
          obtain ⟨rfl, rfl, -⟩ := h
          refine .inr ⟨rfl, _, rfl, ?_⟩
          refine splitOf_parts [_] ⟨start, bytes, tid, type, .allocated⟩ [] rfl hb
            (.inr ⟨_, rfl, hfree, rfl, ?_, ?_⟩) (.inl ⟨rfl, ?_⟩) <;> dsimp only <;> omega
        case isFalse hback =>
          -- the request is in the middle of the block
          have hsuc : wrap 64 (start + bytes - 1 + 1) = start + bytes := by
            rw [wrap_of_lt (by omega)]
            omega
          have hfrontLen : wrapSub 64 start c.entry.pa = start - c.entry.pa :=
            wrapSub_of_le (by omega) hlo
          have hbackLen : wrapSub 64 (c.entry.pa + c.entry.bytes - 1) (start + bytes - 1) =
              c.entry.pa + c.entry.bytes - 1 - (start + bytes - 1) :=
            wrapSub_of_le (by omega) (by omega)
          simp only [hsuc, hfrontLen, hbackLen] at h
          cases hB : createBlock kz₁ (start + bytes)
              (c.entry.pa + c.entry.bytes - 1 - (start + bytes - 1)) tid type .free with
          | mk o kz₂ =>
          cases o with
          | none => simp [hB] at h
          | some back =>
            obtain rfl := createBlock_spec hB
            simp only [hB, Option.some.injEq, Prod.mk.injEq] at h
            obtain ⟨rfl, rfl, -⟩ := h
            refine .inr ⟨rfl, _, rfl, ?_⟩
            refine splitOf_parts [_] ⟨start, bytes, tid, type, .allocated⟩ [_] rfl hb
              (.inr ⟨_, rfl, hfree, rfl, ?_, ?_⟩) (.inr ⟨_, rfl, rfl, rfl, ?_, ?_⟩) <;>
              dsimp only <;> omega

/-! ## Allocation in a region -/

section Allocation

variable {kz : Oracle} {tid : ℤ} {r : AipuMemRegion} {req : BufRequest} {buf : AipuBuffer}
  {res : AllocResult AipuMemRegion}

/-- A request that the region can be tried for: it is searched from the front and its end does not
come round to its start, or the region has enough free bytes. -/
def AipuMemRegion.Serves (r : AipuMemRegion) (req : BufRequest) : Prop :=
  (SearchesForward req.dataType ∧ getAllocSize r req.bytes + 2 ^ 32 ≤ 2 ^ 64) ∨
    getAllocSize r req.bytes ≤ r.totFreeBytes

/-- What the search of a region finds for a request. -/
def AipuMemRegion.candidate (r : AipuMemRegion) (req : BufRequest) :
    Except ℤ (Cursor AipuBlock × ℕ) :=
  aipuMmFindBlockCandidateNoLock r.blkHead (getAllocSize r req.bytes)
    (wrap 32 (req.alignInPage * 4 * 1024)) req.dataType

/-- The search for a request that the region serves places it inside a free block, or where the
split refuses it. -/
theorem AipuMemRegion.Serves.placed {c : Cursor AipuBlock} {start : ℕ} (hserves : r.Serves req)
    (hr : r.Inv) (hp : r.Placed) (hfind : r.candidate req = .ok (c, start)) :
    c.entry.state = .free ∧ (FitsIn c.entry start (getAllocSize r req.bytes) ∨
      Refused c.entry start (getAllocSize r req.bytes)) := by
  obtain ⟨hl, hb, ha, -, hstart⟩ := aipuMmFindBlockCandidateNoLock_spec hfind
  have halign := wrap_lt 32 (req.alignInPage * 4 * 1024)
  have hmem : c.entry ∈ r.blkHead := hl ▸ c.entry_mem
  obtain ⟨hlo, hhi⟩ := hr.tiles.bounds hmem
  have hblk := hr.tiles.len_pos hmem
  have hend := hp.end_lt
  have hbal := hr.totFree_add_allocated
  have hle := hp.totBytes_le
  rcases hstart with ⟨-, hfwd⟩ | ⟨hnot, hrev⟩
  · refine forwardStart_spec hblk (by omega) ?_ ha (by omega) hfwd
    rcases hserves with hserves | hserves <;> omega
  · have hfree := hserves.resolve_left fun hfwd => hnot hfwd.1
    obtain ⟨hstate, hfit⟩ := reverseStart_spec (by omega) (by omega) halign hrev
    exact ⟨hstate, .inl hfit⟩

/-- A split that fails leaves the block list alone. -/
theorem aipuMmSplitBlockNoLock_failed {kz' : Oracle} {c : Cursor AipuBlock} {start bytes type : ℕ}
    {ret : ℤ} {l : List AipuBlock}
    (h : aipuMmSplitBlockNoLock kz tid c start bytes type = some (ret, l, kz')) (hret : ret ≠ 0) :
    l = c.toList := by
  unfold aipuMmSplitBlockNoLock at h
  dsimp only at h
  split at h
  · exact (Prod.mk.inj (Prod.mk.inj (Option.some.inj h)).2).1.symm
  split at h
  · exact absurd (Prod.mk.inj (Option.some.inj h)).1.symm hret
  split at h
  · exact (Prod.mk.inj (Prod.mk.inj (Option.some.inj h)).2).1.symm
  -- once a block was created the code is zero
  split at h
  · exact absurd (Prod.mk.inj (Option.some.inj h)).1.symm hret
  split at h
  · exact absurd (Prod.mk.inj (Option.some.inj h)).1.symm hret
  split at h
  · cases h
  · exact absurd (Prod.mk.inj (Option.some.inj h)).1.symm hret

/-- An allocation in the region that succeeds: the search stops at the block of `c` with the address
`start`, which the split takes. -/
structure PlacedBy (kz : Oracle) (tid : ℤ) (r : AipuMemRegion) (req : BufRequest)
    (res : AllocResult AipuMemRegion) (c : Cursor AipuBlock) (start : ℕ) : Prop where
  found : r.candidate req = .ok (c, start)
  split : ∃ kz', aipuMmSplitBlockNoLock kz tid c start (getAllocSize r req.bytes) req.dataType =
    some (0, res.mem.blkHead, kz')
  mem : res.mem = { r with
    blkHead := res.mem.blkHead
    totFreeBytes := wrapSub 64 r.totFreeBytes (getAllocSize r req.bytes) }
  pa : res.buf.pa = start
  bytes : res.buf.bytes = getAllocSize r req.bytes

/-- The call through a region's table is `aipuMmAllocInRegionNoLock` for both kinds of region. -/
theorem AipuMemRegion.allocInRegion_eq : r.allocInRegion = aipuMmAllocInRegionNoLock := by
  rw [AipuMemRegion.allocInRegion]
  split <;> rfl

/-- A try in a region, whatever its blocks are, either fails and changes nothing, or takes the place
that the search finds. -/
theorem aipuMmTryAllocInRegion_cases (h : aipuMmTryAllocInRegion kz tid r req buf = some res) :
    (res.ret ≠ 0 ∧ res.mem = r ∧ res.req = req ∧ res.buf = buf) ∨
      (res.ret = 0 ∧ ∃ c start, PlacedBy kz tid r req res c start) := by
  unfold aipuMmTryAllocInRegion at h
  rw [AipuMemRegion.allocInRegion_eq, aipuMmAllocInRegionNoLock] at h
  dsimp only at h
  rw [← AipuMemRegion.candidate] at h
  cases hfind : r.candidate req with
  | error ret =>
    have hret : ret ≠ 0 := aipuMmFindBlockCandidateNoLock_error hfind
    simp only [hfind, if_neg hret, Option.some.injEq] at h
    subst h
    exact .inl ⟨hret, rfl, rfl, rfl⟩
  | ok found =>
    obtain ⟨c, start⟩ := found
    obtain ⟨hl, -⟩ := aipuMmFindBlockCandidateNoLock_spec hfind
    cases hsplit : aipuMmSplitBlockNoLock kz tid c start (getAllocSize r req.bytes)
        req.dataType with
    | none => simp [hfind, hsplit] at h
    | some out =>
      obtain ⟨ret, l, kz'⟩ := out
      simp only [hfind, hsplit] at h
      by_cases hret : ret = 0
      · subst hret
        simp only [ne_eq, not_true_eq_false, if_false, if_true, Option.some.injEq] at h
        subst h
        exact .inr ⟨rfl, c, start, hfind, ⟨kz', hsplit⟩, rfl, rfl, rfl⟩
      · have hnomem : (-enomem : ℤ) ≠ 0 := by decide
        obtain rfl := aipuMmSplitBlockNoLock_failed hsplit hret
        simp only [ne_eq, hret, not_false_eq_true, if_true, if_neg hnomem, Option.some.injEq] at h
        subst h
        exact .inl ⟨hnomem, by rw [← hl], rfl, rfl⟩

/-- The effect of splitting a free block of a region and taking its bytes off the counter. -/
theorem granted_of_split (buf : AipuBuffer) {c : Cursor AipuBlock} {seg : List AipuBlock}
    (hr : r.Inv) (hp : r.Placed) (hl : r.blkHead = c.toList) (hstate : c.entry.state = .free)
    (hseg : SplitOf c.entry buf.pa buf.bytes seg) (haligned : buf.PageAligned) :
    Granted r { r with
      blkHead := c.before ++ seg ++ c.after
      totFreeBytes := wrapSub 64 r.totFreeBytes buf.bytes } buf := by
  have hfree : c.entry.isFree = true := AipuBlock.isFree_eq_true.mpr hstate
  have htiles := hr.tiles
  have hpair := hr.noFreePair
  rw [hl, Cursor.toList] at htiles hpair
  have hold : r.allocated = occupied AipuBlock.pa AipuBlock.bytes AipuBlock.isFree c.before ++
      occupied AipuBlock.pa AipuBlock.bytes AipuBlock.isFree c.after := by
    rw [AipuMemRegion.allocated, hl, Cursor.toList, occupied_append, occupied_cons_free hfree]
  have hperm : (occupied AipuBlock.pa AipuBlock.bytes AipuBlock.isFree
      (c.before ++ seg ++ c.after)).Perm ((buf.pa, buf.bytes) :: r.allocated) := by
    rw [occupied_append, occupied_append, hseg.allocated, hold, List.append_assoc]
    exact List.perm_middle
  have hnewTiles := htiles.splice hseg.tiles
  have hbal := hr.totFree_add_allocated
  have htotal : r.pa + freeLen AipuBlock.bytes AipuBlock.isFree (c.before ++ seg ++ c.after) +
      ((occupied AipuBlock.pa AipuBlock.bytes AipuBlock.isFree
        (c.before ++ seg ++ c.after)).map Prod.snd).sum = r.pa + r.totBytes :=
    hnewTiles.freeLen_add_occupied
  have hsum := (hperm.map Prod.snd).sum_nat
  rw [List.map_cons, List.sum_cons] at hsum
  have hend := hp.end_lt
  refine ⟨haligned, .of_balance hnewTiles (hpair.splice hfree hseg.noFreePair) ?_, rfl, hperm⟩
  show wrapSub 64 r.totFreeBytes buf.bytes + ((occupied AipuBlock.pa AipuBlock.bytes
    AipuBlock.isFree (c.before ++ seg ++ c.after)).map Prod.snd).sum = r.totBytes
  rw [wrapSub_of_le (by omega) (by omega)]
  omega

/-- A try in a region either fails and changes nothing, or grants a range. -/
theorem aipuMmTryAllocInRegion_spec (hr : r.Inv) (hp : r.Placed) (hserves : r.Serves req)
    (h : aipuMmTryAllocInRegion kz tid r req buf = some res) :
    (res.ret ≠ 0 ∧ res.mem = r ∧ res.req = req ∧ res.buf = buf) ∨
      (res.ret = 0 ∧ Granted r res.mem res.buf) := by
  refine (aipuMmTryAllocInRegion_cases h).imp_right ?_
  rintro ⟨hret, c, start, hplaced⟩
  obtain ⟨hl, hb, ha, hpage, hstart⟩ := aipuMmFindBlockCandidateNoLock_spec hplaced.found
  have hmem : c.entry ∈ r.blkHead := hl ▸ c.entry_mem
  have hhi := (hr.tiles.bounds hmem).2
  have hend := hp.end_lt
  obtain ⟨hstate, hfit⟩ := hserves.placed hr hp hplaced.found
  obtain ⟨kz', hsplit⟩ := hplaced.split
  rcases aipuMmSplitBlockNoLock_spec hstate (hr.tiles.len_pos hmem) (by omega) hb hfit hsplit with
    ⟨hne, -⟩ | ⟨-, seg, hblk, hseg⟩
  · exact absurd rfl hne
  · rw [← hplaced.pa, ← hplaced.bytes] at hseg
    have haligned : res.buf.PageAligned := by
      refine ⟨?_, ?_⟩
      · rw [hplaced.pa]
        exact start_aligned ha (wrap_lt 32 _) hpage (hstart.imp And.right And.right)
      · rw [hplaced.bytes]
        exact getAllocSize_aligned hp.flag _
    rw [hplaced.mem, hblk, ← hplaced.bytes]
    exact ⟨hret, granted_of_split res.buf hr hp hl hstate hseg haligned⟩

/-- When every `kzalloc` succeeds, a split returns and uses no answer up. -/
theorem aipuMmSplitBlockNoLock_total (tid : ℤ) (c : Cursor AipuBlock) (start bytes type : ℕ) :
    ∃ ret l, aipuMmSplitBlockNoLock [] tid c start bytes type = some (ret, l, []) := by
  unfold aipuMmSplitBlockNoLock
  simp only [createBlock, Oracle.next, if_true]
  split_ifs <;> exact ⟨_, _, rfl⟩

/-- When every `kzalloc` succeeds, a try in a region returns. -/
theorem aipuMmTryAllocInRegion_total :
    ∃ res, aipuMmTryAllocInRegion [] tid r req buf = some res ∧ res.kz = [] := by
  have hin : ∃ res, aipuMmAllocInRegionNoLock [] tid r req buf = some res ∧ res.kz = [] := by
    unfold aipuMmAllocInRegionNoLock
    dsimp only
    split
    · exact ⟨_, rfl, rfl⟩
    · rename_i c start _
      obtain ⟨ret, l, hsplit⟩ :=
        aipuMmSplitBlockNoLock_total tid c start (getAllocSize r req.bytes) req.dataType
      simp only [hsplit]
      split_ifs <;> exact ⟨_, rfl, rfl⟩
  obtain ⟨res, hres, hkz⟩ := hin
  unfold aipuMmTryAllocInRegion
  simp only [AipuMemRegion.allocInRegion_eq, hres]
  split_ifs
  · exact ⟨_, rfl, hkz⟩
  · exact ⟨_, rfl, hkz⟩

end Allocation

/-! ## Release in a region -/

section Release

variable {before after before' after' : List AipuBlock} {target target' : AipuBlock} {a b : ℕ}

/-- The merge with the block before: the last block there is free and takes the freed one in, or
both stay, and then a block there is the sentinel or not free. -/
theorem mergePrev_cases (h : mergePrev before target = (before', target')) :
    (∃ prev, before = before' ++ [prev] ∧ prev.bytes ≠ 0 ∧ prev.state = .free ∧
        target' = { prev with bytes := wrap 64 (prev.bytes + target.bytes) }) ∨
      (before' = before ∧ target' = target ∧
        ∀ prev ∈ before.getLast?, ¬(prev.bytes ≠ 0 ∧ prev.state = .free)) := by
  rcases List.eq_nil_or_concat before with rfl | ⟨init, prev, rfl⟩
  · obtain ⟨rfl, rfl⟩ : [] = before' ∧ target = target' := by simpa [mergePrev] using h
    exact .inr ⟨rfl, rfl, by simp⟩
  · rw [List.concat_eq_append] at *
    simp only [mergePrev, List.getLast?_append, List.getLast?_singleton, Option.some_or,
      List.dropLast_concat] at h
    split at h
    case isTrue hmerge =>
      obtain ⟨rfl, rfl⟩ := Prod.mk.inj h
      exact .inl ⟨prev, rfl, hmerge.1, hmerge.2, rfl⟩
    case isFalse hmerge =>
      obtain ⟨rfl, rfl⟩ := Prod.mk.inj h
      exact .inr ⟨rfl, rfl, by simpa using hmerge⟩

/-- The merge with the block after: the first block there is not allocated and goes into the freed
one, or both stay, and then a block there is the sentinel or allocated. -/
theorem mergeNext_cases (h : mergeNext target after = (target', after')) :
    (∃ next, after = next :: after' ∧ next.bytes ≠ 0 ∧ next.state ≠ .allocated ∧
        target' = { target with bytes := wrap 64 (target.bytes + next.bytes) }) ∨
      (after' = after ∧ target' = target ∧
        ∀ next ∈ after.head?, ¬(next.bytes ≠ 0 ∧ next.state ≠ .allocated)) := by
  cases after with
  | nil =>
    obtain ⟨rfl, rfl⟩ := Prod.mk.inj h
    exact .inr ⟨rfl, rfl, by simp⟩
  | cons next rest =>
    simp only [mergeNext] at h
    split at h
    case isTrue hmerge =>
      obtain ⟨rfl, rfl⟩ := Prod.mk.inj h
      exact .inl ⟨next, rfl, hmerge.1, hmerge.2, rfl⟩
    case isFalse hmerge =>
      obtain ⟨rfl, rfl⟩ := Prod.mk.inj h
      exact .inr ⟨rfl, rfl, by simpa using hmerge⟩

/-- The merge with the block before keeps the tiling: the block that takes the place of the freed
one ends where it ended. -/
theorem mergePrev_tiles (h : mergePrev before target = (before', target'))
    (hlen : 0 < target.bytes) (hend : target.pa + target.bytes < 2 ^ 64)
    (htiles : TileBlocks a target.pa before) :
    TileBlocks a target'.pa before' ∧ target'.pa + target'.bytes = target.pa + target.bytes ∧
      0 < target'.bytes := by
  obtain ⟨prev, rfl, -, -, rfl⟩ | ⟨rfl, rfl, -⟩ := mergePrev_cases h
  · obtain ⟨m, hinit, rfl, hprev, hseam⟩ := tiles_append.mp htiles
    rw [tiles_nil] at hseam
    have hwrap : wrap 64 (prev.bytes + target.bytes) = prev.bytes + target.bytes :=
      wrap_of_lt (by omega)
    refine ⟨hinit, ?_, ?_⟩
    · show prev.pa + wrap 64 (prev.bytes + target.bytes) = _
      omega
    · show 0 < wrap 64 (prev.bytes + target.bytes)
      omega
  · exact ⟨htiles, rfl, hlen⟩

/-- The merge with the block before: the block that takes the place of the freed one is free, and
the blocks before it are allocated at their end and have the allocated ranges they had. -/
theorem mergePrev_spec (h : mergePrev before target = (before', target'))
    (hstate : target.state = .free) (htiles : TileBlocks a target.pa before)
    (hpair : NoFreePair AipuBlock.isFree before) :
    target'.state = .free ∧ NoFreePair AipuBlock.isFree before' ∧
      (∀ y ∈ before'.getLast?, y.isFree = false) ∧
      occupied AipuBlock.pa AipuBlock.bytes AipuBlock.isFree before' =
        occupied AipuBlock.pa AipuBlock.bytes AipuBlock.isFree before := by
  obtain ⟨prev, rfl, -, hprev, rfl⟩ | ⟨rfl, rfl, hkeep⟩ := mergePrev_cases h
  · obtain ⟨hpairInit, -, hlast⟩ := List.isChain_append.mp hpair
    have hfree : prev.isFree = true := AipuBlock.isFree_eq_true.mpr hprev
    refine ⟨hprev, hpairInit, fun y hy => ?_, ?_⟩
    · have := hlast y hy prev rfl
      simpa [hfree] using this
    · rw [occupied_append, occupied_cons_free hfree, occupied_nil, List.append_nil]
  · refine ⟨hstate, hpair, fun y hy => ?_, rfl⟩
    have hpos := htiles.len_pos (List.mem_of_getLast? hy)
    rw [Bool.eq_false_iff, ne_eq, AipuBlock.isFree_eq_true]
    exact fun hfree => hkeep y hy ⟨by omega, hfree⟩

/-- The merge with the block after keeps the tiling: the block that takes the place of the freed one
starts where it started. -/
theorem mergeNext_tiles (h : mergeNext target after = (target', after'))
    (hlen : 0 < target.bytes) (hend : b < 2 ^ 64)
    (htiles : TileBlocks (target.pa + target.bytes) b after) :
    target'.pa = target.pa ∧ 0 < target'.bytes ∧
      TileBlocks (target'.pa + target'.bytes) b after' := by
  obtain ⟨next, rfl, -, -, rfl⟩ | ⟨rfl, rfl, -⟩ := mergeNext_cases h
  · obtain ⟨hlo, hnext, hrest⟩ := htiles
    have hle := hrest.le
    have hwrap : wrap 64 (target.bytes + next.bytes) = target.bytes + next.bytes :=
      wrap_of_lt (by omega)
    refine ⟨rfl, ?_, ?_⟩
    · show 0 < wrap 64 (target.bytes + next.bytes)
      omega
    · show TileBlocks (target.pa + wrap 64 (target.bytes + next.bytes)) b after'
      rwa [hwrap, ← Nat.add_assoc]
  · exact ⟨rfl, hlen, htiles⟩

/-- The merge with the block after: the block that takes the place of the freed one is free, and the
blocks after it are allocated at their start and have the allocated ranges they had. -/
theorem mergeNext_spec (h : mergeNext target after = (target', after'))
    (hstate : target.state = .free) (htiles : TileBlocks a b after)
    (hpair : NoFreePair AipuBlock.isFree after) :
    target'.state = .free ∧ NoFreePair AipuBlock.isFree after' ∧
      (∀ y ∈ after'.head?, y.isFree = false) ∧
      occupied AipuBlock.pa AipuBlock.bytes AipuBlock.isFree after' =
        occupied AipuBlock.pa AipuBlock.bytes AipuBlock.isFree after := by
  obtain ⟨next, rfl, -, hnext, rfl⟩ | ⟨rfl, rfl, hkeep⟩ := mergeNext_cases h
  · obtain ⟨hhead, hpairRest⟩ := List.isChain_cons.mp hpair
    have hfree : next.isFree = true := by
      rw [← Bool.not_eq_false, AipuBlock.isFree_eq_false]
      exact hnext
    refine ⟨hstate, hpairRest, fun y hy => ?_, ?_⟩
    · have := hhead y hy
      simpa [hfree] using this
    · rw [occupied_cons_free hfree]
  · refine ⟨hstate, hpair, fun y hy => ?_, rfl⟩
    have hpos := htiles.len_pos (List.mem_of_head? hy)
    rw [AipuBlock.isFree_eq_false]
    by_contra hocc
    exact hkeep y hy ⟨by omega, hocc⟩

/-- A release in a region that finds its block marks this one free and merges it with the blocks
around it. -/
theorem aipuMmFreeInRegion_eq {r : AipuMemRegion} {buf : BufDesc} {c : Cursor AipuBlock}
    (hseek : seek (fun blk => blk.pa = buf.pa ∧ blk.bytes = buf.bytes) r.blkHead = some c) :
    ∃ before₁ target₁ target₂ after₂,
      mergePrev c.before { c.entry with tid := 0, type := aipuMmDataTypeNone, state := .free } =
        (before₁, target₁) ∧
      mergeNext target₁ c.after = (target₂, after₂) ∧
      aipuMmFreeInRegion r buf = (0, { r with
        blkHead := before₁ ++ target₂ :: after₂
        totFreeBytes := wrap 64 (r.totFreeBytes + buf.bytes) }) := by
  refine ⟨_, _, _, _, rfl, rfl, ?_⟩
  rw [aipuMmFreeInRegion, hseek]
  rfl

/-- Releasing an allocated range of a region succeeds and takes exactly this range away. -/
theorem aipuMmFreeInRegion_spec {r : AipuMemRegion} {buf : BufDesc} (hr : r.Inv)
    (hend : r.pa + r.totBytes < 2 ^ 64) (hbuf : (buf.pa, buf.bytes) ∈ r.allocated) :
    ∃ r', aipuMmFreeInRegion r buf = (0, r') ∧ Released r r' (buf.pa, buf.bytes) := by
  obtain ⟨x, hx, hxocc, hxeq⟩ := mem_occupied.mp hbuf
  obtain ⟨hxpa, hxbytes⟩ := Prod.mk.inj hxeq
  obtain ⟨c, hseek⟩ := exists_seek (p := fun blk : AipuBlock =>
    decide (blk.pa = buf.pa ∧ blk.bytes = buf.bytes)) hx (by simp [hxpa, hxbytes])
  obtain ⟨hl, hfound, -⟩ := seek_eq_some hseek
  obtain ⟨hpa, hbytes⟩ : c.entry.pa = buf.pa ∧ c.entry.bytes = buf.bytes := by simpa using hfound
  -- the block found is the allocated one, since blocks do not overlap
  have hxpos := hr.tiles.len_pos hx
  have hentry : c.entry = x :=
    hr.tiles.eq_of_overlap (hl ▸ c.entry_mem) hx (by omega) (by omega)
  have hocc : c.entry.isFree = false := hentry ▸ hxocc
  have htiles := hr.tiles
  have hpair := hr.noFreePair
  rw [hl, Cursor.toList] at htiles hpair
  obtain ⟨m, hbefore, rfl, hlen, hafter⟩ := tiles_append.mp htiles
  obtain ⟨hpairB, hpairEA, -⟩ := List.isChain_append.mp hpair
  have hpairA := (List.isChain_cons.mp hpairEA).2
  have hafterLe := hafter.le
  obtain ⟨before', target₁, target₂, after', hprev, hnext, heq⟩ := aipuMmFreeInRegion_eq hseek
  refine ⟨_, heq, ?_⟩
  obtain ⟨htiles₁, hend₁, hlen₁⟩ := mergePrev_tiles hprev hlen (by dsimp only; omega) hbefore
  obtain ⟨hstate₁, hpair₁, hlast₁, hocc₁⟩ := mergePrev_spec hprev rfl hbefore hpairB
  obtain ⟨hpa₂, hlen₂, htiles₂⟩ := mergeNext_tiles hnext hlen₁ hend (hend₁ ▸ hafter)
  obtain ⟨hstate₂, hpair₂, hhead₂, hocc₂⟩ := mergeNext_spec hnext hstate₁ hafter hpairA
  have hfree₂ : target₂.isFree = true := AipuBlock.isFree_eq_true.mpr hstate₂
  have hnew : occupied AipuBlock.pa AipuBlock.bytes AipuBlock.isFree
      (before' ++ target₂ :: after') =
      occupied AipuBlock.pa AipuBlock.bytes AipuBlock.isFree c.before ++
        occupied AipuBlock.pa AipuBlock.bytes AipuBlock.isFree c.after := by
    rw [occupied_append, occupied_cons_free hfree₂, hocc₁, hocc₂]
  have hperm : r.allocated.Perm ((buf.pa, buf.bytes) :: occupied AipuBlock.pa AipuBlock.bytes
      AipuBlock.isFree (before' ++ target₂ :: after')) := by
    rw [hnew, AipuMemRegion.allocated, hl, Cursor.toList, occupied_append,
      occupied_cons_occ hocc, hpa, hbytes]
    exact List.perm_middle
  have hbal := hr.totFree_add_allocated
  have hsum := (hperm.map Prod.snd).sum_nat
  rw [List.map_cons, List.sum_cons] at hsum
  refine ⟨.of_balance ?_ (hpair₁.around hpair₂ hlast₁ hhead₂) ?_, rfl, hperm⟩
  · exact tiles_append.mpr ⟨_, htiles₁, hpa₂, hlen₂, hpa₂ ▸ htiles₂⟩
  · show wrap 64 (r.totFreeBytes + buf.bytes) + ((occupied AipuBlock.pa AipuBlock.bytes
      AipuBlock.isFree (before' ++ target₂ :: after')).map Prod.snd).sum = r.totBytes
    rw [wrap_of_lt (by omega)]
    omega

end Release

end Aipu
