import AipuDriver.Kmd.RoStack

/-!
# The block search in small regions (`aipu_mm_find_block_candidate_no_lock`)

The search computes in `u64` what it should do in exact numbers.  From the back it subtracts the
request from the end of each block before it compares, and a block that ends below the size of the
request gives a place at the end of the address space. From the front it adds the request to the
rounded start, and the sum may come round.

The regions are any whose end is an address, and the blocks are any that tile them.  Of a block in
which the arithmetic comes round (`AipuBlock.Overflows`) the search makes a place that it does not
hold, unless a block with a place comes before it (`block_search_exact_iff`).
-/

namespace Aipu

open ListSearch Tiling Transition Word

/-! ## Exact places -/

/-- The places that the search looks for in a block: its start, rounded up by the mask, or any
multiple of the alignment. -/
def AipuBlock.Tries (blk : AipuBlock) (alignment dataType start : ℕ) : Prop :=
  if SearchesForward dataType then start = maskUp blk.pa alignment else alignment ∣ start

/-- A block that is not allocated has a place for the request, in exact numbers. -/
def AipuBlock.HasPlace (blk : AipuBlock) (bytes alignment dataType : ℕ) : Prop :=
  blk.state ≠ .allocated ∧ ∃ start, blk.Tries alignment dataType start ∧ FitsIn blk start bytes

/-- The search is exact: the block that it returns holds the request, and no block has a place when
it fails. -/
structure AipuMemRegion.SearchExact (r : AipuMemRegion) (bytes alignment dataType : ℕ) : Prop where
  found : ∀ c start, aipuMmFindBlockCandidateNoLock r.blkHead bytes alignment dataType =
    .ok (c, start) →
    c.entry.state ≠ .allocated ∧ FitsIn c.entry start bytes
  missed : ∀ ret, aipuMmFindBlockCandidateNoLock r.blkHead bytes alignment dataType = .error ret →
    ∀ blk ∈ r.blkHead, ¬blk.HasPlace bytes alignment dataType

/-- A region and a request that the allocators hand to the search: any region that ends at an
address, any blocks that tile it, at most the free bytes, and an alignment of whole pages.  The
allocators form the alignment in 32 bits, and `do_div` takes no greater divisor. -/
structure AipuMemRegion.Searched (r : AipuMemRegion) (bytes alignment dataType : ℕ) : Prop where
  tiles : TileBlocks r.pa (r.pa + r.totBytes) r.blkHead
  totFree : r.totFreeBytes = freeLen AipuBlock.bytes AipuBlock.isFree r.blkHead
  end_lt : r.pa + r.totBytes < 2 ^ 64
  bytes_pos : 0 < bytes
  bytes_le : bytes ≤ r.totFreeBytes
  align_pos : 0 < alignment
  align_page : alignment % pageSize = 0
  align_le : alignment ≤ 2 ^ 64
  divisor : ¬SearchesForward dataType → alignment < 2 ^ 32

/-! ## Blocks in which the arithmetic comes round -/

/-- The end of the request, from the rounded start of the block, is no word, and comes round to no
more than the end of the block. -/
def AipuBlock.OverflowsForward (blk : AipuBlock) (bytes alignment : ℕ) : Prop :=
  2 ^ 64 ≤ maskUp blk.pa alignment + bytes ∧
    (maskUp blk.pa alignment + bytes) % 2 ^ 64 ≤ blk.pa + blk.bytes

/-- The block ends below the size of the request, and the multiple of the alignment below the
difference, which has come round, is close enough to it. -/
def AipuBlock.OverflowsReverse (blk : AipuBlock) (bytes alignment : ℕ) : Prop :=
  let distance := (blk.pa + blk.bytes + 2 ^ 64 - bytes) % alignment
  blk.pa + blk.bytes < bytes ∧ distance ≤ blk.pa + blk.bytes ∧ distance + bytes ≤ blk.bytes + 2 ^ 64

/-- The arithmetic comes round in a block that is not allocated. -/
def AipuBlock.Overflows (blk : AipuBlock) (bytes alignment dataType : ℕ) : Prop :=
  blk.state ≠ .allocated ∧
    if SearchesForward dataType then blk.OverflowsForward bytes alignment
    else blk.OverflowsReverse bytes alignment

/-- The blocks in the order of the search. -/
def searchOrder (dataType : ℕ) (head : List AipuBlock) : List AipuBlock :=
  if SearchesForward dataType then head else head.reverse

/-- Before a block in which the arithmetic comes round, the search meets one that has a place. -/
def AipuMemRegion.PlacedFirst (r : AipuMemRegion) (bytes alignment dataType : ℕ) : Prop :=
  ∀ before blk after, searchOrder dataType r.blkHead = before ++ blk :: after →
    blk.Overflows bytes alignment dataType →
    ∃ b ∈ before, b.HasPlace bytes alignment dataType

section Judge

variable {blk : AipuBlock} {bytes alignment dataType : ℕ}

/-- What the search from the front makes of a block. -/
theorem forwardStart_judged (hend : blk.pa + blk.bytes < 2 ^ 64) (hbytes : bytes < 2 ^ 64)
    (hpos : 0 < alignment) (hle : alignment ≤ 2 ^ 64) :
    Judged (forwardStart bytes alignment)
      (fun blk start => blk.state ≠ .allocated ∧ FitsIn blk start bytes)
      (fun blk => blk.state ≠ .allocated ∧ FitsIn blk (maskUp blk.pa alignment) bytes)
      (fun blk => blk.state ≠ .allocated ∧ blk.OverflowsForward bytes alignment) blk := by
  have hup := le_maskUp blk.pa alignment
  have hsum : wrap 64 (wrap 64 (maskUp blk.pa alignment) + bytes) =
      wrap 64 (maskUp blk.pa alignment + bytes) :=
    Nat.mod_add_mod _ _ _
  have hstart : ∀ start, forwardStart bytes alignment blk = some start ↔ blk.state ≠ .allocated ∧
      wrap 64 (maskUp blk.pa alignment + bytes) ≤ blk.pa + blk.bytes ∧
        wrap 64 (maskUp blk.pa alignment) = start := by
    intro start
    rw [forwardStart, maskAlign_eq_wrap hpos hle, wrap_of_lt hend]
    simp only [Option.ite_none_right_eq_some, Option.some.injEq, hsum]
  refine ⟨?_, ?_, fun start h => ?_⟩
  · rintro ⟨hfree, hlow, hhigh⟩
    have hword : maskUp blk.pa alignment < 2 ^ 64 := by omega
    exact ⟨maskUp blk.pa alignment,
      (hstart _).mpr ⟨hfree, by rwa [wrap_of_lt (by omega)], wrap_of_lt hword⟩, hfree, hlow, hhigh⟩
  · rintro ⟨hfree, hover, hround⟩
    refine ⟨_, (hstart _).mpr ⟨hfree, hround, rfl⟩, ?_⟩
    rintro ⟨-, hlow, hhigh⟩
    -- the rounded start has come round, or the end lies behind all addresses
    rcases Nat.lt_or_ge (maskUp blk.pa alignment) (2 ^ 64) with hlt | hge
    · rw [wrap_of_lt hlt] at hhigh
      omega
    · have hle' := maskUp_le blk.pa alignment
      have hwrap : wrap 64 (maskUp blk.pa alignment) = maskUp blk.pa alignment - 2 ^ 64 := by
        rw [wrap, Nat.mod_eq_sub_mod hge, Nat.mod_eq_of_lt (by omega)]
      omega
  · obtain ⟨hfree, hround, -⟩ := (hstart start).mp h
    rcases Nat.lt_or_ge (maskUp blk.pa alignment + bytes) (2 ^ 64) with hlt | hge
    · rw [wrap_of_lt hlt] at hround
      exact .inl ⟨hfree, hup, hround⟩
    · exact .inr ⟨hfree, hge, hround⟩

/-- What the search from the back makes of a block. -/
theorem reverseStart_judged (hend : blk.pa + blk.bytes < 2 ^ 64) (hbytes : bytes < 2 ^ 64)
    (hpos : 0 < alignment) (hlt : alignment < 2 ^ 32) :
    Judged (reverseStart bytes alignment)
      (fun blk start => blk.state ≠ .allocated ∧ FitsIn blk start bytes)
      (fun blk => blk.state ≠ .allocated ∧ ∃ start, alignment ∣ start ∧ FitsIn blk start bytes)
      (fun blk => blk.state ≠ .allocated ∧ blk.OverflowsReverse bytes alignment) blk := by
  -- the difference, which comes round when the block ends below the size of the request
  have hdiff : ∃ x, wrapSub 64 (blk.pa + blk.bytes) bytes = x ∧ x < 2 ^ 64 ∧
      (bytes ≤ blk.pa + blk.bytes ∧ x = blk.pa + blk.bytes - bytes ∨
        blk.pa + blk.bytes < bytes ∧ x = blk.pa + blk.bytes + 2 ^ 64 - bytes) := by
    refine ⟨_, rfl, wrapSub_lt _ _ _, ?_⟩
    rcases Nat.lt_or_ge (blk.pa + blk.bytes) bytes with h | h
    · exact .inr ⟨h, Nat.mod_eq_of_lt (by omega)⟩
    · exact .inl ⟨h, wrapSub_of_le hend h⟩
  obtain ⟨x, hx, hword, hcases⟩ := hdiff
  have hdiv : x / alignment * alignment + x % alignment = x := Nat.div_add_mod' x alignment
  have hmod := Nat.mod_lt x hpos
  have hdivisor : wrap 32 alignment = alignment := wrap_of_lt hlt
  have hplace : wrap 64 (x / alignment * alignment) = x / alignment * alignment :=
    wrap_of_lt (by omega)
  have hstart : ∀ start, reverseStart bytes alignment blk = some start ↔ blk.state ≠ .allocated ∧
      (x / alignment * alignment ≥ blk.pa ∧
        wrap 64 (x / alignment * alignment + bytes) ≤ blk.pa + blk.bytes) ∧
        x / alignment * alignment = start := by
    intro start
    rw [reverseStart, wrap_of_lt hend, hx, hdivisor]
    simp only [hplace, Option.ite_none_right_eq_some, Option.some.injEq]
  -- the end of the place, when the difference has come round
  have hround : blk.pa + blk.bytes < bytes → wrap 64 (x / alignment * alignment + bytes) =
      if x % alignment ≤ blk.pa + blk.bytes then blk.pa + blk.bytes - x % alignment
      else blk.pa + blk.bytes + 2 ^ 64 - x % alignment := by
    intro hbelow
    have hsum : x / alignment * alignment + bytes =
        blk.pa + blk.bytes + 2 ^ 64 - x % alignment := by omega
    rw [hsum, wrap]
    split
    · rw [Nat.mod_eq_sub_mod (by omega), Nat.mod_eq_of_lt (by omega)]
      omega
    · exact Nat.mod_eq_of_lt (by omega)
  refine ⟨?_, ?_, fun start h => ?_⟩
  · rintro ⟨hfree, start, ⟨k, rfl⟩, hlow, hhigh⟩
    have hk : k ≤ x / alignment := by
      rw [Nat.le_div_iff_mul_le hpos, Nat.mul_comm]
      omega
    have hmul := Nat.mul_le_mul_right alignment hk
    rw [Nat.mul_comm k] at hmul
    refine ⟨_, (hstart _).mpr ⟨hfree, ⟨by omega, ?_⟩, rfl⟩, hfree, by omega, by omega⟩
    rw [wrap_of_lt (by omega)]
    omega
  · rintro ⟨hfree, hbelow, hdist, hclose⟩
    have hx' : blk.pa + blk.bytes + 2 ^ 64 - bytes = x := by omega
    rw [hx'] at hdist hclose
    refine ⟨_, (hstart _).mpr ⟨hfree, ⟨by omega, ?_⟩, rfl⟩, ?_⟩
    · rw [hround hbelow, if_pos hdist]
      omega
    · rintro ⟨-, -, hhigh⟩
      omega
  · obtain ⟨hfree, ⟨hge, hle⟩, -⟩ := (hstart start).mp h
    rcases Nat.lt_or_ge (blk.pa + blk.bytes) bytes with hbelow | hfit
    · have hx' : blk.pa + blk.bytes + 2 ^ 64 - bytes = x := by omega
      rw [hround hbelow] at hle
      refine .inr ⟨hfree, hbelow, ?_⟩
      rw [hx']
      split at hle
      next hdist => exact ⟨hdist, by omega⟩
      next => omega
    · refine .inl ⟨hfree, x / alignment * alignment, Nat.dvd_mul_left _ _, hge, ?_⟩
      omega

end Judge

/-! ## The search -/

section Search

variable {r : AipuMemRegion} {bytes alignment dataType : ℕ}

/-- The search is exact when its loop is. -/
theorem AipuMemRegion.Searched.searchExact_iff (h : r.Searched bytes alignment dataType) :
    r.SearchExact bytes alignment dataType ↔
      (∀ c start, findCandidate r.blkHead bytes alignment dataType = some (c, start) →
        c.entry.state ≠ .allocated ∧ FitsIn c.entry start bytes) ∧
      (findCandidate r.blkHead bytes alignment dataType = none →
        ∀ blk ∈ r.blkHead, ¬blk.HasPlace bytes alignment dataType) := by
  have herror := fun ret =>
    @aipuMmFindBlockCandidateNoLock_eq_error r.blkHead bytes alignment dataType ret h.bytes_pos
    h.align_pos h.align_page
  constructor
  · rintro ⟨hfound, hmissed⟩
    refine ⟨fun c start hloop => hfound c start ?_,
      fun hloop => hmissed _ ((herror _).mpr ⟨rfl, hloop⟩)⟩
    exact aipuMmFindBlockCandidateNoLock_eq_ok.mpr ⟨h.bytes_pos, h.align_pos, h.align_page, hloop⟩
  · rintro ⟨hfound, hmissed⟩
    refine ⟨fun c start hfind => hfound c start ?_,
      fun ret hfind => hmissed ((herror ret).mp hfind).2⟩
    exact (aipuMmFindBlockCandidateNoLock_eq_ok.mp hfind).2.2.2

/-- A request is no greater than the region. -/
theorem AipuMemRegion.Searched.bytes_lt (h : r.Searched bytes alignment dataType) :
    bytes < 2 ^ 64 := by
  have htotal : r.pa + freeLen AipuBlock.bytes AipuBlock.isFree r.blkHead + _ = r.pa + r.totBytes :=
    h.tiles.freeLen_add_occupied
  have := h.bytes_le
  have := h.totFree
  have := h.end_lt
  omega

/-- **The block search** returns a block that holds the request, or fails when no block has a place,
exactly when it meets a block with a place before each block in which its arithmetic comes round. -/
theorem block_search_exact_iff (h : r.Searched bytes alignment dataType) :
    r.SearchExact bytes alignment dataType ↔ r.PlacedFirst bytes alignment dataType := by
  have hbytes := h.bytes_lt
  have hends : ∀ blk ∈ r.blkHead, blk.pa + blk.bytes < 2 ^ 64 := fun blk hblk =>
    (h.tiles.bounds hblk).2.trans_lt h.end_lt
  rw [h.searchExact_iff]
  unfold AipuMemRegion.PlacedFirst findCandidate searchOrder
  by_cases hdir : SearchesForward dataType
  · have hplace : ∀ blk : AipuBlock, blk.HasPlace bytes alignment dataType ↔
        blk.state ≠ .allocated ∧ FitsIn blk (maskUp blk.pa alignment) bytes := fun blk => by
      simp only [AipuBlock.HasPlace, AipuBlock.Tries, if_pos hdir, exists_eq_left]
    simp only [if_pos hdir, hplace, AipuBlock.Overflows]
    exact findFirst_right_iff fun blk hblk =>
      forwardStart_judged (hends blk hblk) hbytes h.align_pos h.align_le
  · have hplace : ∀ blk : AipuBlock, blk.HasPlace bytes alignment dataType ↔
        blk.state ≠ .allocated ∧ ∃ start, alignment ∣ start ∧
          FitsIn blk start bytes := fun blk => by
      simp only [AipuBlock.HasPlace, AipuBlock.Tries, if_neg hdir]
    simp only [if_neg hdir, hplace, AipuBlock.Overflows]
    exact findLast_right_iff fun blk hblk =>
      reverseStart_judged (hends blk hblk) hbytes h.align_pos (h.divisor hdir)

end Search

/-! ## A fragmented region -/

/-- A region of three pages at address zero. -/
def smallNodes : List RegionNode := [⟨0, 0x3000, .reserved, 0x40000000⟩]

/-- The region when only its second page is allocated. -/
def fragmentedRegion : AipuMemRegion where
  id := 0
  blkHead := [⟨0, 0x1000, 0, aipuMmDataTypeNone, .free⟩,
    ⟨0x1000, 0x1000, 7, aipuMmDataTypeReuse, .allocated⟩,
    ⟨0x2000, 0x1000, 0, aipuMmDataTypeNone, .free⟩]
  pa := 0
  va := 0x40000000
  totBytes := 0x3000
  totFreeBytes := 0x2000
  flag := .compact
  type := .reserved

/-- The memory manager with this region. -/
def fragmentedMm :
    AipuMemoryManager := { aipuInitMm .zhouyiV2 with ddrHead := [fragmentedRegion], ddrCnt := 1 }

/-- Any request of one or two pages is searched there. -/
theorem fragmentedRegion_searched {bytes : ℕ} (hpos : 0 < bytes) (hle : bytes ≤ 0x2000) :
    fragmentedRegion.Searched bytes pageSize aipuMmDataTypeReuse where
  tiles := ⟨rfl, by decide, rfl, by decide, rfl, by decide, rfl⟩
  totFree := rfl
  end_lt := by decide
  bytes_pos := hpos
  bytes_le := hle
  align_pos := by decide
  align_page := rfl
  align_le := by decide
  divisor _ := by decide

/-- A request of one page. -/
theorem block_search_exact_iff_sample :
    fragmentedRegion.SearchExact 0x1000 pageSize aipuMmDataTypeReuse ↔
    fragmentedRegion.PlacedFirst 0x1000 pageSize aipuMmDataTypeReuse :=
  block_search_exact_iff (fragmentedRegion_searched (by decide) (by decide))

/-- Three buffers of a page were allocated, and the lower and the upper one were freed. -/
theorem fragmentedMm_reachable :
    (mmCallSystem .zhouyiV2 smallNodes).Reachable NoneOvertaken fragmentedMm := by
  let req : BufRequest := { bytes := 4096, alignInPage := 1, dataType := aipuMmDataTypeReuse }
  obtain ⟨mm, hinit, hexec⟩ : ∃ mm, addRegions smallNodes (aipuInitMm .zhouyiV2) = some mm ∧
      (mmCallSystem .zhouyiV2 smallNodes).exec NoneOvertaken mm
        [.alloc [] 7 req {}, .alloc [] 7 req {}, .alloc [] 7 req {},
          .free { pa := 0, bytes := 0x1000 },
          .free { pa := 0x2000, bytes := 0x1000 }] = some (fragmentedMm, [0, 0, 0, 0, 0]) :=
    ⟨_, rfl, by decide +kernel⟩
  exact ⟨_, System.run_of_exec hinit hexec⟩

/-- A request of two pages is granted at the last page of the address space. -/
theorem block_search_wraps :
    (mmCallSystem .zhouyiV2 smallNodes).Reachable NoneOvertaken fragmentedMm ∧
    fragmentedRegion ∈ fragmentedMm.ddrHead ∧
    fragmentedRegion.Searched 0x2000 pageSize aipuMmDataTypeReuse ∧
    ¬fragmentedRegion.SearchExact 0x2000 pageSize aipuMmDataTypeReuse ∧
    ∃ res, aipuMmAlloc [] 7 fragmentedMm
      { bytes := 0x2000, alignInPage := 1, dataType := aipuMmDataTypeReuse } {} = some res ∧
      res.ret = 0 ∧ res.buf.pa = 2 ^ 64 - 0x1000 := by
  refine ⟨fragmentedMm_reachable, List.mem_cons_self,
    fragmentedRegion_searched (by decide) (by decide), fun hexact => ?_,
    _, rfl, by decide +kernel, by decide +kernel⟩
  obtain ⟨c, hfind, hend⟩ : ∃ c : Cursor AipuBlock,
      aipuMmFindBlockCandidateNoLock fragmentedRegion.blkHead 0x2000 pageSize
      aipuMmDataTypeReuse = .ok (c, 2 ^ 64 - 0x1000) ∧ c.entry.pa + c.entry.bytes = 0x1000 :=
        ⟨_, rfl, rfl⟩
  obtain ⟨-, -, hfits⟩ := hexact.found _ _ hfind
  omega

end Aipu
