import Mathlib.Algebra.Group.Nat.Defs
import Mathlib.Data.Nat.Prime.Basic
import Mathlib.Order.Bounds.Basic
import AipuDriver.Kmd.MmSystem

/-!
# Where an allocation is placed

`aipu_mm_alloc` rounds the size up to pages, and it should place the buffer at a multiple of the
requested alignment inside a free block (`MeetsRequest`).  The size and the block are always right.
The alignment in bytes is formed in 32 bits, and the search from the front rounds by a mask, which
is right for powers of two only; the search from the back divides.  `AlignmentHonoured` says for
which requests the two searches find a multiple of the alignment wherever the regions lie.
-/

namespace Aipu

open ListSearch Word Tiling Transition

/-! ## Sizes and addresses -/

/-- In a compact region the size is the least whole number of pages that holds the request. -/
theorem getAllocSize_isLeast {r : AipuMemRegion} {n : ℕ} (hflag : r.flag = .compact) (hn : 0 < n)
    (hlt : n + 4095 < 2 ^ 64) : IsLeast {m | pageSize ∣ m ∧ n ≤ m} (getAllocSize r n) := by
  obtain ⟨hle, hub⟩ := getAllocSize_bounds hflag hn hlt
  have hdvd := Nat.dvd_of_mod_eq_zero (getAllocSize_aligned hflag n)
  refine ⟨⟨hdvd, hle⟩, ?_⟩
  rintro m ⟨hm, hnm⟩
  obtain ⟨p, hp⟩ := hdvd
  obtain ⟨q, rfl⟩ := hm
  rw [hp] at hub ⊢
  unfold pageSize at *
  omega

section Search

variable {blk : AipuBlock} {bytes alignment start : ℕ}

/-- The search from the front finds multiples of an alignment that is a power of two. -/
theorem forwardStart_dvd {k : ℕ} (hk : 2 ^ k ≤ 2 ^ 64)
    (h : forwardStart bytes (2 ^ k) blk = some start) : 2 ^ k ∣ start := by
  obtain ⟨-, h⟩ := Option.ite_none_right_eq_some.mp h
  obtain ⟨-, h⟩ := Option.ite_none_right_eq_some.mp h
  obtain rfl := Option.some.inj h
  exact Nat.dvd_of_mod_eq_zero (maskAlign_mod_two_pow (Nat.two_pow_pos k) hk dvd_rfl)

/-- The search from the back finds multiples of every alignment, when the block ends no lower than
the size of the request. -/
theorem reverseStart_dvd (hend : blk.pa + blk.bytes < 2 ^ 64) (hb : bytes ≤ blk.pa + blk.bytes)
    (ha : alignment < 2 ^ 32) (h : reverseStart bytes alignment blk = some start) :
    alignment ∣ start := by
  obtain ⟨-, h⟩ := Option.ite_none_right_eq_some.mp h
  obtain ⟨-, h⟩ := Option.ite_none_right_eq_some.mp h
  rw [wrap_of_lt hend, wrapSub_of_le hend hb, wrap_of_lt ha] at h
  have hmul := Nat.div_mul_le_self (blk.pa + blk.bytes - bytes) alignment
  rw [wrap_of_lt (by omega)] at h
  obtain rfl := Option.some.inj h
  exact Nat.dvd_mul_left _ _

end Search

/-! ## What a request asks for -/

/-- The buffer is what the request asks for: its address is a multiple of the alignment, its size
the least whole number of pages, and its range was inside one free block. -/
structure MeetsRequest (mm : AipuMemoryManager) (req : BufRequest) (buf : AipuBuffer) : Prop where
  aligned : req.alignInPage * pageSize ∣ buf.pa
  least : IsLeast {n | pageSize ∣ n ∧ req.bytes ≤ n} buf.bytes
  inFree : ∃ r ∈ mm.regions, ∃ blk ∈ r.blkHead, blk.state = .free ∧ FitsIn blk buf.pa buf.bytes

/-- The alignment is one that the driver honours: the product in 32 bits is zero, and no request is
served, or it is exact, and a power of two where the search is from the front. -/
def AlignmentHonoured (dataType alignInPage : ℕ) : Prop :=
  2 ^ 20 ∣ alignInPage ∨
    alignInPage * pageSize < 2 ^ 32 ∧ (SearchesForward dataType → ∃ k, alignInPage = 2 ^ k)

/-- What the search of a region finds for a request whose alignment is honoured. -/
theorem AlignmentHonoured.dvd {r : AipuMemRegion} {req : BufRequest}
    {c : Cursor AipuBlock} {start : ℕ}
    (h : AlignmentHonoured req.dataType req.alignInPage) (hr : r.Inv) (hp : r.Placed)
    (hserves : r.Serves req) (hfind : r.candidate req = .ok (c, start)) :
    req.alignInPage * pageSize ∣ start := by
  obtain ⟨hl, -, ha, -, hstart⟩ := aipuMmFindBlockCandidateNoLock_spec hfind
  have hbytes : req.alignInPage * 4 * 1024 = req.alignInPage * pageSize := by
    unfold pageSize
    omega
  rw [hbytes] at ha hstart
  rcases h with hzero | ⟨hlt, hpow⟩
  · obtain ⟨q, hq⟩ := hzero
    have : wrap 32 (req.alignInPage * pageSize) = 0 := by
      unfold wrap pageSize
      omega
    omega
  · rw [wrap_of_lt hlt] at hstart
    have hmem : c.entry ∈ r.blkHead := hl ▸ c.entry_mem
    obtain ⟨hlo, hhi⟩ := hr.tiles.bounds hmem
    have hend := hp.end_lt
    rcases hstart with ⟨hdir, hfwd⟩ | ⟨hnot, hrev⟩
    · obtain ⟨k, hk⟩ := hpow hdir
      have hprod : req.alignInPage * pageSize = 2 ^ (k + 12) := by
        rw [hk, pow_add]
        rfl
      rw [hprod] at hfwd hlt ⊢
      exact forwardStart_dvd (by omega) hfwd
    · have hbal := hr.totFree_add_allocated
      have hle := hp.totBytes_le
      have hfree := hserves.resolve_left fun hfwd => hnot hfwd.1
      exact reverseStart_dvd (by omega) (by omega) hlt hrev

/-- A split that succeeds was not refused. -/
theorem not_refused_of_split {kz kz' : Oracle} {tid : ℤ} {c : Cursor AipuBlock}
    {start bytes type : ℕ} {l : List AipuBlock}
    (h : aipuMmSplitBlockNoLock kz tid c start bytes type = some (0, l, kz')) :
    ¬Refused c.entry start bytes := by
  intro hrefused
  unfold aipuMmSplitBlockNoLock at h
  rw [if_pos (.inr hrefused)] at h
  exact absurd (Prod.mk.inj (Option.some.inj h)).1 (by decide)

section Placed

variable {kz : Oracle} {tid : ℤ} {mm : AipuMemoryManager} {req : BufRequest} {buf : AipuBuffer}
  {res : AllocResult AipuMemoryManager}

/-- A request that succeeds was placed by the search of a region selected for it. -/
theorem exists_placedBy (h : aipuMmAlloc kz tid mm req buf = some res) (hret : res.ret = 0) :
    ∃ r ∈ mm.ddrHead, req.selects mm.version r = true ∧ ∃ kz out c start,
      PlacedBy kz tid r req out c start ∧ out.buf = res.buf := by
  rcases aipuMmAlloc_cases h with ⟨hne, -⟩ | ⟨-, -, pre, r, r', post, hl, -, hsel, htry⟩
  · exact absurd hret hne
  obtain ⟨kz', buf₀, out, hout, hout0, -, hbuf⟩ := htry
  rcases aipuMmTryAllocInRegion_cases hout with ⟨hne, -⟩ | ⟨-, c, start, hplaced⟩
  · exact absurd hout0 hne
  · exact ⟨r, hl ▸ by simp, hsel, kz', out, c, start, hplaced, hbuf⟩

/-- A request whose alignment is honoured gets what it asks for. -/
theorem AlignmentHonoured.meetsRequest (hmm : mm.Inv) (hpos : 0 < req.bytes)
    (hlt : req.bytes < 2 ^ 32) (halign : AlignmentHonoured req.dataType req.alignInPage)
    (h : aipuMmAlloc kz tid mm req buf = some res) (hret : res.ret = 0) :
    MeetsRequest mm req res.buf := by
  obtain ⟨r, hr, hsel, kz', out, c, start, hplaced, hbuf⟩ := exists_placedBy h hret
  have hr : r ∈ mm.regions := List.mem_append_right _ hr
  have hinv := hmm.region r hr
  have hp := hmm.placed r hr
  have hserves := BufRequest.serves_of_selects hp (BufRequest.noWrap_of_lt _ hlt) hsel
  obtain ⟨hfree, hfit⟩ := hserves.placed hinv hp hplaced.found
  obtain ⟨kz₁, hsplit⟩ := hplaced.split
  have hfit := hfit.resolve_right (not_refused_of_split hsplit)
  obtain ⟨hl, -⟩ := aipuMmFindBlockCandidateNoLock_spec hplaced.found
  rw [← hbuf]
  refine ⟨?_, ?_, r, hr, c.entry, hl ▸ c.entry_mem, hfree, ?_⟩
  · rw [hplaced.pa]
    exact halign.dvd hinv hp hserves hplaced.found
  · rw [hplaced.bytes]
    exact getAllocSize_isLeast hp.flag hpos (by omega)
  · rw [hplaced.pa, hplaced.bytes]
    exact hfit

end Placed

/-! ## Requests that succeed -/

section Succeeds

variable {kz : Oracle} {tid : ℤ} {req : BufRequest}

/-- A try succeeds when the split at the place that the search finds does. -/
theorem exists_try_of_split {r : AipuMemRegion} {kz' : Oracle} {c : Cursor AipuBlock} {start : ℕ}
    {l : List AipuBlock} (buf : AipuBuffer) (hfind : r.candidate req = .ok (c, start))
    (hsplit : aipuMmSplitBlockNoLock kz tid c start (getAllocSize r req.bytes) req.dataType =
      some (0, l, kz')) :
    ∃ out, aipuMmTryAllocInRegion kz tid r req buf = some out ∧ out.ret = 0 ∧
      out.buf.pa = start ∧ out.buf.bytes = getAllocSize r req.bytes := by
  unfold aipuMmTryAllocInRegion
  rw [AipuMemRegion.allocInRegion_eq, aipuMmAllocInRegionNoLock]
  dsimp only
  rw [← AipuMemRegion.candidate, hfind]
  simp only [hsplit, ne_eq, not_true_eq_false, if_false, if_true]
  exact ⟨_, rfl, rfl, rfl, rfl⟩

/-- The scan passes over the regions that are not selected and stops at the first try that
succeeds. -/
theorem exists_scan_of_try {sel : AipuMemRegion → Bool} {buf : AipuBuffer}
    {pre : List AipuMemRegion} {r : AipuMemRegion} {out : AllocResult AipuMemRegion}
    (post : List AipuMemRegion) (ret : ℤ) (hpre : ∀ s ∈ pre, sel s = false)
    (hsel : sel r = true) (htry : aipuMmTryAllocInRegion kz tid r req buf = some out)
    (hout : out.ret = 0) :
    ∃ res, scanRegions sel tid (pre ++ r :: post) ret kz req buf = some res ∧ res.ret = 0 ∧
      res.buf = out.buf := by
  induction pre with
  | nil =>
    rw [List.nil_append, scanRegions, if_pos hsel, htry]
    simp only [if_pos hout]
    exact ⟨_, rfl, rfl, rfl⟩
  | cons s pre ih =>
    obtain ⟨res, hres, hret, hbuf⟩ := ih fun t ht => hpre t (List.mem_cons_of_mem _ ht)
    rw [List.cons_append, scanRegions, if_neg (by simp [hpre s List.mem_cons_self]), hres]
    exact ⟨_, rfl, hret, hbuf⟩

/-- A request succeeds when a try in the first region selected for it does. -/
theorem exists_alloc_of_try {mm : AipuMemoryManager} {pre post : List AipuMemRegion}
    {r : AipuMemRegion} {out : AllocResult AipuMemRegion} (buf : AipuBuffer)
    (hbytes : req.bytes ≠ 0)
    (halign : req.alignInPage ≠ 0) (hcnt : mm.ddrCnt ≠ 0) (hl : mm.ddrHead = pre ++ r :: post)
    (hpre : ∀ s ∈ pre, req.selects mm.version s = false) (hsel : req.selects mm.version r = true)
    (htry : aipuMmTryAllocInRegion kz tid r req {} = some out) (hout : out.ret = 0) :
    ∃ res, aipuMmAlloc kz tid mm req buf = some res ∧ res.ret = 0 ∧ res.buf = out.buf := by
  obtain ⟨res, hres, hret, hbuf⟩ := exists_scan_of_try post (-enomem) hpre hsel htry hout
  unfold aipuMmAlloc
  rw [if_neg (by simp [hbytes, halign])]
  dsimp only
  rw [if_neg (by simp [hcnt]), if_neg (by simp [aipuConfigEnableSram]), allocFromDdr,
    aipuMmScanRegionsAlloc_eq, hl, hres]
  exact ⟨_, rfl, hret, hbuf⟩

/-- The whole of a free block is placed without a call of `kzalloc`. -/
theorem aipuMmSplitBlockNoLock_whole {blk : AipuBlock} {type : ℕ} (hpos : 0 < blk.bytes)
    (hend : blk.pa + blk.bytes < 2 ^ 64) :
    aipuMmSplitBlockNoLock kz tid ⟨[], blk, []⟩ blk.pa blk.bytes type =
      some (0, [{ blk with tid := tid, type := type, state := .allocated }], kz) := by
  unfold aipuMmSplitBlockNoLock
  simp only [lastAddr_eq (by omega : 0 < blk.pa + blk.bytes) hend]
  rw [if_neg (by omega), if_pos ⟨trivial, trivial⟩]
  rfl

end Succeeds

/-! ## A region that a request fills

For the converse, a platform has one region, of the size of the request.  Wherever it lies, a
request whose alignment in 32 bits lets the search stop at the start of the region is placed
there. -/

section Filled

variable {bytes : ℕ}

/-- A platform with one reserved region. -/
def oneRegionMap (base bytes : ℕ) (hle : bytes ≤ base) (hend : base + bytes < 2 ^ 64) :
    MemoryMap where
  nodes := [⟨base, bytes, .reserved, 1⟩]
  bytes_le := by simpa using hle
  end_lt := by simpa using hend
  disjoint := by simp

/-- The block of the platform. -/
def oneBlock (base bytes : ℕ) : AipuBlock := ⟨base, bytes, 0, aipuMmDataTypeNone, .free⟩

/-- The region of the platform. -/
def oneRegion (base bytes : ℕ) : AipuMemRegion :=
  { id := 0, blkHead := [oneBlock base bytes], pa := base, va := 1, totBytes := bytes,
    totFreeBytes := bytes, flag := .compact, type := .reserved }

/-- The memory manager of the platform after it was brought up. -/
def oneRegionMm (version : AipuVersion) (base bytes : ℕ) : AipuMemoryManager :=
  { aipuInitMm version with ddrHead := [oneRegion base bytes], ddrCnt := 1 }

/-- The platform with one region is brought up. -/
theorem bringUp_oneRegionMap (version : AipuVersion) {base : ℕ} (hle : bytes ≤ base)
    (hend : base + bytes < 2 ^ 64) (hpos : 0 < bytes) :
    bringUp version (oneRegionMap base bytes hle hend) = some (oneRegionMm version base bytes) := by
  simp [bringUp, oneRegionMap, addRegions, aipuMmAddRegion, Oracle.next, aipuInitRegion,
    createBlock,
    oneRegionMm, oneRegion, oneBlock, aipuInitMm, aipuConfigMmAllocFlag,
      Nat.pos_iff_ne_zero.mp hpos]

/-- A request of the size of the region, whose search stops at the start of the region, is placed
there. -/
theorem exists_alloc_oneRegionMm (version : AipuVersion) (base : ℕ) {req : BufRequest}
    (hend : base + bytes < 2 ^ 64) (hpos : 0 < bytes) (hbytes : req.bytes ≠ 0)
    (hsize : maskAlign 64 req.bytes pageSize = bytes) (hregion : req.regionId = 0)
    (halign : wrap 32 (req.alignInPage * pageSize) ≠ 0)
    (hfwd : SearchesForward req.dataType → forwardStart bytes (wrap 32 (req.alignInPage * pageSize))
      (oneBlock base bytes) = some base)
    (hrev : ¬SearchesForward req.dataType →
      reverseStart bytes (wrap 32 (req.alignInPage * pageSize)) (oneBlock base bytes) = some base) :
    ∃ res, aipuMmAlloc [] 0 (oneRegionMm version base bytes) req {} = some res ∧ res.ret = 0 ∧
      res.buf.pa = base := by
  have hprod : req.alignInPage * 4 * 1024 = req.alignInPage * pageSize := by
    unfold pageSize
    omega
  have hmod : wrap 32 (req.alignInPage * pageSize) % pageSize = 0 := by
    unfold wrap pageSize
    omega
  have halign0 : req.alignInPage ≠ 0 := by
    intro h0
    simp [h0, wrap] at halign
  have hroundup : getAllocSize (oneRegion base bytes) req.bytes = bytes := by
    simp [getAllocSize, hbytes, oneRegion, hsize]
  have hfind : (oneRegion base bytes).candidate req =
      .ok (⟨[], oneBlock base bytes, []⟩, base) := by
    unfold AipuMemRegion.candidate
    rw [hroundup, hprod]
    refine aipuMmFindBlockCandidateNoLock_eq_ok.mpr ⟨hpos, Nat.pos_of_ne_zero halign, hmod, ?_⟩
    unfold findCandidate
    split
    next hdir => simp only [oneRegion, findFirst, hfwd hdir]
    next hdir =>
      simp only [oneRegion, findLast, findFirst, List.reverse_singleton, hrev hdir, Option.map_some,
        List.reverse_nil]
  obtain ⟨l, hsplit⟩ : ∃ l, aipuMmSplitBlockNoLock [] 0 ⟨[], oneBlock base bytes, []⟩ base
      (getAllocSize (oneRegion base bytes) req.bytes) req.dataType = some (0, l, []) := by
    rw [hroundup]
    have hend' : (oneBlock base bytes).pa + (oneBlock base bytes).bytes < 2 ^ 64 := hend
    exact ⟨_, aipuMmSplitBlockNoLock_whole hpos hend'⟩
  obtain ⟨out, htry, hout, hpa, -⟩ := exists_try_of_split {} hfind hsplit
  have hsel : req.selects version (oneRegion base bytes) = true := by
    unfold BufRequest.selects
    split
    · simp [oneRegion, hregion]
    · rw [hroundup]
      exact decide_eq_true (Nat.le_refl bytes)
  have hl : (oneRegionMm version base bytes).ddrHead = [] ++ oneRegion base bytes :: [] := rfl
  obtain ⟨res, hres, hret, hbuf⟩ :=
    exists_alloc_of_try {} hbytes halign0 (by simp [oneRegionMm]) hl (by simp) hsel htry hout
  exact ⟨res, hres, hret, hbuf ▸ hpa⟩

/-- The search from the front stops at a region that starts at a multiple of a great power of two,
whatever the alignment is. -/
theorem forwardStart_oneBlock {alignment : ℕ} (ha : 0 < alignment) (hlt : alignment ≤ 2 ^ 32) :
    forwardStart bytes alignment (oneBlock (2 ^ 62) bytes) = some (2 ^ 62) := by
  have hstart : maskAlign 64 (2 ^ 62) alignment = 2 ^ 62 :=
    maskAlign_of_two_pow_dvd (k := 62) ha (by omega) dvd_rfl (by omega)
  rw [forwardStart, if_pos (by simp [oneBlock])]
  change (if wrap 64 (maskAlign 64 (2 ^ 62) alignment + bytes) ≤ wrap 64 (2 ^ 62 + bytes) then
    some (maskAlign 64 (2 ^ 62) alignment) else none) = _
  rw [hstart, if_pos le_rfl]

/-- The search from the back stops at a region that starts at a multiple of the alignment. -/
theorem reverseStart_oneBlock {alignment m : ℕ} (ha : 0 < alignment) (hlt : alignment < 2 ^ 32)
    (hend : m * alignment + bytes < 2 ^ 64) :
    reverseStart bytes alignment (oneBlock (m * alignment) bytes) = some (m * alignment) := by
  have hword : wrap 64 (m * alignment + bytes) = m * alignment + bytes := wrap_of_lt hend
  have hsub : wrapSub 64 (m * alignment + bytes) bytes = m * alignment := by
    rw [wrapSub_of_le hend (Nat.le_add_left _ _), Nat.add_sub_cancel]
  have hstart : wrap 64 (m * alignment) = m * alignment := wrap_of_lt (by omega)
  simp [reverseStart, oneBlock, hword, hsub, hstart, wrap_of_lt hlt, Nat.mul_div_cancel m ha]

/-- Of two successive multiples of a smaller number, one is no multiple of a greater one. -/
theorem exists_not_dvd_mul {a f : ℕ} (ha : 0 < a) (hf : a < f) (m : ℕ) :
    ∃ m', (m' = m ∨ m' = m + 1) ∧ ¬f ∣ m' * a := by
  by_cases hm : f ∣ m * a
  · refine ⟨m + 1, .inr rfl, fun hsucc => ?_⟩
    rw [Nat.add_mul, Nat.one_mul] at hsucc
    exact absurd (Nat.le_of_dvd ha ((Nat.dvd_add_right hm).mp hsucc)) (by omega)
  · exact ⟨m, .inl rfl, hm⟩

/-- An alignment that divides a power of two is one, and is honoured. -/
theorem AlignmentHonoured.of_dvd_two_pow {dataType alignInPage k : ℕ}
    (h : alignInPage * pageSize ∣ 2 ^ k) : AlignmentHonoured dataType alignInPage := by
  obtain ⟨i, -, rfl⟩ := (Nat.dvd_prime_pow Nat.prime_two).mp ((Nat.dvd_mul_right _ _).trans h)
  rcases Nat.lt_or_ge i 20 with hi | hi
  · refine .inr ⟨?_, fun _ => ⟨i, rfl⟩⟩
    calc 2 ^ i * pageSize ≤ 2 ^ 19 * pageSize :=
          Nat.mul_le_mul_right _ (Nat.pow_le_pow_right (by decide) (by omega))
      _ < 2 ^ 32 := by decide
  · exact .inl (Nat.pow_dvd_pow 2 hi)

/-- For every request whose alignment is not honoured there is a platform with one region where it
succeeds and gets an address that is no multiple of the alignment. -/
theorem exists_misaligned (version : AipuVersion) (req : BufRequest) (hpos : 0 < req.bytes)
    (hlt : req.bytes < 2 ^ 32) (hregion : req.regionId = 0)
    (hnot : ¬AlignmentHonoured req.dataType req.alignInPage) :
    ∃ base bytes, 0 < bytes ∧ bytes ≤ base ∧ base + bytes ≤ 2 ^ 63 ∧
      ∃ res, aipuMmAlloc [] 0 (oneRegionMm version base bytes) req {} = some res ∧ res.ret = 0 ∧
        ¬req.alignInPage * pageSize ∣ res.buf.pa := by
  have hoverflow : req.bytes + (pageSize - 1) < 2 ^ 64 := by
    unfold pageSize
    omega
  have hge := le_maskAlign (w := 64) (a := pageSize) (by decide) hoverflow
  have hle := maskAlign_le (w := 64) (a := pageSize) (by decide) hoverflow
  have hwrap : wrap 32 (req.alignInPage * pageSize) ≠ 0 := by
    intro h0
    refine hnot (.inl ?_)
    unfold wrap pageSize at h0
    omega
  have halt := wrap_lt 32 (req.alignInPage * pageSize)
  have hpage : wrap 32 (req.alignInPage * pageSize) % pageSize = 0 := by
    unfold wrap pageSize
    omega
  generalize hn : maskAlign 64 req.bytes pageSize = bytes at hge hle
  generalize ha : wrap 32 (req.alignInPage * pageSize) = alignment at hwrap halt hpage
  have hbytes : bytes ≤ 2 ^ 33 := by
    unfold pageSize at hle
    omega
  by_cases hdir : SearchesForward req.dataType
  · obtain ⟨res, hres, hret, hpa⟩ := exists_alloc_oneRegionMm version (2 ^ 62) (by omega)
      (by omega) (by omega) hn hregion (by rwa [ha])
      (fun _ => by
        rw [ha]
        exact forwardStart_oneBlock (Nat.pos_of_ne_zero hwrap) (by omega))
      (fun hno => absurd hdir hno)
    refine ⟨2 ^ 62, bytes, by omega, by omega, by omega, res, hres, hret, fun hdvd => hnot ?_⟩
    exact .of_dvd_two_pow (hpa ▸ hdvd)
  · -- the product is not exact, since otherwise the alignment is honoured
    have hbig : 2 ^ 32 ≤ req.alignInPage * pageSize := by
      by_contra hsmall
      exact hnot (.inr ⟨by omega, fun hfwd => absurd hfwd hdir⟩)
    obtain ⟨m, hm, hndvd⟩ :=
      exists_not_dvd_mul (Nat.pos_of_ne_zero hwrap) (halt.trans_le hbig) (2 ^ 21)
    have hlow : 2 ^ 21 * pageSize ≤ m * alignment := by
      refine Nat.mul_le_mul (by omega) ?_
      exact Nat.le_of_dvd (Nat.pos_of_ne_zero hwrap) (Nat.dvd_of_mod_eq_zero hpage)
    have hhigh : m * alignment ≤ (2 ^ 21 + 1) * 2 ^ 32 := Nat.mul_le_mul (by omega) (by omega)
    unfold pageSize at hlow
    obtain ⟨res, hres, hret, hpa⟩ := exists_alloc_oneRegionMm version (m * alignment)
      (by omega) (by omega) (by omega) hn hregion (by rwa [ha]) (fun hfwd => absurd hfwd hdir)
      (fun _ => by
        rw [ha]
        exact reverseStart_oneBlock (Nat.pos_of_ne_zero hwrap) halt (by omega))
    exact ⟨m * alignment, bytes, by omega, by omega, by omega, res, hres, hret, hpa ▸ hndvd⟩

end Filled

/-! ## Which requests get what they ask for -/

/-- **Alignment of allocations.**  A request of some data type, size and alignment gets what it asks
for whenever it succeeds, in every reachable state of every platform, iff its alignment is
honoured.  The nodes of a platform share no address (`MemoryMap.disjoint`), which one node as
`aipu_probe` adds it always meets; without this a free counter may exceed the free bytes
(`overlapping_nodes_misplace`). -/
theorem alloc_meets_request_iff (version : AipuVersion) {dataType bytes alignInPage : ℕ}
    (hpos : 0 < bytes) (hlt : bytes < 2 ^ 32) :
    (∀ map : MemoryMap, (∀ n ∈ map.nodes, n.base + n.bytes ≤ 2 ^ 63) →
      ∀ s, (mmSystem version map).Reachable anyStep s → ∀ req : BufRequest,
        req.dataType = dataType → req.bytes = bytes → req.alignInPage = alignInPage →
        ∀ tid buf res, aipuMmAlloc [] tid s.mm req buf = some res → res.ret = 0 →
          MeetsRequest s.mm req res.buf) ↔ AlignmentHonoured dataType alignInPage := by
  constructor
  · intro h
    by_contra hnot
    obtain ⟨base, size, hsize, hle, hend, res, hres, hret, hndvd⟩ := exists_misaligned version
      { bytes := bytes, alignInPage := alignInPage, dataType := dataType } hpos hlt rfl hnot
    have hreach : (mmSystem version (oneRegionMap base size hle (by omega))).Reachable anyStep
        ⟨oneRegionMm version base size, []⟩ :=
      ⟨[], .start ⟨bringUp_oneRegionMap version hle (by omega) hsize, rfl⟩⟩
    exact hndvd (h _
      (by simpa [oneRegionMap] using hend) _ hreach _ rfl rfl rfl _ _ _ hres hret).aligned
  · rintro halign map - s hs req rfl rfl rfl tid buf res h hret
    obtain ⟨_, -, hinv⟩ := mmSystem_inv hs
    exact halign.meetsRequest hinv.mm hpos hlt h hret

/-- A text buffer aligned to four pages on the sample platform. -/
theorem alloc_meets_request_sample :
    ∃ res, aipuMmAlloc [] 7 sampleMm
        { bytes := 5000, alignInPage := 4, dataType := aipuMmDataTypeText } {} = some res ∧
      MeetsRequest sampleMm { bytes := 5000, alignInPage := 4, dataType := aipuMmDataTypeText }
        res.buf := by
  have hreach : (mmSystem .zhouyiV2 sampleMap).Reachable anyStep ⟨sampleMm, []⟩ :=
    ⟨[], .start ⟨bringUp_sample, rfl⟩⟩
  have halign : AlignmentHonoured aipuMmDataTypeText 4 := .inr ⟨by decide, fun _ => ⟨2, rfl⟩⟩
  have hall := (alloc_meets_request_iff .zhouyiV2 (by decide : 0 < 5000) (by decide)).mpr halign
  exact ⟨_, rfl, hall sampleMap (by decide) _ hreach _ rfl rfl rfl 7 {} _ rfl rfl⟩

/-- A stack that a model file aligns to twelve kilobytes: the sample platform places it at an
address that is no multiple of them. -/
theorem alloc_three_pages_misaligned :
    (∀ n ∈ sampleMap.nodes, n.base + n.bytes ≤ 2 ^ 63) ∧
      ∃ s, (mmSystem .zhouyiV2 sampleMap).Reachable anyStep s ∧
        ∃ res, aipuMmAlloc [] 7 s.mm
            { bytes := 0x1000, alignInPage := 3, dataType := aipuMmDataTypeRoStack } {} = some res ∧
          res.ret = 0 ∧ ¬MeetsRequest s.mm
            { bytes := 0x1000, alignInPage := 3, dataType := aipuMmDataTypeRoStack } res.buf := by
  have hreach : (mmSystem .zhouyiV2 sampleMap).Reachable anyStep ⟨sampleMm, []⟩ :=
    ⟨[], .start ⟨bringUp_sample, rfl⟩⟩
  exact ⟨by decide, _, hreach, _, rfl, rfl, fun h => absurd h.aligned (by decide)⟩

/-- Three nodes with one window. -/
def overlappingNodes : List RegionNode :=
  List.replicate 3 ⟨0x100000, 0x100000, .reserved, 0x40000000⟩

/-- Why the nodes of a platform share no address.  On three nodes with one window, three buffers are
freed in the first region; its counter then covers a request of three times its size, and the
request succeeds outside every block. -/
theorem overlapping_nodes_misplace :
    ∃ mm s es res, addRegions overlappingNodes (aipuInitMm .zhouyiV2) = some mm ∧
      (System.mk (fun s => s = ⟨mm, []⟩) mmStep).Run anyStep es s ∧
      aipuMmAlloc [] 7 s.mm { bytes := 0x300000, alignInPage := 1, dataType := aipuMmDataTypeNone }
        {} = some res ∧ res.ret = 0 ∧ ¬MeetsRequest s.mm
          { bytes := 0x300000, alignInPage := 1, dataType := aipuMmDataTypeNone } res.buf := by
  obtain ⟨mm, s, es, hadd, hexec, res, halloc, hret, hout⟩ :
      ∃ mm s es, addRegions overlappingNodes (aipuInitMm .zhouyiV2) = some mm ∧
        (System.mk (fun s => s = ⟨mm, []⟩) mmStep).exec anyStep ⟨mm, []⟩
          (List.replicate 3 (.alloc 7
              { bytes := 0x100000, alignInPage := 1, dataType := aipuMmDataTypeNone } {}) ++
            List.replicate 3 (.free { pa := 0x100000, bytes := 0x100000 })) = some (s, es) ∧
        ∃ res, aipuMmAlloc [] 7 s.mm
            { bytes := 0x300000, alignInPage := 1, dataType := aipuMmDataTypeNone } {} = some res ∧
          res.ret = 0 ∧ ∀ r ∈ s.mm.regions, ∀ blk ∈ r.blkHead, blk.pa + blk.bytes < res.buf.pa :=
    ⟨_, _, _, rfl, rfl, _, rfl, rfl, by decide⟩
  refine ⟨mm, s, es, res, hadd, System.run_of_exec rfl hexec, halloc, hret, fun hmeets => ?_⟩
  obtain ⟨r, hr, blk, hblk, -, -, hend⟩ := hmeets.inFree
  have hlt := hout r hr blk hblk
  omega

end Aipu
