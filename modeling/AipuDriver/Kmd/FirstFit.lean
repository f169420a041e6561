import AipuDriver.Lib.OrderedSearch
import AipuDriver.Lib.RoundUp
import AipuDriver.Kmd.RoStack

/-!
# Allocations find space where there is some

A request has places in a region: the aligned addresses from which its pages lie in one free block
(`AipuMemRegion.places`).  For an alignment that is a power of two, the search of a region from the
front takes the least place and the search from the back the greatest, and each fails only where
there is none.  The free bytes of a region are exact, so the guard on them passes over no region
with a place, and `aipu_mm_alloc` takes the first region of the list that has one.
-/

namespace Aipu

open ListSearch RoundUp Tiling Transition Word

/-! ## Places -/

/-- The aligned addresses from which `bytes` bytes lie in the block, when that is free. -/
def AipuBlock.places (bytes alignment : ℕ) (blk : AipuBlock) : Set ℕ :=
  {p | blk.state = .free ∧ alignment ∣ p ∧ FitsIn blk p bytes}

/-- The places of a request in a region. -/
def AipuMemRegion.places (r : AipuMemRegion) (req : BufRequest) : Set ℕ :=
  placesOf (AipuBlock.places (roundUp req.bytes pageSize) (req.alignInPage * pageSize)) r.blkHead

/-- The place that the request should get: the least one for text, rodata and stack, the greatest
one for other data. -/
structure BestPlace (r : AipuMemRegion) (req : BufRequest) (p : ℕ) : Prop where
  least : SearchesForward req.dataType → IsLeast (r.places req) p
  greatest : ¬SearchesForward req.dataType → IsGreatest (r.places req) p

/-- The regions where a request may be placed: rodata and stack go to the region of the text on the
second version of the hardware. -/
def BufRequest.Eligible (req : BufRequest) (version : AipuVersion) (r : AipuMemRegion) : Prop :=
  version = .zhouyiV2 → req.dataType = aipuMmDataTypeRoStack → r.id = req.regionId

/-- A request of less than 4 GiB whose alignment is a power of two below `2 ^ 20` pages. -/
structure BufRequest.Regular (req : BufRequest) : Prop where
  pos : 0 < req.bytes
  lt : req.bytes < 2 ^ 32
  alignment : ∃ k < 20, req.alignInPage = 2 ^ k

/-! ## The searches of a block -/

section Blocks

variable {blk : AipuBlock} {bytes alignment k : ℕ}

/-- The places of a block lie in it. -/
theorem AipuBlock.places_bounds {p : ℕ} (h : p ∈ blk.places bytes alignment) :
    blk.pa ≤ p ∧ p + bytes ≤ blk.pa + blk.bytes := h.2.2

/-- The search from the front, in exact arithmetic. -/
theorem forwardStart_eq (hend : blk.pa + blk.bytes ≤ 2 ^ 63) (hb : bytes < 2 ^ 63) (hk : k ≤ 63) :
    forwardStart bytes (2 ^ k) blk =
      if blk.state = .free ∧ roundUp blk.pa (2 ^ k) + bytes ≤ blk.pa + blk.bytes then
        some (roundUp blk.pa (2 ^ k)) else none := by
  have hround : roundUp blk.pa (2 ^ k) ≤ 2 ^ 63 := roundUp_le (Nat.pow_dvd_pow 2 hk) (by omega)
  have hstart : maskAlign 64 blk.pa (2 ^ k) = roundUp blk.pa (2 ^ k) :=
    maskAlign_eq_roundUp (by omega) (by omega)
  unfold forwardStart
  simp only [hstart]
  rw [wrap_of_lt (by omega : roundUp blk.pa (2 ^ k) + bytes < 2 ^ 64),
    wrap_of_lt (by omega : blk.pa + blk.bytes < 2 ^ 64)]
  cases blk.state <;> simp

/-- The search from the front answers with the least place of a block. -/
theorem forwardStart_answers (hend : blk.pa + blk.bytes ≤ 2 ^ 63) (hb : bytes < 2 ^ 63)
    (hk : k ≤ 63) :
    Answers IsLeast (AipuBlock.places bytes (2 ^ k)) (forwardStart bytes (2 ^ k)) blk := by
  have hle := le_roundUp blk.pa (2 ^ k)
  have hlower : ∀ p ∈ blk.places bytes (2 ^ k), roundUp blk.pa (2 ^ k) ≤ p :=
    fun p hp => roundUp_le hp.2.1 hp.2.2.1
  constructor
  · intro b h
    rw [forwardStart_eq hend hb hk] at h
    obtain ⟨⟨hfree, hfits⟩, h⟩ := Option.ite_none_right_eq_some.mp h
    obtain rfl := Option.some.inj h
    exact ⟨⟨hfree, dvd_roundUp (Nat.two_pow_pos k).ne', hle, hfits⟩, hlower⟩
  · intro h
    refine Set.eq_empty_of_forall_notMem fun p hp => ?_
    have hp' := hlower p hp
    obtain ⟨hfree, -, -, hupper⟩ := hp
    rw [forwardStart_eq hend hb hk, if_pos ⟨hfree, by omega⟩] at h
    cases h

/-- The search from the back, in exact arithmetic, when the block ends no lower than the size of the
request. -/
theorem reverseStart_eq (hend : blk.pa + blk.bytes ≤ 2 ^ 63) (hb : bytes ≤ blk.pa + blk.bytes)
    (ha : alignment < 2 ^ 32) :
    reverseStart bytes alignment blk =
      if blk.state = .free ∧ blk.pa ≤ (blk.pa + blk.bytes - bytes) / alignment * alignment then
        some ((blk.pa + blk.bytes - bytes) / alignment * alignment) else none := by
  have hmul := Nat.div_mul_le_self (blk.pa + blk.bytes - bytes) alignment
  unfold reverseStart
  dsimp only
  rw [wrap_of_lt ha, wrap_of_lt (by omega : blk.pa + blk.bytes < 2 ^ 64),
    wrapSub_of_le (by omega) hb, wrap_of_lt (by omega :
      (blk.pa + blk.bytes - bytes) / alignment * alignment < 2 ^ 64), wrap_of_lt (by omega)]
  have hfits : (blk.pa + blk.bytes - bytes) / alignment * alignment + bytes ≤
      blk.pa + blk.bytes := by
    omega
  cases blk.state <;> simp [hfits]

/-- The search from the back answers with the greatest place of such a block. -/
theorem reverseStart_answers (hend : blk.pa + blk.bytes ≤ 2 ^ 63) (hb : bytes ≤ blk.pa + blk.bytes)
    (hpos : 0 < alignment) (ha : alignment < 2 ^ 32) :
    Answers IsGreatest (AipuBlock.places bytes alignment) (reverseStart bytes alignment) blk := by
  have hmul := Nat.div_mul_le_self (blk.pa + blk.bytes - bytes) alignment
  have hupper : ∀ p ∈ blk.places bytes alignment,
      p ≤ (blk.pa + blk.bytes - bytes) / alignment * alignment := by
    rintro p ⟨-, ⟨q, rfl⟩, -, hfits⟩
    rw [Nat.mul_comm alignment q] at hfits ⊢
    exact Nat.mul_le_mul_right _ ((Nat.le_div_iff_mul_le hpos).mpr (by omega))
  constructor
  · intro b h
    rw [reverseStart_eq hend hb ha] at h
    obtain ⟨⟨hfree, hfits⟩, h⟩ := Option.ite_none_right_eq_some.mp h
    obtain rfl := Option.some.inj h
    exact ⟨⟨hfree, Nat.dvd_mul_left _ _, hfits, by omega⟩, hupper⟩
  · intro h
    refine Set.eq_empty_of_forall_notMem fun p hp => ?_
    have hp' := hupper p hp
    obtain ⟨hfree, -, hlower, -⟩ := hp
    rw [reverseStart_eq hend hb ha, if_pos ⟨hfree, by omega⟩] at h
    cases h

end Blocks

/-! ## The search of a region -/

section Region

variable {r : AipuMemRegion} {req : BufRequest} {c : Cursor AipuBlock} {start : ℕ}

/-- The places of the blocks lie in the order of the blocks. -/
theorem AipuMemRegion.Inv.inOrder (hr : r.Inv) (bytes alignment : ℕ) :
    InOrder (AipuBlock.places bytes alignment) r.blkHead := by
  refine hr.tiles.pairwise.imp fun {x y} hxy p hp q hq => ?_
  have hx := (AipuBlock.places_bounds hp).2
  have hy := (AipuBlock.places_bounds hq).1
  omega

/-- The size of a regular request, in exact arithmetic. -/
theorem BufRequest.Regular.getAllocSize_eq (hreq : req.Regular) (hp : r.Placed) :
    getAllocSize r req.bytes = roundUp req.bytes pageSize := by
  have hle : roundUp req.bytes pageSize ≤ 2 ^ 32 := roundUp_le (by decide) hreq.lt.le
  have hsize : getAllocSize r req.bytes = maskAlign 64 req.bytes pageSize := by
    simp [getAllocSize, hp.flag, Nat.pos_iff_ne_zero.mp hreq.pos]
  rw [hsize]
  exact maskAlign_eq_roundUp (k := 12) (by decide) (hle.trans_lt (by decide))

/-- The alignment of a regular request, in exact arithmetic. -/
theorem BufRequest.Regular.alignment_eq (hreq : req.Regular) :
    ∃ k < 32, req.alignInPage * pageSize = 2 ^ k ∧ wrap 32 (req.alignInPage * 4 * 1024) = 2 ^ k ∧
      2 ^ k % pageSize = 0 := by
  obtain ⟨k, hk, heq⟩ := hreq.alignment
  have hprod : req.alignInPage * pageSize = 2 ^ (k + 12) := by
    rw [heq, pow_add]
    rfl
  have hlt : (2 : ℕ) ^ (k + 12) < 2 ^ 32 := Nat.pow_lt_pow_right (by decide) (by omega)
  refine ⟨k + 12, by omega, hprod, ?_, ?_⟩
  · have hsame : req.alignInPage * 4 * 1024 = req.alignInPage * pageSize := by
      unfold pageSize
      omega
    rw [hsame, hprod, wrap_of_lt hlt]
  · exact Nat.mod_eq_zero_of_dvd (Nat.pow_dvd_pow 2 (Nat.le_add_left 12 k))

/-- A region with a place has enough free bytes, so the guard on them passes over no such region. -/
theorem AipuMemRegion.Inv.le_totFreeBytes (hr : r.Inv) (h : (r.places req).Nonempty) :
    roundUp req.bytes pageSize ≤ r.totFreeBytes := by
  obtain ⟨p, blk, hblk, hfree, -, hlower, hupper⟩ := h
  have hle : blk.bytes ≤ freeLen AipuBlock.bytes AipuBlock.isFree r.blkHead :=
    le_freeLen hblk (AipuBlock.isFree_eq_true.mpr hfree)
  rw [hr.totFree]
  omega

/-- In a region that is tried for a regular request, the search stops at the best place, or there is
no place. -/
theorem BufRequest.Regular.candidate_spec (hreq : req.Regular) (hr : r.Inv) (hp : r.Placed)
    (hend : r.pa + r.totBytes ≤ 2 ^ 63)
    (hserves : ¬SearchesForward req.dataType → roundUp req.bytes pageSize ≤ r.totFreeBytes) :
    (∀ c start, r.candidate req = .ok (c, start) →
        FitsIn c.entry start (roundUp req.bytes pageSize) ∧ BestPlace r req start) ∧
      ∀ e, r.candidate req = .error e → r.places req = ∅ := by
  have hpos : roundUp req.bytes pageSize ≠ 0 :=
    (hreq.pos.trans_le (le_roundUp req.bytes pageSize)).ne'
  have hsize : roundUp req.bytes pageSize ≤ 2 ^ 32 := roundUp_le (by decide) hreq.lt.le
  have hord := hr.inOrder (roundUp req.bytes pageSize) (req.alignInPage * pageSize)
  have hbounds : ∀ blk ∈ r.blkHead, r.pa ≤ blk.pa ∧ blk.pa + blk.bytes ≤ r.pa + r.totBytes :=
    fun blk hblk => hr.tiles.bounds hblk
  obtain ⟨k, hk, hexact, hwrap, hpage⟩ := hreq.alignment_eq
  have hlt : (2 : ℕ) ^ k < 2 ^ 32 := Nat.pow_lt_pow_right (by decide) hk
  have hfwd : ∀ blk ∈ r.blkHead, Answers IsLeast
      (AipuBlock.places (roundUp req.bytes pageSize) (2 ^ k))
      (forwardStart (roundUp req.bytes pageSize) (2 ^ k)) blk := fun blk hblk => by
    obtain ⟨-, hupper⟩ := hbounds blk hblk
    exact forwardStart_answers (by omega) (by omega) (by omega)
  have hrev : ¬SearchesForward req.dataType → ∀ blk ∈ r.blkHead, Answers IsGreatest
      (AipuBlock.places (roundUp req.bytes pageSize) (2 ^ k))
      (reverseStart (roundUp req.bytes pageSize) (2 ^ k)) blk := fun hnot blk hblk => by
    obtain ⟨hlower, hupper⟩ := hbounds blk hblk
    have hfree := hserves hnot
    have hbal := hr.totFree_add_allocated
    have hle := hp.totBytes_le
    exact reverseStart_answers (by omega) (by omega) (Nat.two_pow_pos k) hlt
  rw [hexact] at hord
  have hsearch : r.candidate req =
      aipuMmFindBlockCandidateNoLock r.blkHead (roundUp req.bytes pageSize) (2 ^ k)
      req.dataType := by rw [AipuMemRegion.candidate, hreq.getAllocSize_eq hp, hwrap]
  rw [hsearch, AipuMemRegion.places, hexact]
  refine ⟨fun c start h => ?_, fun e h => ?_⟩
  · obtain ⟨-, -, -, hfound⟩ := aipuMmFindBlockCandidateNoLock_eq_ok.mp h
    unfold findCandidate at hfound
    by_cases hdir : SearchesForward req.dataType
    · rw [if_pos hdir] at hfound
      obtain ⟨hplace, hleast⟩ := findFirst_isLeast hord hfwd hfound
      refine ⟨hplace.2.2, fun _ => ?_, fun hnot => absurd hdir hnot⟩
      rwa [AipuMemRegion.places, hexact]
    · rw [if_neg hdir] at hfound
      obtain ⟨hplace, hgreatest⟩ := findLast_isGreatest hord (hrev hdir) hfound
      refine ⟨hplace.2.2, fun hfwd' => absurd hfwd' hdir, fun _ => ?_⟩
      rwa [AipuMemRegion.places, hexact]
  · obtain ⟨-, hmissed⟩ :=
      (aipuMmFindBlockCandidateNoLock_eq_error (Nat.pos_of_ne_zero hpos)
        (Nat.two_pow_pos k) hpage).mp h
    unfold findCandidate at hmissed
    by_cases hdir : SearchesForward req.dataType
    · rw [if_pos hdir] at hmissed
      exact placesOf_of_findFirst hfwd hmissed
    · rw [if_neg hdir] at hmissed
      exact placesOf_of_findLast (hrev hdir) hmissed

/-- A range inside a block is not refused by the split. -/
theorem FitsIn.not_refused {blk : AipuBlock} {bytes : ℕ} (h : FitsIn blk start bytes)
    (hb : 0 < bytes) (hend : blk.pa + blk.bytes < 2 ^ 64) : ¬Refused blk start bytes := by
  obtain ⟨hlower, hupper⟩ := h
  unfold Refused
  rw [lastAddr_eq (by omega) hend, lastAddr_eq (by omega) (by omega)]
  omega

/-- `r'` is `r` with the best place of the request allocated. -/
structure GrantedBest (r r' : AipuMemRegion) (req : BufRequest) (buf : AipuBuffer) : Prop where
  place : BestPlace r req buf.pa
  bytes : buf.bytes = roundUp req.bytes pageSize
  regionId : buf.regionId = r.id
  granted : Granted r r' buf

/-- A best place is a place. -/
theorem BestPlace.nonempty {p : ℕ} (h : BestPlace r req p) : (r.places req).Nonempty := by
  by_cases hdir : SearchesForward req.dataType
  · exact (h.least hdir).nonempty
  · exact (h.greatest hdir).nonempty

/-- A buffer gets the identifier of its region. -/
theorem aipuMmTryAllocInRegion_regionId {kz : Oracle} {tid : ℤ} {buf : AipuBuffer}
    {res : AllocResult AipuMemRegion} (h : aipuMmTryAllocInRegion kz tid r req buf = some res)
    (hret : res.ret = 0) : res.buf.regionId = res.mem.id := by
  unfold aipuMmTryAllocInRegion at h
  split at h
  · cases h
  · split_ifs at h with h0
    · obtain rfl := Option.some.inj h
      rfl
    · obtain rfl := Option.some.inj h
      exact absurd hret h0

/-- A try for a regular request grants the best place, or there is none. -/
theorem BufRequest.Regular.try_spec (hreq : req.Regular) (hr : r.Inv) (hp : r.Placed)
    (hend : r.pa + r.totBytes ≤ 2 ^ 63) (hserves : r.Serves req) (tid : ℤ) (buf : AipuBuffer) :
    ∃ out, aipuMmTryAllocInRegion [] tid r req buf = some out ∧ out.kz = [] ∧
      (out.ret ≠ 0 ∧ out.mem = r ∧ out.req = req ∧ out.buf = buf ∧ r.places req = ∅ ∨
        out.ret = 0 ∧ GrantedBest r out.mem req out.buf) := by
  obtain ⟨out, hout, hkz⟩ : ∃ out, aipuMmTryAllocInRegion [] tid r req buf = some out ∧
      out.kz = [] :=
    aipuMmTryAllocInRegion_total
  refine ⟨out, hout, hkz, ?_⟩
  have hsize := hreq.getAllocSize_eq hp
  obtain ⟨hok, herror⟩ := hreq.candidate_spec hr hp hend fun hnot =>
    hsize ▸ hserves.resolve_left fun hfwd => hnot hfwd.1
  rcases aipuMmTryAllocInRegion_cases hout with
    ⟨hret, hmem, hreq', hbuf⟩ | ⟨hret, c, start, hplaced⟩
  · refine .inl ⟨hret, hmem, hreq', hbuf, ?_⟩
    cases hfind : r.candidate req with
    | error e => exact herror e hfind
    | ok found =>
      -- the split succeeds at the place that was found
      obtain ⟨c, start⟩ := found
      obtain ⟨hl, hpos, -⟩ := aipuMmFindBlockCandidateNoLock_spec hfind
      have hblk := (hr.tiles.bounds (hl ▸ c.entry_mem : c.entry ∈ r.blkHead)).2
      obtain ⟨hfit, -⟩ := hok c start hfind
      rw [← hsize] at hfit
      obtain ⟨l, hsplit⟩ := exists_split_of_not_refused tid req.dataType hpos
        (hfit.not_refused hpos (by omega))
      obtain ⟨out', hout', hret', -⟩ := exists_try_of_split buf hfind hsplit
      obtain rfl := Option.some.inj (hout.symm.trans hout')
      exact absurd hret' hret
  · refine .inr ⟨hret, ⟨?_, ?_, ?_, ?_⟩⟩
    · exact hplaced.pa ▸ (hok c start hplaced.found).2
    · exact hplaced.bytes.trans hsize
    · rw [aipuMmTryAllocInRegion_regionId hout hret, hplaced.mem]
    · rcases aipuMmTryAllocInRegion_spec hr hp hserves hout with ⟨hne, -⟩ | ⟨-, hgrant⟩
      · exact absurd hret hne
      · exact hgrant

end Region

/-! ## The scan of the regions -/

section Scan

variable {tid : ℤ} {req : BufRequest} {mm : AipuMemoryManager}

/-- The scan grants the best place of the first region selected that has one, or none of them
has. -/
theorem BufRequest.Regular.scan_spec (hreq : req.Regular) {sel : AipuMemRegion → Bool}
    {head : List AipuMemRegion} (hinv : ∀ r ∈ head, r.Inv) (hplaced : ∀ r ∈ head, r.Placed)
    (hend : ∀ r ∈ head, r.pa + r.totBytes ≤ 2 ^ 63)
    (hserves : ∀ r ∈ head, sel r = true → r.Serves req) {ret : ℤ} (hret : ret ≠ 0)
    (buf : AipuBuffer) :
    ∃ res, scanRegions sel tid head ret [] req buf = some res ∧
      (res.ret ≠ 0 ∧ res.mem = head ∧ (∀ r ∈ head, sel r = true → r.places req = ∅) ∨
        res.ret = 0 ∧ ∃ pre r r' post, head = pre ++ r :: post ∧
          (∀ q ∈ pre, sel q = true → q.places req = ∅) ∧ sel r = true ∧
          GrantedBest r r' req res.buf ∧ res.mem = pre ++ r' :: post) := by
  induction head generalizing ret buf with
  | nil => exact ⟨_, rfl, .inl ⟨hret, rfl, by simp⟩⟩
  | cons r rest ih =>
    obtain ⟨hr, hinv⟩ := List.forall_mem_cons.mp hinv
    obtain ⟨hp, hplaced⟩ := List.forall_mem_cons.mp hplaced
    obtain ⟨hr63, hend⟩ := List.forall_mem_cons.mp hend
    obtain ⟨hserve, hserves⟩ := List.forall_mem_cons.mp hserves
    have ih := fun (ret : ℤ) (hret : ret ≠ 0) buf => ih hinv hplaced hend hserves hret buf
    -- what the rest gives, when the first region is passed over
    have hpass : (sel r = true → r.places req = ∅) → ∀ {res : AllocResult (List AipuMemRegion)},
        (res.ret ≠ 0 ∧ res.mem = rest ∧ (∀ q ∈ rest, sel q = true → q.places req = ∅) ∨
          res.ret = 0 ∧ ∃ pre q q' post, rest = pre ++ q :: post ∧
            (∀ q ∈ pre, sel q = true → q.places req = ∅) ∧ sel q = true ∧
            GrantedBest q q' req res.buf ∧ res.mem = pre ++ q' :: post) →
        (res.ret ≠ 0 ∧ r :: res.mem = r :: rest ∧
            (∀ q ∈ r :: rest, sel q = true → q.places req = ∅) ∨
          res.ret = 0 ∧ ∃ pre q q' post, r :: rest = pre ++ q :: post ∧
            (∀ q ∈ pre, sel q = true → q.places req = ∅) ∧ sel q = true ∧
            GrantedBest q q' req res.buf ∧ r :: res.mem = pre ++ q' :: post) := by
      rintro hnone res (⟨hne, hmem, hall⟩ | ⟨h0, pre, q, q', post, hl, hpre, hq, hgrant, hmem⟩)
      · exact .inl ⟨hne, congrArg (r :: ·) hmem, List.forall_mem_cons.mpr ⟨hnone, hall⟩⟩
      · exact .inr ⟨h0, r :: pre, q, q', post, congrArg (r :: ·) hl,
          List.forall_mem_cons.mpr ⟨hnone, hpre⟩, hq, hgrant, congrArg (r :: ·) hmem⟩
    rw [scanRegions]
    split
    next hsel =>
      obtain ⟨out, hout, hkz, hcases⟩ := hreq.try_spec hr hp hr63 (hserve hsel) tid buf
      rw [hout]
      rcases hcases with ⟨hne, hmem, hreq', hbuf, hnone⟩ | ⟨h0, hgrant⟩
      · obtain ⟨res, hres, hspec⟩ := ih out.ret hne buf
        simp only [if_neg hne, hkz, hreq', hbuf, hres, hmem]
        exact ⟨_, rfl, hpass (fun _ => hnone) hspec⟩
      · simp only [if_pos h0]
        exact ⟨_, rfl, .inr ⟨rfl, [], r, out.mem, rest, rfl, by simp, hsel, hgrant, rfl⟩⟩
    next hsel =>
      obtain ⟨res, hres, hspec⟩ := ih ret hret buf
      rw [hres]
      exact ⟨_, rfl, hpass (fun hsel' => absurd hsel' hsel) hspec⟩

/-- A region with a place is selected when the request may be placed there. -/
theorem BufRequest.Regular.selects_of_places (hreq : req.Regular) {r : AipuMemRegion} (hr : r.Inv)
    (hp : r.Placed) {version : AipuVersion} (helig : req.Eligible version r)
    (h : (r.places req).Nonempty) : req.selects version r = true := by
  unfold BufRequest.selects
  split_ifs with hro
  · exact decide_eq_true (helig hro.1 hro.2).symm
  · rw [hreq.getAllocSize_eq hp]
    exact decide_eq_true (hr.le_totFreeBytes h)

/-- The request may be placed in the regions that are selected. -/
theorem BufRequest.eligible_of_selects {r : AipuMemRegion} {version : AipuVersion}
    (h : req.selects version r = true) : req.Eligible version r := by
  intro hv hro
  unfold BufRequest.selects at h
  rw [if_pos ⟨hv, hro⟩] at h
  exact (of_decide_eq_true h).symm

end Scan

/-! ## Allocation -/

/-- An allocation that takes the best place of the first region that has one, and fails only where
there is none. -/
structure FirstFit (mm : AipuMemoryManager) (req : BufRequest)
    (res : AllocResult AipuMemoryManager) :
    Prop where
  iff : res.ret = 0 ↔ ∃ r ∈ mm.ddrHead, req.Eligible mm.version r ∧ (r.places req).Nonempty
  first : res.ret = 0 → ∃ pre r r' post, mm.ddrHead = pre ++ r :: post ∧
    (∀ q ∈ pre, req.Eligible mm.version q → q.places req = ∅) ∧ req.Eligible mm.version r ∧
    GrantedBest r r' req res.buf ∧ res.mem = { mm with ddrHead := pre ++ r' :: post }
  unchanged : res.ret ≠ 0 → res.mem = mm
  guard : ∀ r ∈ mm.ddrHead, (r.places req).Nonempty → getAllocSize r req.bytes ≤ r.totFreeBytes

/-- A region that serves a request is not overtaken by it. -/
theorem AipuMemRegion.Serves.not_overtaken {r : AipuMemRegion} {req : BufRequest} (h : r.Serves req)
    (hr : r.Inv) (hp : r.Placed) (hlow : r.Low) : ¬r.OvertakenBy req := by
  rintro ⟨c, start, hfind, hpass⟩
  have hfit := (h.placed hr hp hfind).2.resolve_right (hlow.not_refused hfind hpass)
  obtain ⟨-, -, hend⟩ := hlow.entry hfind
  have hupper := hfit.2
  omega

/-- The calls of the memory manager keep the regions below `2 ^ 63`, and their number counted. -/
theorem mmSystem_callInv {version : AipuVersion} {map : MemoryMap}
    (hmap : ∀ n ∈ map.nodes, n.base + n.bytes ≤ 2 ^ 63) {s : MmState}
    (h : (mmSystem version map).Reachable anyStep s) : s.mm.Inv ∧ CallInv version s.mm := by
  obtain ⟨mm₀, hbring, hinv, hocc⟩ := bringUp_inv version map
  obtain ⟨tr, hrun⟩ := h
  have hboth : s.Inv mm₀.geometry ∧ CallInv version s.mm := by
    refine hrun.stateInvariant (I := fun s => s.Inv mm₀.geometry ∧ CallInv version s.mm) ?_ ?_
    · rintro s ⟨hs, hlive⟩
      obtain rfl : mm₀ = s.mm := Option.some.inj (hbring.symm.trans hs)
      have hempty : CallInv version (aipuInitMm version) :=
        ⟨rfl, by simp [AipuMemoryManager.regions, aipuInitMm], by simp [aipuInitMm],
          by simp [aipuInitMm], rfl⟩
      exact ⟨⟨hinv, rfl, by rw [hocc, hlive]⟩, hempty.addRegions hmap hs⟩
    · rintro s a s' es ⟨hs, hcall⟩ - hstep
      refine ⟨mmStep_inv hs hstep, ?_⟩
      cases a with
      | alloc tid req buf =>
        simp only [mmSystem, mmStep] at hstep
        split at hstep
        next hbytes =>
          obtain ⟨res, hres⟩ := aipuMmAlloc_total tid s.mm req buf
          rw [hres] at hstep
          obtain ⟨rfl, -⟩ := Prod.mk.inj (Option.some.inj hstep)
          refine (hcall.alloc (fun r hr hsel => ?_) hres).1
          have hr := List.mem_append_right s.mm.sramHead hr
          exact (BufRequest.serves_of_selects (hs.mm.placed r hr) (BufRequest.noWrap_of_lt _ hbytes)
            hsel).not_overtaken (hs.mm.region r hr) (hs.mm.placed r hr) (hcall.low r hr)
        · cases hstep
      | free desc =>
        simp only [mmSystem, mmStep] at hstep
        split at hstep
        · cases hfree : aipuMmFree s.mm desc with
          | mk ret mm =>
          rw [hfree] at hstep
          obtain ⟨rfl, -⟩ := Prod.mk.inj (Option.some.inj hstep)
          exact hcall.free hfree
        · cases hstep
  exact ⟨hboth.1.mm, hboth.2⟩

/-- **First fit.**  In every reachable state of every platform below `2 ^ 63`, a regular request
succeeds iff a region where it may be placed has a place for it, and takes the best place of the
first such region.  The nodes of the platform share no address (`MemoryMap.disjoint`), since the
guard is right only as long as a free counter does not exceed the free bytes. -/
theorem alloc_first_fit (version : AipuVersion) (map : MemoryMap)
    (hmap : ∀ n ∈ map.nodes, n.base + n.bytes ≤ 2 ^ 63) {s : MmState}
    (h : (mmSystem version map).Reachable anyStep s) {req : BufRequest}
    (hreq : req.Regular) (tid : ℤ) (buf : AipuBuffer) :
    s.mm.version = version ∧
      ∃ res, aipuMmAlloc [] tid s.mm req buf = some res ∧ FirstFit s.mm req res := by
  obtain ⟨hmm, hcall⟩ := mmSystem_callInv hmap h
  have hddr : ∀ r ∈ s.mm.ddrHead, r ∈ s.mm.regions := fun r hr => List.mem_append_right _ hr
  have hinv := fun r hr => hmm.region r (hddr r hr)
  have hplaced := fun r hr => hmm.placed r (hddr r hr)
  have hguard : ∀ r ∈ s.mm.ddrHead, (r.places req).Nonempty →
      getAllocSize r req.bytes ≤ r.totFreeBytes := fun r hr hne => by
    rw [hreq.getAllocSize_eq (hplaced r hr)]
    exact (hinv r hr).le_totFreeBytes hne
  have hnone : ∀ l : List AipuMemRegion, (∀ r ∈ l, r ∈ s.mm.ddrHead) →
      (∀ r ∈ l, req.selects s.mm.version r = true → r.places req = ∅) →
      ∀ r ∈ l, req.Eligible s.mm.version r → r.places req = ∅ := fun l hl hempty r hr helig => by
    by_contra hne
    have hsel := hreq.selects_of_places (hinv r (hl r hr)) (hplaced r (hl r hr)) helig
      (Set.nonempty_iff_ne_empty.mpr hne)
    exact hne (hempty r hr hsel)
  have hnomem : (-enomem : ℤ) ≠ 0 := by decide
  obtain ⟨k, -, halign⟩ := hreq.alignment
  have halign : req.alignInPage ≠ 0 := halign ▸ (Nat.two_pow_pos k).ne'
  refine ⟨hcall.version, ?_⟩
  unfold aipuMmAlloc
  rw [if_neg (by simp [hreq.pos.ne', halign])]
  dsimp only
  by_cases hcnt : s.mm.sramCnt = 0 ∧ s.mm.ddrCnt = 0
  · -- there is no region at all
    have hnil : s.mm.ddrHead = [] := List.eq_nil_of_length_eq_zero (hcall.ddrCnt.symm.trans hcnt.2)
    rw [if_pos hcnt]
    refine ⟨_, rfl, ⟨iff_of_false hnomem (by simp [hnil]), fun h0 => absurd h0 hnomem,
      fun _ => rfl, hguard⟩⟩
  rw [if_neg hcnt, if_neg (by simp [aipuConfigEnableSram]), allocFromDdr, aipuMmScanRegionsAlloc_eq]
  obtain ⟨res, hres, hcases⟩ :
      ∃ res, scanRegions (req.selects s.mm.version) tid s.mm.ddrHead (-enomem) [] req {} =
        some res ∧ _ :=
    hreq.scan_spec hinv hplaced (fun r hr => (hcall.low r (hddr r hr)).end_le)
    (fun r hr hsel => BufRequest.serves_of_selects (hplaced r hr)
      (BufRequest.noWrap_of_lt _ hreq.lt) hsel)
    hnomem {}
  rw [hres]
  refine ⟨_, rfl, ?_⟩
  rcases hcases with ⟨hret, hmem, hempty⟩ | ⟨hret, pre, r, r', post, hl, hpre, hsel, hgrant, hmem⟩
  · refine ⟨iff_of_false hret ?_, fun h0 => absurd h0 hret, fun _ => ?_, hguard⟩
    · rintro ⟨r, hr, helig, hne⟩
      exact hne.ne_empty (hnone _ (fun _ hr => hr) hempty r hr helig)
    · dsimp only
      rw [hmem]
  · have hr : r ∈ s.mm.ddrHead := hl ▸ by simp
    have helig := BufRequest.eligible_of_selects hsel
    refine ⟨iff_of_true hret ⟨r, hr, helig, hgrant.place.nonempty⟩, fun _ => ?_,
      fun hne => absurd hret hne, hguard⟩
    refine ⟨pre, r, r', post, hl,
      hnone pre (fun q hq => hl ▸ List.mem_append_left _ hq) hpre, helig, hgrant, ?_⟩
    dsimp only
    rw [hmem]

/-- A text buffer on the sample platform is placed at the start of its region. -/
theorem alloc_first_fit_sample :
    ∃ res, aipuMmAlloc [] 7 sampleMm
        { bytes := 5000, alignInPage := 4, dataType := aipuMmDataTypeText } {} = some res ∧
      res.buf.pa = 0x100000 ∧
      FirstFit sampleMm
        { bytes := 5000, alignInPage := 4, dataType := aipuMmDataTypeText } res := by
  have hreach : (mmSystem .zhouyiV2 sampleMap).Reachable anyStep ⟨sampleMm, []⟩ :=
    ⟨[], .start ⟨bringUp_sample, rfl⟩⟩
  have hreq : BufRequest.Regular
      { bytes := 5000, alignInPage := 4, dataType := aipuMmDataTypeText } :=
    ⟨by decide, by decide, 2, by decide, rfl⟩
  obtain ⟨-, res, hres, hfit⟩ := alloc_first_fit .zhouyiV2 sampleMap (by decide) hreach hreq 7 {}
  refine ⟨res, hres, ?_, hfit⟩
  exact congrArg (fun r => r.buf.pa) (Option.some.inj (hres.symm.trans rfl))

end Aipu
