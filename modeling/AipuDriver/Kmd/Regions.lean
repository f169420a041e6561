import Mathlib.Data.List.Nodup
import Mathlib.Data.List.Pairwise
import AipuDriver.Kmd.Region

/-!
# All regions of the memory manager

The regions of a memory manager satisfy their invariant, are placed and pairwise disjoint
(`AipuMemoryManager.Inv`).  Its content is `AipuMemoryManager.allocated`, the ranges allocated in
any region.  An allocation fails and changes nothing or adds the range it returns (`MmGranted`); a
release of an allocated range finds the right region, since regions are disjoint, and takes the
range away (`MmReleased`).
-/

namespace Aipu

open ListSearch Word Tiling

/-! ## Lists of regions -/

/-- The windows of two regions share no address. -/
def AipuMemRegion.DisjointFrom (r s : AipuMemRegion) : Prop :=
  r.pa + r.totBytes ≤ s.pa ∨ s.pa + s.totBytes ≤ r.pa

instance : Std.Symm AipuMemRegion.DisjointFrom := ⟨fun _ _ => Or.symm⟩

/-- A list of regions that satisfy their invariant, are placed and pairwise disjoint. -/
structure RegionsInv (l : List AipuMemRegion) : Prop where
  region : ∀ r ∈ l, r.Inv
  placed : ∀ r ∈ l, r.Placed
  disjoint : l.Pairwise AipuMemRegion.DisjointFrom

/-- `l'` is `l` with one region replaced by a region related to it by `R`. -/
def ReplacedIn (R : AipuMemRegion → AipuMemRegion → Prop) (l l' : List AipuMemRegion) : Prop :=
  ∃ pre r r' post, l = pre ++ r :: post ∧ l' = pre ++ r' :: post ∧ R r r'

section Lists

variable {R : AipuMemRegion → AipuMemRegion → Prop} {l l' m : List AipuMemRegion}

/-- A replacement in a list is one in any list that contains it. -/
theorem ReplacedIn.append_right (h : ReplacedIn R l l') : ReplacedIn R (l ++ m) (l' ++ m) := by
  obtain ⟨pre, r, r', post, rfl, rfl, hR⟩ := h
  exact ⟨pre, r, r', post ++ m, by simp, by simp, hR⟩

/-- A replacement in a list is one in any list that contains it. -/
theorem ReplacedIn.append_left (h : ReplacedIn R l l') : ReplacedIn R (m ++ l) (m ++ l') := by
  obtain ⟨pre, r, r', post, rfl, rfl, hR⟩ := h
  exact ⟨m ++ pre, r, r', post, by simp, by simp, hR⟩

/-- Windows depend on the geometry only. -/
theorem AipuMemRegion.window_of_geometry {r r' : AipuMemRegion} (h : r'.geometry = r.geometry) :
    r'.pa = r.pa ∧ r'.totBytes = r.totBytes := by
  simp only [geometry, Prod.mk.injEq] at h
  exact ⟨h.2.1, h.2.2.2.1⟩

/-- Disjointness depends on the geometry only. -/
theorem disjoint_of_geometry (h : l.Pairwise AipuMemRegion.DisjointFrom)
    (hg : l'.map AipuMemRegion.geometry = l.map AipuMemRegion.geometry) :
    l'.Pairwise AipuMemRegion.DisjointFrom := by
  have key : ∀ l : List AipuMemRegion, l.Pairwise AipuMemRegion.DisjointFrom ↔
      (l.map AipuMemRegion.geometry).Pairwise fun g g' =>
        g.2.1 + g.2.2.2.1 ≤ g'.2.1 ∨ g'.2.1 + g'.2.2.2.1 ≤ g.2.1 := by
    intro l
    rw [List.pairwise_map]
    rfl
  rw [key, hg, ← key]
  exact h

/-- Replacing a region by one of the same geometry that satisfies the invariant keeps the
invariant of the list. -/
theorem RegionsInv.replace {pre post : List AipuMemRegion} {r r' : AipuMemRegion}
    (h : RegionsInv (pre ++ r :: post)) (hinv : r'.Inv) (hg : r'.geometry = r.geometry) :
    RegionsInv (pre ++ r' :: post) := by
  have hmem : ∀ s ∈ pre ++ r' :: post, s = r' ∨ s ∈ pre ++ r :: post := by
    intro s hs
    simp only [List.mem_append, List.mem_cons] at hs ⊢
    tauto
  refine ⟨fun s hs => ?_, fun s hs => ?_, disjoint_of_geometry h.disjoint (by simp [hg])⟩
  · rcases hmem s hs with rfl | hs
    · exact hinv
    · exact h.region s hs
  · rcases hmem s hs with rfl | hs
    · exact (h.placed r (by simp)).of_geometry hg
    · exact h.placed s hs

/-- Two regions of a list whose windows both hold a range are the same region. -/
theorem RegionsInv.eq_of_mem_window (h : RegionsInv l) {r s : AipuMemRegion} (hr : r ∈ l)
    (hs : s ∈ l) {x : ℕ × ℕ} (hpos : 0 < x.2) (hxr : r.pa ≤ x.1 ∧ x.1 + x.2 ≤ r.pa + r.totBytes)
    (hxs : s.pa ≤ x.1 ∧ x.1 + x.2 ≤ s.pa + s.totBytes) : r = s := by
  by_contra hne
  have hdisj : r.DisjointFrom s := h.disjoint.forall hr hs hne
  unfold AipuMemRegion.DisjointFrom at hdisj
  omega

end Lists

/-! ## The memory manager -/

/-- The regions of the memory manager satisfy the invariant of a list of regions. -/
def AipuMemoryManager.Inv (mm : AipuMemoryManager) : Prop := RegionsInv mm.regions

/-- The ranges of the allocated blocks of all regions. -/
def AipuMemoryManager.allocated (mm : AipuMemoryManager) : List (ℕ × ℕ) :=
  mm.regions.flatMap AipuMemRegion.allocated

/-- The geometry of the regions of the memory manager. -/
def AipuMemoryManager.geometry (mm : AipuMemoryManager) :=
  mm.regions.map AipuMemRegion.geometry

/-- `mm'` is `mm` with the range of `buf` allocated. -/
structure MmGranted (mm mm' : AipuMemoryManager) (buf : AipuBuffer) : Prop where
  aligned : buf.PageAligned
  inv : mm'.Inv
  geometry : mm'.geometry = mm.geometry
  allocated : mm'.allocated.Perm ((buf.pa, buf.bytes) :: mm.allocated)

/-- `mm'` is `mm` with the range `x` released. -/
structure MmReleased (mm mm' : AipuMemoryManager) (x : ℕ × ℕ) : Prop where
  inv : mm'.Inv
  geometry : mm'.geometry = mm.geometry
  allocated : mm.allocated.Perm (x :: mm'.allocated)

namespace AipuMemoryManager.Inv

variable {mm : AipuMemoryManager}

/-- An allocated range is not empty and lies in the window of a region. -/
theorem mem_allocated (h : mm.Inv) {x : ℕ × ℕ} (hx : x ∈ mm.allocated) :
    ∃ r ∈ mm.regions, x ∈ r.allocated ∧ 0 < x.2 ∧ r.pa ≤ x.1 ∧ x.1 + x.2 ≤ r.pa + r.totBytes := by
  obtain ⟨r, hr, hxr⟩ := List.mem_flatMap.mp hx
  exact ⟨r, hr, hxr, (h.region r hr).bounds hxr⟩

/-- The range of a region that holds an allocated range is allocated in this region. -/
theorem mem_of_window (h : mm.Inv) {x : ℕ × ℕ} (hx : x ∈ mm.allocated) {r : AipuMemRegion}
    (hr : r ∈ mm.regions) (hxr : r.pa ≤ x.1 ∧ x.1 + x.2 ≤ r.pa + r.totBytes) :
    x ∈ r.allocated := by
  obtain ⟨s, hs, hxs, hpos, hwin⟩ := h.mem_allocated hx
  rwa [RegionsInv.eq_of_mem_window h hr hs hpos hxr hwin]

/-- Two allocated ranges that share a byte are the same range. -/
theorem eq_of_overlap (h : mm.Inv) {x y : ℕ × ℕ} (hx : x ∈ mm.allocated)
    (hy : y ∈ mm.allocated) (hxy : x.1 < y.1 + y.2) (hyx : y.1 < x.1 + x.2) : x = y := by
  obtain ⟨r, hr, hxr, hxpos, hxw⟩ := h.mem_allocated hx
  obtain ⟨s, hs, hys, hypos, hyw⟩ := h.mem_allocated hy
  by_cases hrs : r = s
  · subst hrs
    exact (h.region r hr).eq_of_overlap hxr hys hxy hyx
  · have hdisj : r.DisjointFrom s := h.disjoint.forall hr hs hrs
    unfold AipuMemRegion.DisjointFrom at hdisj
    omega

/-- No range is allocated twice. -/
theorem nodup (h : mm.Inv) : mm.allocated.Nodup := by
  refine List.nodup_flatMap.mpr ⟨fun r hr => (h.region r hr).nodup, ?_⟩
  refine h.disjoint.imp_of_mem fun {r s} hr hs hdisj x hxr hxs => ?_
  have hwr := (h.region r hr).bounds hxr
  have hws := (h.region s hs).bounds hxs
  unfold AipuMemRegion.DisjointFrom at hdisj
  omega

end AipuMemoryManager.Inv

/-! ## Replacing one region -/

section Replace

variable {mm mm' : AipuMemoryManager}

/-- Granting a range in one region grants it in the memory manager. -/
theorem MmGranted.of_replaced {buf : AipuBuffer} (h : mm.Inv)
    (hrep : ReplacedIn (Granted · · buf) mm.regions mm'.regions) : MmGranted mm mm' buf := by
  obtain ⟨pre, r, r', post, hl, hl', hgrant⟩ := hrep
  refine ⟨hgrant.aligned, ?_, ?_, ?_⟩
  · have h' : RegionsInv (pre ++ r :: post) := hl ▸ h
    unfold AipuMemoryManager.Inv
    rw [hl']
    exact h'.replace hgrant.inv hgrant.geometry
  · simp [AipuMemoryManager.geometry, hl, hl', hgrant.geometry]
  · simp only [AipuMemoryManager.allocated, hl, hl', List.flatMap_append, List.flatMap_cons]
    refine ((hgrant.allocated.append_right _).append_left _).trans ?_
    exact List.perm_middle

/-- Releasing a range in one region releases it in the memory manager. -/
theorem MmReleased.of_replaced {x : ℕ × ℕ} (h : mm.Inv)
    (hrep : ReplacedIn (Released · · x) mm.regions mm'.regions) : MmReleased mm mm' x := by
  obtain ⟨pre, r, r', post, hl, hl', hrel⟩ := hrep
  refine ⟨?_, ?_, ?_⟩
  · have h' : RegionsInv (pre ++ r :: post) := hl ▸ h
    unfold AipuMemoryManager.Inv
    rw [hl']
    exact h'.replace hrel.inv hrel.geometry
  · simp [AipuMemoryManager.geometry, hl, hl', hrel.geometry]
  · simp only [AipuMemoryManager.allocated, hl, hl', List.flatMap_append, List.flatMap_cons]
    refine ((hrel.allocated.append_right _).append_left _).trans ?_
    exact List.perm_middle

end Replace

/-! ## Allocation -/

section Allocation

variable {kz : Oracle} {tid : ℤ} {req : BufRequest} {buf : AipuBuffer}

/-- A try in `r` that succeeds, with the region afterwards and the buffer. -/
def TriedIn (tid : ℤ) (req : BufRequest) (buf : AipuBuffer) (r r' : AipuMemRegion) : Prop :=
  ∃ kz buf₀ res, aipuMmTryAllocInRegion kz tid r req buf₀ = some res ∧ res.ret = 0 ∧
    res.mem = r' ∧ res.buf = buf

/-- The scan of a list of regions, whatever their blocks are, either fails and changes nothing, or a
try in one of the regions selected succeeds. -/
theorem scanRegions_cases {sel : AipuMemRegion → Bool} {head : List AipuMemRegion} {ret : ℤ}
    {res : AllocResult (List AipuMemRegion)} (hret : ret ≠ 0)
    (h : scanRegions sel tid head ret kz req buf = some res) :
    (res.ret ≠ 0 ∧ res.mem = head ∧ res.req = req ∧ res.buf = buf) ∨
      (res.ret = 0 ∧
        ReplacedIn (fun r r' => sel r = true ∧ TriedIn tid req res.buf r r') head res.mem) := by
  induction head generalizing ret kz res with
  | nil =>
    simp only [scanRegions, Option.some.injEq] at h
    subst h
    exact .inl ⟨hret, rfl, rfl, rfl⟩
  | cons r rest ih =>
    -- a result for the rest is one for the whole list, when the first region did not change
    have hlift : ∀ {kz ret}, ret ≠ 0 → ∀ {res' : AllocResult (List AipuMemRegion)},
        scanRegions sel tid rest ret kz req buf = some res' →
        res = { res' with mem := r :: res'.mem } →
        (res.ret ≠ 0 ∧ res.mem = r :: rest ∧ res.req = req ∧ res.buf = buf) ∨
          (res.ret = 0 ∧ ReplacedIn (fun r r' => sel r = true ∧ TriedIn tid req res.buf r r')
            (r :: rest) res.mem) := by
      rintro kz ret hret' res' hscan rfl
      rcases ih hret' hscan with ⟨h1, h2, h3, h4⟩ | ⟨h1, h2⟩
      · exact .inl ⟨h1, by simp [h2], h3, h4⟩
      · exact .inr ⟨h1, h2.append_left (m := [r])⟩
    rw [scanRegions] at h
    split at h
    case isTrue hr =>
      cases htry : aipuMmTryAllocInRegion kz tid r req buf with
      | none => simp [htry] at h
      | some out =>
        simp only [htry] at h
        rcases aipuMmTryAllocInRegion_cases htry with ⟨hout, hmem, hreq, hbuf⟩ | ⟨hout, -⟩
        · rw [if_neg hout, hreq, hbuf, hmem] at h
          cases hscan : scanRegions sel tid rest out.ret out.kz req buf with
          | none => simp [hscan] at h
          | some res' =>
            simp only [hscan, Option.some.injEq] at h
            exact hlift hout hscan h.symm
        · rw [if_pos hout, Option.some.injEq] at h
          subst h
          exact .inr ⟨rfl, [], r, out.mem, rest, rfl, rfl, hr, kz, buf, out, htry, hout, rfl, rfl⟩
    case isFalse =>
      cases hscan : scanRegions sel tid rest ret kz req buf with
      | none => simp [hscan] at h
      | some res' =>
        simp only [hscan, Option.some.injEq] at h
        exact hlift hret hscan h.symm

/-- The regions that `aipu_mm_scan_regions_alloc` tries for a request. -/
def BufRequest.selects (req : BufRequest) (version : AipuVersion) (region : AipuMemRegion) : Bool :=
  if version = .zhouyiV2 ∧ req.dataType = aipuMmDataTypeRoStack then req.regionId = region.id
  else region.totFreeBytes ≥ getAllocSize region req.bytes

/-- The two loops of `aipu_mm_scan_regions_alloc` differ in the regions that they try. -/
theorem aipuMmScanRegionsAlloc_eq (version : AipuVersion) (head : List AipuMemRegion) :
    aipuMmScanRegionsAlloc kz tid version head req buf =
      scanRegions (req.selects version) tid head (-enomem) kz req buf := by
  unfold aipuMmScanRegionsAlloc
  split_ifs with h
  · congr 1
    funext region
    rw [BufRequest.selects, if_pos h]
  · congr 1
    funext region
    rw [BufRequest.selects, if_neg h]

/-- `aipu_mm_alloc` either fails and changes nothing, or a try in one of the DDR regions selected
succeeds: SRAM is not configured. -/
theorem aipuMmAlloc_cases {mm : AipuMemoryManager} {res : AllocResult AipuMemoryManager}
    (h : aipuMmAlloc kz tid mm req buf = some res) :
    (res.ret ≠ 0 ∧ res.mem = mm) ∨
      (res.ret = 0 ∧ res.mem = { mm with ddrHead := res.mem.ddrHead } ∧
        ReplacedIn (fun r r' => req.selects mm.version r = true ∧ TriedIn tid req res.buf r r')
          mm.ddrHead res.mem.ddrHead) := by
  unfold aipuMmAlloc at h
  split at h
  · obtain rfl := Option.some.inj h
    exact .inl ⟨by simp [einval], rfl⟩
  dsimp only at h
  split at h
  · obtain rfl := Option.some.inj h
    exact .inl ⟨by simp [enomem], rfl⟩
  rw [if_neg (by simp [aipuConfigEnableSram]), allocFromDdr, aipuMmScanRegionsAlloc_eq] at h
  cases hscan : scanRegions (req.selects mm.version) tid mm.ddrHead (-enomem) kz req {} with
  | none => simp [hscan] at h
  | some out =>
    simp only [hscan, Option.some.injEq] at h
    subst h
    rcases scanRegions_cases (by decide) hscan with ⟨hret, hmem, -⟩ | ⟨hret, hrep⟩
    · exact .inl ⟨hret, by dsimp only; rw [hmem]⟩
    · exact .inr ⟨hret, rfl, hrep⟩

/-- A request is not close to the end of the address space where the free bytes of the region are
not looked at, which is for `AIPU_MM_DATA_TYPE_RO_STACK` on the second version of the hardware. -/
def BufRequest.NoWrap (req : BufRequest) (version : AipuVersion) : Prop :=
  version = .zhouyiV2 → req.dataType = aipuMmDataTypeRoStack → req.bytes + 2 ^ 33 ≤ 2 ^ 64

instance (req : BufRequest) (version : AipuVersion) : Decidable (req.NoWrap version) :=
  inferInstanceAs (Decidable (_ → _ → _))

/-- Every request below four gigabytes is far from the end of the address space. -/
theorem BufRequest.noWrap_of_lt (version : AipuVersion) (h : req.bytes < 2 ^ 32) :
    req.NoWrap version := fun _ _ => by omega

/-- Both ways to select regions are safe: a region is tried for a request that is searched from
the back only if it has enough free bytes. -/
theorem BufRequest.serves_of_selects {version : AipuVersion} {r : AipuMemRegion} (hp : r.Placed)
    (hreq : req.NoWrap version) (hsel : req.selects version r = true) : r.Serves req := by
  unfold BufRequest.selects at hsel
  split at hsel
  case isTrue hro =>
    have hbytes := hreq hro.1 hro.2
    refine .inl ⟨.inr hro.2, ?_⟩
    rcases Nat.eq_zero_or_pos req.bytes with h0 | hpos
    · simp [getAllocSize, h0]
    · have := (getAllocSize_bounds hp.flag hpos (by omega)).2
      omega
  case isFalse => exact .inr (by simpa using hsel)

/-- **Allocation.**  `aipu_mm_alloc` fails and changes nothing, or grants the range it returns. -/
theorem aipuMmAlloc_spec {mm : AipuMemoryManager} {res : AllocResult AipuMemoryManager}
    (hmm : mm.Inv) (hreq : req.NoWrap mm.version)
    (h : aipuMmAlloc kz tid mm req buf = some res) :
    (res.ret ≠ 0 ∧ res.mem = mm) ∨ (res.ret = 0 ∧ MmGranted mm res.mem res.buf) := by
  refine (aipuMmAlloc_cases h).imp_right ?_
  rintro ⟨hret, hmem, pre, r, r', post, hl, hl', hsel, kz', start, out, htry, hout, rfl, hbuf⟩
  have hr : r ∈ mm.regions :=
    List.mem_append_right _ (hl ▸ List.mem_append_right _ List.mem_cons_self)
  have hplaced := hmm.placed r hr
  have hgrant : Granted r out.mem res.buf := by
    rcases aipuMmTryAllocInRegion_spec (hmm.region r hr) hplaced
        (BufRequest.serves_of_selects hplaced hreq hsel) htry with ⟨hne, -⟩ | ⟨-, hgrant⟩
    · exact absurd hout hne
    · exact hbuf ▸ hgrant
  refine ⟨hret, .of_replaced hmm ?_⟩
  rw [hmem]
  exact ReplacedIn.append_left ⟨pre, r, out.mem, post, hl, hl', hgrant⟩

/-- When every `kzalloc` succeeds, the scan of a list of regions returns. -/
theorem scanRegions_total (sel : AipuMemRegion → Bool) (tid : ℤ) (head : List AipuMemRegion)
    (ret : ℤ) (req : BufRequest) (buf : AipuBuffer) :
    ∃ res, scanRegions sel tid head ret [] req buf = some res ∧ res.kz = [] := by
  induction head generalizing ret req buf with
  | nil => exact ⟨_, rfl, rfl⟩
  | cons r rest ih =>
    rw [scanRegions]
    split
    · obtain ⟨out, hout, hkz⟩ : ∃ out, aipuMmTryAllocInRegion [] tid r req buf = some out ∧
          out.kz = [] := aipuMmTryAllocInRegion_total
      simp only [hout]
      split
      · exact ⟨_, rfl, hkz⟩
      · obtain ⟨res, hres, hreskz⟩ := ih out.ret out.req out.buf
        simp only [hkz, hres]
        exact ⟨_, rfl, hreskz⟩
    · obtain ⟨res, hres, hreskz⟩ := ih ret req buf
      simp only [hres]
      exact ⟨_, rfl, hreskz⟩

/-- When every `kzalloc` succeeds, the scan of the DDR regions returns. -/
theorem allocFromDdr_total (tid : ℤ) (mm : AipuMemoryManager) (req : BufRequest)
    (buf : AipuBuffer) : ∃ res, allocFromDdr [] tid mm req buf = some res := by
  unfold allocFromDdr aipuMmScanRegionsAlloc
  split_ifs
  · obtain ⟨res, hres, -⟩ := scanRegions_total
      (fun region => req.regionId = region.id) tid mm.ddrHead (-enomem) req buf
    exact ⟨_, by rw [hres]⟩
  · obtain ⟨res, hres, -⟩ := scanRegions_total
      (fun region => region.totFreeBytes ≥ getAllocSize region req.bytes) tid mm.ddrHead
      (-enomem) req buf
    exact ⟨_, by rw [hres]⟩

/-- When every `kzalloc` succeeds, `aipu_mm_alloc` returns. -/
theorem aipuMmAlloc_total (tid : ℤ) (mm : AipuMemoryManager) (req : BufRequest)
    (buf : AipuBuffer) : ∃ res, aipuMmAlloc [] tid mm req buf = some res := by
  unfold aipuMmAlloc
  split
  · exact ⟨_, rfl⟩
  · dsimp only
    split
    · exact ⟨_, rfl⟩
    · -- SRAM is not configured, so only the DDR regions are scanned
      rw [if_neg (by simp [aipuConfigEnableSram])]
      exact allocFromDdr_total tid mm req {}

end Allocation

/-! ## Release -/

section Release

variable {mm : AipuMemoryManager} {buf : BufDesc}

/-- The region that `aipu_mm_find_region` finds for a range allocated in it. -/
theorem aipuMmFindRegion_spec {head : List AipuMemRegion} {c : Cursor AipuMemRegion}
    (hmm : mm.Inv) (hsub : ∀ r ∈ head, r ∈ mm.regions)
    (hbuf : (buf.pa, buf.bytes) ∈ mm.allocated)
    (h : aipuMmFindRegion head buf.pa buf.bytes = some c) :
    head = c.toList ∧ (buf.pa, buf.bytes) ∈ c.entry.allocated := by
  obtain ⟨r, hr, -, hpos, -, hhi⟩ := hmm.mem_allocated hbuf
  have hend := (hmm.placed r hr).end_lt
  unfold aipuMmFindRegion at h
  rw [if_neg (by simp at hpos; omega)] at h
  obtain ⟨hl, hfound, -⟩ := seek_eq_some h
  have hmem : c.entry ∈ mm.regions := hsub _ (hl ▸ c.entry_mem)
  have hcend := (hmm.placed _ hmem).end_lt
  simp only [ge_iff_le, decide_eq_true_eq] at hfound hhi
  rw [wrap_of_lt (by omega), wrap_of_lt hcend] at hfound
  exact ⟨hl, hmm.mem_of_window hbuf hmem hfound⟩

/-- `aipu_mm_find_region` finds a region in a list that contains the region of the range. -/
theorem exists_aipuMmFindRegion {head : List AipuMemRegion} {r : AipuMemRegion} (hmm : mm.Inv)
    (hr : r ∈ mm.regions) (hhead : r ∈ head) (hbuf : (buf.pa, buf.bytes) ∈ r.allocated) :
    ∃ c, aipuMmFindRegion head buf.pa buf.bytes = some c := by
  obtain ⟨hpos, hlo, hhi⟩ := (hmm.region r hr).bounds hbuf
  have hend := (hmm.placed r hr).end_lt
  unfold aipuMmFindRegion
  rw [if_neg (by simp at hpos; omega)]
  refine exists_seek hhead ?_
  simp only [ge_iff_le, decide_eq_true_eq] at hlo hhi ⊢
  rw [wrap_of_lt (by omega), wrap_of_lt hend]
  exact ⟨hlo, hhi⟩

/-- Freeing a range allocated in the region at the cursor succeeds. -/
theorem freeAt_spec {head : List AipuMemRegion} {c : Cursor AipuMemRegion}
    (hl : head = c.toList) (hinv : c.entry.Inv) (hplaced : c.entry.Placed)
    (hbuf : (buf.pa, buf.bytes) ∈ c.entry.allocated) :
    ∃ head', freeAt c buf = (0, head') ∧
      ReplacedIn (Released · · (buf.pa, buf.bytes)) head head' := by
  obtain ⟨r', hfree, hrel⟩ := aipuMmFreeInRegion_spec hinv hplaced.end_lt hbuf
  exact ⟨_, by simp [freeAt, hfree], c.before, c.entry, r', c.after, hl, rfl, hrel⟩

/-- **Release.**  `aipu_mm_free` of an allocated range succeeds and takes exactly this range
away. -/
theorem aipuMmFree_spec (hmm : mm.Inv) (hbuf : (buf.pa, buf.bytes) ∈ mm.allocated) :
    ∃ mm', aipuMmFree mm buf = (0, mm') ∧ MmReleased mm mm' (buf.pa, buf.bytes) := by
  have hsram : ∀ r ∈ mm.sramHead, r ∈ mm.regions := fun r hr => List.mem_append_left _ hr
  have hddr : ∀ r ∈ mm.ddrHead, r ∈ mm.regions := fun r hr => List.mem_append_right _ hr
  unfold aipuMmFree
  cases hs : aipuMmFindRegion mm.sramHead buf.pa buf.bytes with
  | some c =>
    obtain ⟨hl, hx⟩ := aipuMmFindRegion_spec hmm hsram hbuf hs
    have hc : c.entry ∈ mm.regions := hsram _ (hl ▸ c.entry_mem)
    obtain ⟨head', hfree, hrep⟩ := freeAt_spec hl (hmm.region _ hc) (hmm.placed _ hc) hx
    simp only [hfree]
    exact ⟨_, rfl, .of_replaced hmm hrep.append_right⟩
  | none =>
    -- no SRAM region holds the range, so its region is a DDR region
    obtain ⟨r, hr, hxr, -⟩ := hmm.mem_allocated hbuf
    have hrd : r ∈ mm.ddrHead := by
      rcases List.mem_append.mp hr with hrs | hrd
      · obtain ⟨c, hc⟩ := exists_aipuMmFindRegion hmm hr hrs hxr
        simp [hs] at hc
      · exact hrd
    obtain ⟨c, hd⟩ := exists_aipuMmFindRegion hmm hr hrd hxr
    obtain ⟨hl, hx⟩ := aipuMmFindRegion_spec hmm hddr hbuf hd
    have hc : c.entry ∈ mm.regions := hddr _ (hl ▸ c.entry_mem)
    obtain ⟨head', hfree, hrep⟩ := freeAt_spec hl (hmm.region _ hc) (hmm.placed _ hc) hx
    simp only [hd, hfree]
    exact ⟨_, rfl, .of_replaced hmm hrep.append_left⟩

end Release

end Aipu
