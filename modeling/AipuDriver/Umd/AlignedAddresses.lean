import AipuDriver.Umd.GraphRoundTrip
import AipuDriver.Umd.SimulatedSpace

/-!
# The search for an aligned address

`get_aligned_addr` tries the multiples of the alignment one after the other, in 32 bits.  The
alignment is that of a section of a graph file: `ALIGN_ADDR` of any word is a number of pages below
`2 ^ 20`, and zero when the word is zero or so great that `ALIGN_PAGE` wraps.

The search ends with the least multiple when that is a word (`getAlignedAddr_exact_iff`).  Without
pages, all products are zero and the loop does not end; behind the last multiple below `2 ^ 32` the
products wrap before they reach the base.
-/

namespace Aipu

open ByteReader RoundUp UnusedId Word

variable {base alignInPage : ℕ} {alignBytes : UInt32}

/-- The loop ends, and its result is the least multiple of the alignment from the base on, in exact
numbers. -/
def AlignsExactly (base alignInPage : ℕ) : Prop :=
  ∃ addr, getAlignedAddr base alignInPage = some addr ∧
    IsLeast {a | alignInPage * 4096 ∣ a ∧ base ≤ a} addr

/-! ## The loop -/

/-- The loop does not end when it goes on at every number. -/
theorem getAlignedAddr_eq_none :
    getAlignedAddr base alignInPage = none ↔ ∀ n, wrap 32 (n * alignInPage * 4096) < base := by
  have hmod : ∀ n, wrap 32 (n % uint32Size * alignInPage * 4096) =
      wrap 32 (n * alignInPage * 4096) := fun n =>
    ((Nat.mod_modEq n uint32Size).mul_right alignInPage).mul_right 4096
  rw [getAlignedAddr, Option.map_eq_none_iff]
  constructor
  · intro hnone n
    by_contra hge
    obtain ⟨i, hi⟩ := @exists_firstUnused_of_free
      (fun n => wrap 32 (n * alignInPage * 4096) < base) uint32Size uint32Size 0
      (n % uint32Size) (by decide) (Nat.mod_lt _ (by decide))
      (by rw [Nat.zero_add, Nat.mod_mod, decide_eq_false_iff_not, hmod]; exact hge)
    rw [hnone] at hi
    cases hi
  · intro hall
    rw [Option.eq_none_iff_forall_not_mem]
    intro i hi
    have hfree := not_used_of_firstUnused (by decide) hi
    rw [decide_eq_false_iff_not] at hfree
    exact hfree (hall i)

/-- The loop ends when the least multiple is a word. -/
theorem exists_getAlignedAddr (halign : alignInPage ≠ 0)
    (hfit : roundUp base (alignInPage * 4096) < 2 ^ 32) :
    ∃ addr, getAlignedAddr base alignInPage = some addr := by
  obtain ⟨i, hi⟩ := exists_firstUnused_multiple (Nat.mul_ne_zero halign (by decide)) hfit
  unfold getAlignedAddr
  simp only [Nat.mul_assoc]
  exact ⟨_, Option.map_eq_some_iff.mpr ⟨i, hi, rfl⟩⟩

/-- From zero on there is nothing to search. -/
theorem getAlignedAddr_zero (alignInPage : ℕ) : getAlignedAddr 0 alignInPage = some 0 := by
  have hfirst : firstUnused
      (fun n => wrap 32 (n * alignInPage * 4096) < 0) uint32Size uint32Size 0 = some 0 :=
    (firstUnused_eq_some (by decide)).mpr
      ⟨0, by decide, rfl, decide_eq_false (Nat.not_lt_zero _), nofun⟩
  rw [getAlignedAddr, hfirst, Option.map_some, Nat.zero_mul, Nat.zero_mul]
  rfl

/-- The search is exact when the base is zero or its least multiple is a word. -/
theorem alignsExactly_iff : AlignsExactly base alignInPage ↔
    base = 0 ∨ alignInPage ≠ 0 ∧ roundUp base (alignInPage * 4096) < 2 ^ 32 := by
  constructor
  · rintro ⟨addr, haddr, ⟨hdvd, hle⟩, hleast⟩
    rcases Nat.eq_zero_or_pos alignInPage with rfl | halign
    · rw [Nat.zero_mul, Nat.zero_dvd] at hdvd
      exact .inl (Nat.le_zero.mp (hdvd ▸ hle))
    · have hround := isLeast_roundUp base (Nat.mul_ne_zero halign.ne' (by decide : 4096 ≠ 0))
      refine .inr ⟨halign.ne', ?_⟩
      calc roundUp base (alignInPage * 4096) ≤ addr := hround.2 ⟨hdvd, hle⟩
        _ < 2 ^ 32 := getAlignedAddr_lt haddr
  · rintro (rfl | ⟨halign, hfit⟩)
    · exact ⟨0, getAlignedAddr_zero alignInPage, ⟨Nat.dvd_zero _, le_rfl⟩, fun _ _ => Nat.zero_le _⟩
    · obtain ⟨addr, haddr⟩ := exists_getAlignedAddr halign hfit
      obtain ⟨rfl, -⟩ := getAlignedAddr_eq haddr hfit
      exact ⟨_, haddr, isLeast_roundUp base (Nat.mul_ne_zero halign (by decide))⟩

/-! ## The alignment of a section -/

/-- No pages are left when `ALIGN_PAGE` wraps. -/
theorem alignAddr_of_wraps (h : 0xFFFFF000 < alignBytes) : alignAddr alignBytes = 0 := by
  have hlt : 4294963200 < alignBytes.toNat := UInt32.lt_iff_toNat_lt.mp h
  have hword := alignBytes.toNat_lt
  have hsum : (alignBytes + 4096 - 1).toNat = alignBytes.toNat - 4294963201 := by
    have : alignBytes + 4096 - 1 = alignBytes + 4095 := by
      rw [UInt32.sub_eq_add_neg, UInt32.add_assoc]
      rfl
    rw [this, UInt32.toNat_add, show (4095 : UInt32).toNat = 4095 by decide]
    omega
  rw [← UInt32.toNat_inj, alignAddr, alignPageBytes, UInt32.toNat_div]
  have hle : ((alignBytes + 4096 - 1) &&& ~~~(4096 - 1)).toNat ≤ (alignBytes + 4096 - 1).toNat := by
    rw [UInt32.toNat_and]
    exact Nat.and_le_left
  rw [show (4096 : UInt32).toNat = 4096 by decide]
  exact Nat.div_eq_of_lt (by omega)

/-- Otherwise the pages are the bytes, rounded up. -/
theorem alignAddr_mul (h : alignBytes ≤ 0xFFFFF000) :
    (alignAddr alignBytes).toNat * 4096 = roundUp alignBytes.toNat 4096 := by
  have hle : alignBytes.toNat ≤ 4294963200 := UInt32.le_iff_toNat_le.mp h
  rw [alignAddr_eq_pages h, pages, UInt32.toNat_ofNat', roundUp, if_neg (by decide),
    Nat.mod_eq_of_lt (by omega), Nat.mul_comm, Nat.ceilDiv_eq_add_pred_div]
  rfl

/-- A section has pages to align to unless its word is zero or wraps. -/
theorem alignAddr_ne_zero_iff :
    (alignAddr alignBytes).toNat ≠ 0 ↔ alignBytes ≠ 0 ∧ alignBytes ≤ 0xFFFFF000 := by
  rcases Nat.lt_or_ge 0xFFFFF000 alignBytes.toNat with hlt | hle
  · have hwraps : (0xFFFFF000 : UInt32) < alignBytes := UInt32.lt_iff_toNat_lt.mpr hlt
    rw [alignAddr_of_wraps hwraps]
    exact iff_of_false (fun h => h rfl) fun h => absurd h.2 (UInt32.not_le.mpr hwraps)
  · have hle : alignBytes ≤ 0xFFFFF000 := UInt32.le_iff_toNat_le.mpr hle
    have hpages := alignAddr_mul hle
    have hround : roundUp alignBytes.toNat 4096 = 0 ↔ alignBytes.toNat = 0 := by
      constructor
      · intro h
        exact Nat.le_zero.mp (h ▸ le_roundUp alignBytes.toNat 4096)
      · intro h
        rw [h]
        decide
    rw [and_iff_left hle, Ne, Ne, ← UInt32.toNat_inj]
    refine not_congr ⟨fun h => hround.mp (by omega), fun h => ?_⟩
    have := hround.mpr h
    omega

/-- **The search for an aligned address** ends with the least multiple exactly when it starts from
zero, or when the section has an alignment that `ALIGN_PAGE` can round up and the base is no greater
than its last multiple below `2 ^ 32`. -/
theorem getAlignedAddr_exact_iff (base alignBytes : UInt32) :
    AlignsExactly base.toNat (alignAddr alignBytes).toNat ↔
    base = 0 ∨ alignBytes ≠ 0 ∧ alignBytes ≤ 0xFFFFF000 ∧
      base.toNat ≤
        (2 ^ 32 - 1) / roundUp alignBytes.toNat 4096 * roundUp alignBytes.toNat 4096 := by
  rw [alignsExactly_iff, alignAddr_ne_zero_iff, and_assoc, ← UInt32.toNat_inj]
  refine or_congr Iff.rfl (and_congr_right fun hne => and_congr_right fun hle => ?_)
  have hpages := alignAddr_ne_zero_iff.mpr ⟨hne, hle⟩
  rw [alignAddr_mul hle]
  exact roundUp_lt_iff
    (by rw [← alignAddr_mul hle]; exact Nat.mul_ne_zero hpages (by decide)) (by decide)

/-! ## A graph on which the search does not end -/

/-- Two reuse sections of one byte, of which the second has no alignment. -/
def unalignedGraph : GraphDescr :=
  { sampleGraph with
    reuseSections := [{ size := 1, alignBytes := 4096, subSections := [] },
      { size := 1, alignBytes := 0, subSections := [] }] }

/-- The parser takes the graph, and the layout of its reuse sections never ends. -/
theorem getAlignedAddr_not_exact :
    ((parseBssSection (Memory.ofBytes 4096 (List.replicate 104 0 ++ unalignedGraph.encode true))
      (sampleHeader.info 4096 400) 248 0).value =
        .ok (unalignedGraph.decoded (sampleHeader.info 4096 400))) ∧
    (∀ kernel dtype garbage group, allocGroupBuffers kernel
      (unalignedGraph.decoded (sampleHeader.info 4096 400)).tbufTempl.reuseSections dtype garbage
        group = none) ∧
    getAlignedAddr 1 (alignAddr 0).toNat = none ∧ ¬ AlignsExactly
    (1 : UInt32).toNat (alignAddr 0).toNat := by
  have hnone : getAlignedAddr 1 (alignAddr 0).toNat = none := getAlignedAddr_eq_none.mpr fun n => by
    rw [show (alignAddr 0).toNat = 0 by decide, Nat.mul_zero, Nat.zero_mul]
    decide
  refine ⟨?_, fun kernel dtype garbage group => ?_, hnone, ?_⟩
  · refine parseBssSection_encode unalignedGraph sampleHeader _ 4096 400 248 0 _
      (Memory.ofBytes_holds _ _) ?_ ?_ ?_
    · exact ⟨by decide, by decide, List.cons_ne_nil _ _, by decide, by decide, by decide, by decide,
        by decide, by decide⟩
    · rw [GraphDescr.encode, length_flatMap_wordBytes]
      decide
    · have hdrop : (List.replicate 104 (0 : UInt8) ++ unalignedGraph.encode true).drop 104 =
          unalignedGraph.encode true :=
        List.drop_left' List.length_replicate
      exact hdrop ▸ List.prefix_refl _
  · have hsections : (unalignedGraph.decoded (sampleHeader.info 4096 400)).tbufTempl.reuseSections =
        [{ loadSrc := 0, size := 1, alignInPage := 1, subSections := [] },
          { loadSrc := 0, size := 1, alignInPage := alignAddr 0, subSections := [] }] := by decide
    rw [hsections, allocGroupBuffers, groupLayout]
    have hsearch : getAlignedAddr (wrap 32 (0 + (1 : UInt32).toNat)) (alignAddr 0).toNat =
        none := hnone
    rw [hsearch]
    rfl
  · rintro ⟨addr, haddr, -⟩
    rw [show (1 : UInt32).toNat = 1 by decide, hnone] at haddr
    cases haddr

end Aipu
