import AipuDriver.Lib.Packing
import AipuDriver.Umd.BuildWrites

/-!
# The buffers of a group

`alloc_group_buffers` is commented as meeting the sizes and the alignments of all sections.  The
ends of the sections are words, so that the sections are in the buffer of the group only when none
of these sums wraps.  The place of a section is a multiple of its own alignment, but the buffer of
the group is requested with the alignment of the first section alone, while the other strategy of
`load` requests each section with its own.
-/

namespace Aipu

open Packing UnusedId Word

/-! ## Answers of the kernel -/

/-- The kernel rounds the number of bytes up to a page, and leaves the last physical address out. -/
structure KernelMalloc.Rounds (kernel : KernelMalloc) : Prop where
  sound : kernel.Sound
  rounded : ∀ req desc ptr hbytes hptr, kernel req = .mapped desc ptr hbytes hptr →
    desc.bytes ≤ req.bytes + 4096
  below : ∀ req desc ptr hbytes hptr, kernel req = .mapped desc ptr hbytes hptr →
    desc.pa + desc.bytes < 2 ^ 64

/-- The kernel honours the alignment of a request, or refuses it with an error code. -/
structure KernelMalloc.Aligns (kernel : KernelMalloc) : Prop where
  tells : kernel.TellsErrors
  aligned : ∀ req desc ptr hbytes hptr, kernel req = .mapped desc ptr hbytes hptr →
    req.alignInPage * 4096 ∣ desc.pa

/-- The kernel grants whole pages, at an odd multiple of the alignment. -/
def grantAligned (va : ℕ) : KernelMalloc := fun req =>
  if h : req.bytes < 2 ^ 32 ∧ req.alignInPage < 2 ^ 32 ∧ req.bytes ≠ 0 ∧ va ≠ 0 then
    .mapped { pa := req.alignInPage * 0x80001000, bytes := (req.bytes + 4095) / 4096 * 4096,
              regionId := req.regionId } va
      (by have hbytes := h.2.2.1; dsimp only; omega) h.2.2.2
  else .refused

/-- What is granted. -/
theorem grantAligned_cases {va : ℕ} {req : BufRequest} {desc : BufDesc} {ptr : ℕ}
    {hbytes : desc.bytes ≠ 0} {hptr : ptr ≠ 0}
    (h : grantAligned va req = .mapped desc ptr hbytes hptr) :
    req.bytes < 2 ^ 32 ∧ req.alignInPage < 2 ^ 32 ∧ desc.pa = req.alignInPage * 0x80001000 ∧
      desc.bytes = (req.bytes + 4095) / 4096 * 4096 ∧ ptr = va := by
  unfold grantAligned at h
  split_ifs at h with hsmall
  obtain ⟨rfl, rfl⟩ := MallocAnswer.mapped.inj h
  exact ⟨hsmall.1, hsmall.2.1, rfl, rfl, rfl⟩

/-- What is not granted is refused with an error code. -/
theorem grantAligned_tellsErrors (va : ℕ) : (grantAligned va).TellsErrors := by
  intro req granted h
  unfold grantAligned at h
  split_ifs at h

/-- The pages are rounded up. -/
theorem grantAligned_rounds {va : ℕ} (hva : va ≤ 2 ^ 62) : (grantAligned va).Rounds := by
  refine ⟨⟨grantAligned_tellsErrors va, ?_, ?_, ?_⟩, ?_, ?_⟩
  all_goals
    intro req desc ptr hdescBytes hptrNull h
    obtain ⟨hbytes, halign, hpa, hdesc, hptr⟩ := grantAligned_cases h
    omega

/-- The pages are aligned. -/
theorem grantAligned_aligns (va : ℕ) : (grantAligned va).Aligns := by
  refine ⟨grantAligned_tellsErrors va, fun req desc ptr hbytes hptr h => ?_⟩
  obtain ⟨-, -, hpa, -, -⟩ := grantAligned_cases h
  rw [hpa]
  exact Nat.mul_dvd_mul_left _ (by decide)

/-- The buffer for a request that is granted. -/
theorem mallocBuf_eq {kernel : KernelMalloc} {dtype size align regionId ptr : ℕ} {desc : BufDesc}
    {hbytes : desc.bytes ≠ 0} {hptr : ptr ≠ 0} (hsize : size ≠ 0)
    (h : kernel (mallocRequest dtype size align regionId) = .mapped desc ptr hbytes hptr)
    (old : BufferDesc) :
    mallocBuf kernel dtype size align regionId old =
      (.ok (desc.bufferDesc ptr size), [.allocated (desc.bufferDesc ptr size)]) := by
  rw [mallocBuf, if_neg hsize, devOpWrapperMalloc, if_neg hsize, h]

/-- What the kernel has granted for a buffer. -/
theorem KernelMalloc.TellsErrors.mallocBuf_grant {kernel : KernelMalloc}
    (hkernel : kernel.TellsErrors) {dtype size align regionId : ℕ} {old buf : BufferDesc}
    {es : List BufferEvent}
    (h : mallocBuf kernel dtype size align regionId old = (.ok buf, es)) :
    ∃ desc ptr hbytes hptr,
      kernel (mallocRequest dtype size align regionId) = .mapped desc ptr hbytes hptr ∧
        buf.pa = desc.pa ∧ buf.size = desc.bytes := by
  obtain ⟨-, -, desc, ptr, hbytes, hptr, hgrant, rfl⟩ := hkernel.mallocBuf_granted h
  exact ⟨desc, ptr, hbytes, hptr, hgrant, rfl, rfl⟩

/-! ## Sizes -/

/-- The copies of `load` into the buffers of its static sections. -/
def staticLoads (sections : List SectionDesc) (bufs : List BufferDesc) : List HostWrite :=
  List.zipWith (fun sec buf => .load buf.va sec.loadSrc sec.size.toNat) sections bufs

/-- The buffers of the sections come one after the other in the buffer of the group, and so does
what is copied. -/
structure GroupInside (sections : List SectionDesc) (bufs : List BufferDesc)
    (group : BufferDesc) : Prop where
  packed : Packed BufferDesc.pa BufferDesc.size group.pa (group.pa + group.size) bufs
  loads : ∀ w ∈ staticLoads sections bufs, w.Inside group

/-- From the offset on, no section ends beyond the words. -/
def EndsFit : ℕ → SectionDesc → List SectionDesc → Prop
  | offset, sec, [] => offset + sec.size.toNat < 2 ^ 32
  | offset, sec, next :: rest => offset + sec.size.toNat < 2 ^ 32 ∧
      ∀ nextOffset ∈ getAlignedAddr (offset + sec.size.toNat) next.alignInPage.toNat,
        EndsFit nextOffset next rest

/-- No section of a group ends beyond the words. -/
def SectionsFit : List SectionDesc → Prop
  | [] => True
  | first :: rest => EndsFit 0 first rest

instance decidableEndsFit : ∀ offset sec rest, Decidable (EndsFit offset sec rest)
  | _, _, [] => inferInstanceAs (Decidable (_ < _))
  | _, _, next :: rest =>
    have := fun nextOffset => decidableEndsFit nextOffset next rest
    inferInstanceAs
      (Decidable (_ ∧ ∀ nextOffset ∈ getAlignedAddr _ _, EndsFit nextOffset next rest))

instance decidableSectionsFit : DecidablePred SectionsFit
  | [] => inferInstanceAs (Decidable True)
  | _ :: _ => decidableEndsFit _ _ _

/-- An aligned address is not before the address. -/
theorem le_getAlignedAddr {base alignInPage addr : ℕ}
    (h : getAlignedAddr base alignInPage = some addr) :
    base ≤ addr := by
  obtain ⟨n, hn, rfl⟩ := Option.map_eq_some_iff.mp h
  simpa using not_used_of_firstUnused (by decide) hn

/-- A buffer has the size of its section. -/
@[simp] theorem childBuf_size (group : BufferDesc) (sec : SectionDesc) (offset : ℕ) :
    (childBuf group sec offset).size = sec.size.toNat := rfl

section Sizes

variable {group : BufferDesc} {base totBytes : ℕ}

/-- The buffers of a group are in it iff the sections fit: an address that wraps lies before the
group. -/
theorem packed_childBufs (lo : BufferDesc → ℕ)
    (hlo : ∀ sec o, lo (childBuf group sec o) = wrap 64 (base + o))
    (hbase : base + group.size < 2 ^ 64) (hlarge : totBytes ≤ group.size)
    (hrounded : group.size ≤ totBytes + 4096)
    {rest : List SectionDesc} {sec : SectionDesc} {offset a : ℕ} {offsets : List ℕ}
    (hoffset : offset < 2 ^ 32) (h : groupLayout offset sec rest = some (offsets, totBytes)) :
    Packed lo BufferDesc.size (base + a) (base + group.size)
      (List.zipWith (childBuf group) (sec :: rest) offsets) ↔
      a ≤ offset ∧ EndsFit offset sec rest := by
  induction rest generalizing sec offset a offsets with
  | nil =>
    have hsec := sec.size.toNat_lt
    obtain ⟨rfl, rfl⟩ := Prod.mk.inj (Option.some.inj h)
    rw [List.zipWith_cons_cons, List.zipWith_nil_left, packed_cons, packed_nil, hlo,
      childBuf_size, EndsFit]
    constructor
    · rintro ⟨hle, hend⟩
      have hexact :=
        wrap_add_of_le (by omega) (by omega) (Nat.le_trans (Nat.le_add_right base a) hle)
      rw [hexact] at hle hend
      refine ⟨by omega, ?_⟩
      by_contra hwraps
      have hwrap : wrap 32 (offset + sec.size.toNat) = offset + sec.size.toNat - 2 ^ 32 := by
        unfold wrap
        omega
      omega
    · rintro ⟨hle, hend⟩
      rw [wrap_of_lt hend] at hlarge
      rw [wrap_of_lt (by omega : base + offset < 2 ^ 64)]
      exact ⟨by omega, by omega⟩
  | cons next rest ih =>
    have hsec := sec.size.toNat_lt
    obtain ⟨nextOffset, hnext, h⟩ := Option.bind_eq_some_iff.mp h
    obtain ⟨⟨nextOffsets, _⟩, hrest, h⟩ := Option.bind_eq_some_iff.mp h
    obtain ⟨rfl, rfl⟩ := Prod.mk.inj (Option.some.inj h)
    rw [List.zipWith_cons_cons, packed_cons, hlo, childBuf_size, EndsFit]
    have hword := getAlignedAddr_lt hnext
    constructor
    · rintro ⟨hle, hpacked⟩
      have hexact :=
        wrap_add_of_le (by omega) (by omega) (Nat.le_trans (Nat.le_add_right base a) hle)
      rw [hexact] at hle hpacked
      rw [Nat.add_assoc] at hpacked
      obtain ⟨hend, hfits⟩ := (ih hword hrest).mp hpacked
      have hlt : offset + sec.size.toNat < 2 ^ 32 := Nat.lt_of_le_of_lt hend hword
      refine ⟨by omega, hlt, fun nextOffset' hnext' => ?_⟩
      rw [wrap_of_lt hlt] at hnext
      obtain rfl := Option.some.inj (hnext.symm.trans hnext')
      exact hfits
    · rintro ⟨hle, hlt, hfits⟩
      rw [wrap_of_lt hlt] at hnext
      have hpacked := (ih hword hrest).mpr ⟨le_getAlignedAddr hnext, hfits nextOffset hnext⟩
      have hbounds := hpacked.le
      rw [wrap_of_lt (by omega : base + offset < 2 ^ 64), Nat.add_assoc]
      exact ⟨by omega, hpacked⟩

/-- What is copied goes to the buffers of the sections. -/
theorem mem_staticLoads {sections : List SectionDesc} {offsets : List ℕ} {w : HostWrite}
    (h : w ∈ staticLoads sections (List.zipWith (childBuf group) sections offsets)) :
    ∃ buf ∈ List.zipWith (childBuf group) sections offsets, w.span = (buf.va, buf.size) := by
  induction sections generalizing offsets with
  | nil => cases h
  | cons sec rest ih =>
    cases offsets with
    | nil => cases h
    | cons offset offsets =>
      rcases List.mem_cons.mp h with rfl | h
      · exact ⟨_, List.mem_cons_self, rfl⟩
      · obtain ⟨buf, hbuf, hspan⟩ := ih h
        exact ⟨buf, List.mem_cons_of_mem _ hbuf, hspan⟩

end Sizes

section Groups

variable {kernel : KernelMalloc} {sections : List SectionDesc} {bufs : List BufferDesc} {dtype : ℕ}
  {garbage old group : BufferDesc} {es : List BufferEvent}

/-- **The buffers of a group are inside it** iff no section ends beyond the words: then `load`
copies nothing outside the group either. -/
theorem groupInside_iff (hkernel : kernel.Rounds)
    (h : allocGroupBuffers kernel sections dtype garbage old = some (.ok (bufs, group), es)) :
    GroupInside sections bufs group ↔ SectionsFit sections := by
  rcases allocGroupBuffers_cases h with
    ⟨rfl, rfl, rfl, -⟩ | ⟨first, rest, offsets, totBytes, rfl, hlayout, hbuf, rfl⟩
  · exact iff_of_true ⟨Nat.le_add_right _ _, fun w hw => by cases hw⟩ trivial
  obtain ⟨-, hlarge, hwithin⟩ := mallocBuf_ok hkernel.sound hbuf
  have hmapped := hwithin.mapped
  obtain ⟨desc, ptr, _, _, hgrant, hpa, hsize⟩ := hkernel.sound.tells.mallocBuf_grant hbuf
  have hrounded := hkernel.rounded _ _ _ _ _ hgrant
  have hbelow := hkernel.below _ _ _ _ _ hgrant
  rw [← hsize] at hrounded hbelow
  rw [← hpa] at hbelow
  have hphysical := packed_childBufs (a := 0) BufferDesc.pa (fun _ _ => rfl) hbelow hlarge hrounded
    (by decide) hlayout
  rw [Nat.add_zero] at hphysical
  constructor
  · intro hinside
    exact (hphysical.mp hinside.packed).2
  · intro hfits
    refine ⟨hphysical.mpr ⟨Nat.le_refl 0, hfits⟩, fun w hw p hp hlt => ?_⟩
    have hvirtual :=
      (packed_childBufs (a := 0) BufferDesc.va (fun _ _ => rfl) (by omega) hlarge hrounded
      (by decide) hlayout).mpr ⟨Nat.le_refl 0, hfits⟩
    obtain ⟨buf, hmem, hspan⟩ := mem_staticLoads hw
    have hbounds := hvirtual.bounds hmem
    rw [hspan] at hp hlt
    omega

end Groups

/-- Two sections, the first one of eight bytes. -/
def sampleSections (firstAlign align size : UInt32) : List SectionDesc :=
  [{ size := 8, alignInPage := firstAlign }, { size := size, alignInPage := align }]

/-- The buffer for the sections. -/
def sampleGroup (pa size realSize : ℕ) : BufferDesc where
  va := 0x7000000
  pa := pa
  size := size
  realSize := realSize

/-- The buffers of the sections, the second one at the offset. -/
def sampleChildren (sections : List SectionDesc) (group : BufferDesc) (offset : ℕ) :
    List BufferDesc :=
  List.zipWith (childBuf group) sections [0, offset]

/-- Two small sections. -/
theorem groupInside_sample :
    ∃ bufs group es,
      allocGroupBuffers (grantAligned 0x7000000) (sampleSections 1 1 16) aipuMmDataTypeStatic {}
        {} = some (.ok (bufs, group), es) ∧ GroupInside (sampleSections 1 1 16) bufs group := by
  let group := sampleGroup 0x80001000 8192 4112
  have halloc :
      allocGroupBuffers (grantAligned 0x7000000) (sampleSections 1 1 16) aipuMmDataTypeStatic {}
        {} = some (.ok (sampleChildren (sampleSections 1 1 16) group 4096, group),
          [.allocated group]) := by decide +kernel
  exact ⟨_, _, _, halloc,
    (groupInside_iff (grantAligned_rounds (by decide)) halloc).mpr (by decide +kernel)⟩

/-- A second section of all words but one: the sum wraps, and a page is granted for both. -/
theorem group_not_inside :
    ∃ kernel : KernelMalloc, kernel.Rounds ∧ ∃ bufs group es,
      allocGroupBuffers kernel (sampleSections 1 1 0xFFFFFFFF) aipuMmDataTypeStatic {} {} =
      some (.ok (bufs, group), es) ∧
      ¬GroupInside (sampleSections 1 1 0xFFFFFFFF) bufs group := by
  let group := sampleGroup 0x80001000 4096 4095
  have halloc : allocGroupBuffers (grantAligned 0x7000000)
      (sampleSections 1 1 0xFFFFFFFF) aipuMmDataTypeStatic {} {} =
      some (.ok (sampleChildren (sampleSections 1 1 0xFFFFFFFF) group 4096, group),
        [.allocated group]) := by decide +kernel
  refine ⟨grantAligned 0x7000000, grantAligned_rounds (by decide), _, _, _, halloc, fun h => ?_⟩
  have hlast := (h.packed.bounds (List.mem_cons_of_mem _ List.mem_cons_self)).2
  exact absurd hlast (by decide)

/-! ## Alignments -/

/-- Each buffer has the alignment of its section. -/
def ChildrenAligned (sections : List SectionDesc) (bufs : List BufferDesc) : Prop :=
  List.Forall₂ (fun sec buf => sec.alignInPage.toNat * 4096 ∣ buf.pa) sections bufs

/-- The buffers of the sections when each is requested by itself, with the answers to the requests;
the variable of the buffer keeps its contents from one request to the next. -/
def allocSeparatedBuffers (dtype : ℕ) :
    (ℕ → KernelMalloc) → BufferDesc → List SectionDesc → Except AipuStatus (List BufferDesc)
  | _, _, [] => .ok []
  | kernels, buf, sec :: rest => do
    let buf ← (mallocBuf (kernels 0) dtype sec.size.toNat sec.alignInPage.toNat 0 buf).1
    let bufs ← allocSeparatedBuffers dtype (fun i => kernels (i + 1)) buf rest
    pure (buf :: bufs)

/-- Both strategies align each buffer as its section, whatever the kernel answers that honours the
requests. -/
structure StrategiesAlign (sections : List SectionDesc) (dtype : ℕ) : Prop where
  separated : ∀ kernels : ℕ → KernelMalloc, (∀ i, (kernels i).Aligns) → ∀ old bufs,
    allocSeparatedBuffers dtype kernels old sections = .ok bufs → ChildrenAligned sections bufs
  grouped : ∀ kernel : KernelMalloc, kernel.Rounds → kernel.Aligns →
    ∀ garbage old bufs group es,
      allocGroupBuffers kernel sections dtype garbage old = some (.ok (bufs, group), es) →
        ChildrenAligned sections bufs

/-- No section has a greater alignment than the first one. -/
def FirstAlignsMost (sections : List SectionDesc) : Prop :=
  ∀ first ∈ sections.head?, ∀ sec ∈ sections, sec.alignInPage ≤ first.alignInPage

/-- The alignment of a section is a power of two. -/
def SectionDesc.AlignsToPower (sec : SectionDesc) : Prop := ∃ k, sec.alignInPage.toNat = 2 ^ k

section Alignments

variable {sec first : SectionDesc} {rest : List SectionDesc}

/-- The number of bytes is a power of two, too. -/
theorem SectionDesc.AlignsToPower.bytes (h : sec.AlignsToPower) :
    ∃ k < 44, sec.alignInPage.toNat * 4096 = 2 ^ k := by
  obtain ⟨k, hk⟩ := h
  have hword : 2 ^ k < 2 ^ 32 := hk ▸ sec.alignInPage.toNat_lt
  have hlt : k < 32 := (Nat.pow_lt_pow_iff_right (by decide)).mp hword
  exact ⟨k + 12, by omega, by rw [hk, Nat.pow_add]⟩

/-- A multiple of the alignment stays one when it wraps. -/
theorem SectionDesc.AlignsToPower.dvd_wrap {w n : ℕ} (h : sec.AlignsToPower)
    (hn : sec.alignInPage.toNat * 4096 ∣ n) :
    sec.alignInPage.toNat * 4096 ∣ wrap w n := by
  obtain ⟨k, -, hk⟩ := h.bytes
  rw [hk] at hn ⊢
  rcases Nat.le_total k w with hkw | hwk
  · exact (Nat.dvd_mod_iff (Nat.pow_dvd_pow 2 hkw)).mpr hn
  · have hzero : wrap w n = 0 := Nat.mod_eq_zero_of_dvd ((Nat.pow_dvd_pow 2 hwk).trans hn)
    rw [hzero]
    exact Nat.dvd_zero _

/-- An aligned address is a multiple of the alignment. -/
theorem SectionDesc.AlignsToPower.dvd_alignedAddr {base addr : ℕ} (h : sec.AlignsToPower)
    (haddr : getAlignedAddr base sec.alignInPage.toNat = some addr) :
    sec.alignInPage.toNat * 4096 ∣ addr := by
  obtain ⟨n, -, rfl⟩ := Option.map_eq_some_iff.mp haddr
  refine h.dvd_wrap ?_
  rw [Nat.mul_assoc]
  exact Nat.dvd_mul_left _ _

/-- The place of each section is a multiple of its alignment. -/
theorem groupLayout_aligned {offset totBytes : ℕ} {offsets : List ℕ}
    (hrest : ∀ sec ∈ rest, sec.AlignsToPower) (hoffset : first.alignInPage.toNat * 4096 ∣ offset)
    (h : groupLayout offset first rest = some (offsets, totBytes)) :
    List.Forall₂ (fun sec o => sec.alignInPage.toNat * 4096 ∣ o) (first :: rest) offsets := by
  induction rest generalizing offset totBytes first offsets with
  | nil =>
    obtain ⟨rfl, -⟩ := Prod.mk.inj (Option.some.inj h)
    exact .cons hoffset .nil
  | cons next rest ih =>
    obtain ⟨nextOffset, hnext, h⟩ := Option.bind_eq_some_iff.mp h
    obtain ⟨⟨nextOffsets, _⟩, hlayout, h⟩ := Option.bind_eq_some_iff.mp h
    obtain ⟨rfl, -⟩ := Prod.mk.inj (Option.some.inj h)
    have hnextPower := hrest next List.mem_cons_self
    exact .cons hoffset (ih (fun sec hsec => hrest sec (List.mem_cons_of_mem _ hsec))
      (hnextPower.dvd_alignedAddr hnext) hlayout)

/-- A buffer in an aligned place is aligned iff the group is. -/
theorem SectionDesc.AlignsToPower.childBuf_iff {group : BufferDesc} {offset : ℕ}
    (h : sec.AlignsToPower) (hoffset : sec.alignInPage.toNat * 4096 ∣ offset) :
    sec.alignInPage.toNat * 4096 ∣ (childBuf group sec offset).pa ↔
      sec.alignInPage.toNat * 4096 ∣ group.pa := by
  obtain ⟨k, hlt, hk⟩ := h.bytes
  have hwords : sec.alignInPage.toNat * 4096 ∣ 2 ^ 64 := hk ▸ Nat.pow_dvd_pow 2 (by omega)
  exact (Nat.dvd_mod_iff hwords).trans ((Nat.dvd_add_iff_left hoffset).symm)

/-- The buffers are aligned iff the group is, as each section is. -/
theorem childrenAligned_iff {group : BufferDesc} {sections : List SectionDesc} {offsets : List ℕ}
    (hpower : ∀ sec ∈ sections, sec.AlignsToPower)
    (hoffsets : List.Forall₂ (fun sec o => sec.alignInPage.toNat * 4096 ∣ o) sections offsets) :
    ChildrenAligned sections (List.zipWith (childBuf group) sections offsets) ↔
      ∀ sec ∈ sections, sec.alignInPage.toNat * 4096 ∣ group.pa := by
  induction hoffsets with
  | nil => exact iff_of_true .nil (by simp)
  | cons hoffset _ ih =>
    obtain ⟨hfirst, hrest⟩ := List.forall_mem_cons.mp hpower
    rw [List.zipWith_cons_cons, ChildrenAligned, List.forall₂_cons, hfirst.childBuf_iff hoffset,
      List.forall_mem_cons]
    exact and_congr_right fun _ => ih hrest

/-- Of two powers the smaller one divides an odd multiple of the greater one, and only then. -/
theorem SectionDesc.AlignsToPower.le_iff_dvd (hsec : sec.AlignsToPower)
    (hfirst : first.AlignsToPower) {odd : ℕ}
    (hodd : Nat.Coprime 2 odd) : sec.alignInPage ≤ first.alignInPage ↔
      sec.alignInPage.toNat * 4096 ∣ first.alignInPage.toNat * odd * 4096 := by
  obtain ⟨k, hk⟩ := hsec
  obtain ⟨l, hl⟩ := hfirst
  rw [UInt32.le_iff_toNat_le, hk, hl]
  calc 2 ^ k ≤ 2 ^ l ↔ k ≤ l := Nat.pow_le_pow_iff_right (by decide)
    _ ↔ 2 ^ k ∣ 2 ^ l := (Nat.pow_dvd_pow_iff_le_right (by decide)).symm
    _ ↔ 2 ^ k ∣ 2 ^ l * odd := (Nat.Coprime.pow_left k hodd).dvd_mul_right.symm
    _ ↔ 2 ^ k * 4096 ∣ 2 ^ l * odd * 4096 := (Nat.mul_dvd_mul_iff_right (by decide)).symm

/-- The number of bytes of a group is a word. -/
theorem groupLayout_totBytes_lt {offset totBytes : ℕ} {offsets : List ℕ}
    (h : groupLayout offset first rest = some (offsets, totBytes)) : totBytes < 2 ^ 32 := by
  induction rest generalizing offset totBytes first offsets with
  | nil =>
    obtain ⟨-, rfl⟩ := Prod.mk.inj (Option.some.inj h)
    exact wrap_lt 32 _
  | cons next rest ih =>
    obtain ⟨nextOffset, -, h⟩ := Option.bind_eq_some_iff.mp h
    obtain ⟨⟨nextOffsets, _⟩, hlayout, h⟩ := Option.bind_eq_some_iff.mp h
    obtain ⟨-, rfl⟩ := Prod.mk.inj (Option.some.inj h)
    exact ih hlayout

end Alignments

section Strategies

variable {sections : List SectionDesc} {dtype : ℕ}

/-- A buffer that is requested by itself is aligned. -/
theorem mallocBuf_aligned {kernel : KernelMalloc} (hkernel : kernel.Aligns)
    {size align regionId : ℕ} {old buf : BufferDesc} {es : List BufferEvent}
    (h : mallocBuf kernel dtype size align regionId old = (.ok buf, es)) :
    align * 4096 ∣ buf.pa := by
  obtain ⟨desc, ptr, _, _, hgrant, hpa, -⟩ := hkernel.tells.mallocBuf_grant h
  have haligned := hkernel.aligned _ _ _ _ _ hgrant
  rwa [← hpa] at haligned

/-- Sections that are requested by themselves are aligned. -/
theorem allocSeparatedBuffers_aligned {kernels : ℕ → KernelMalloc}
    (hkernels : ∀ i, (kernels i).Aligns) {old : BufferDesc} {bufs : List BufferDesc}
    (h : allocSeparatedBuffers dtype kernels old sections = .ok bufs) :
    ChildrenAligned sections bufs := by
  induction sections generalizing kernels old bufs with
  | nil =>
    obtain rfl := Except.ok.inj h
    exact .nil
  | cons sec rest ih =>
    rw [allocSeparatedBuffers] at h
    rcases hcall : mallocBuf (kernels 0) dtype sec.size.toNat sec.alignInPage.toNat 0 old with
      ⟨result, es⟩
    rw [hcall] at h
    cases result with
    | error e => cases h
    | ok buf =>
      cases hrest : allocSeparatedBuffers dtype (fun i => kernels (i + 1)) buf rest with
      | error e =>
        dsimp only [Bind.bind, Except.bind] at h
        rw [hrest] at h
        cases h
      | ok bufs' =>
        dsimp only [Bind.bind, Except.bind] at h
        rw [hrest] at h
        obtain rfl : buf :: bufs' = bufs := Except.ok.inj h
        exact .cons (mallocBuf_aligned (hkernels 0) hcall)
          (ih (fun i => hkernels (i + 1)) hrest)

/-- Every request of some bytes is granted by the sample of answers. -/
theorem mallocBuf_grantAligned {va size align : ℕ} (hpos : size ≠ 0) (hsize : size < 2 ^ 32)
    (halign : align < 2 ^ 32) (hva : va ≠ 0) (old : BufferDesc) :
    ∃ buf es, mallocBuf (grantAligned va) dtype size align 0 old = (.ok buf, es) ∧
      buf.pa = align * 0x80001000 := by
  have hgrant : ∃ hbytes, grantAligned va (mallocRequest dtype size align 0) =
      .mapped { pa := align * 0x80001000, bytes := (size + 4095) / 4096 * 4096, regionId := 0 }
        va hbytes hva := ⟨_, dif_pos ⟨hsize, halign, hpos, hva⟩⟩
  obtain ⟨hbytes, hgrant⟩ := hgrant
  exact ⟨_, _, mallocBuf_eq hpos hgrant old, rfl⟩

/-- **The grouped strategy aligns the sections as the separated one does** iff no section has a
greater alignment than the first one, if the sections take some bytes at all. -/
theorem strategiesAlign_iff (hpower : ∀ sec ∈ sections, sec.AlignsToPower)
    (hgranted : ∃ kernel garbage old res es,
      allocGroupBuffers kernel sections dtype garbage old = some (.ok res, es)) :
    StrategiesAlign sections dtype ↔ FirstAlignsMost sections := by
  obtain ⟨kernel, garbage, old, ⟨bufs, group⟩, es, h⟩ := hgranted
  rcases allocGroupBuffers_cases h with
    ⟨rfl, -⟩ | ⟨first, rest, offsets, totBytes, rfl, hlayout, hbuf, -⟩
  · refine iff_of_true ⟨fun kernels hkernels _ bufs => allocSeparatedBuffers_aligned hkernels, ?_⟩
      fun _ h => by cases h
    intro kernel' _ _ garbage' old' bufs' group' es' h'
    obtain ⟨heq, -⟩ := Prod.mk.inj (Option.some.inj h')
    obtain ⟨rfl, -⟩ := Prod.mk.inj (Except.ok.inj heq)
    exact .nil
  have hplaces := groupLayout_aligned (fun sec hsec => hpower sec (List.mem_cons_of_mem _ hsec))
    (Nat.dvd_zero _) hlayout
  constructor
  · intro halign
    have hpos : totBytes ≠ 0 := (mallocBuf_ok_cases hbuf).1
    obtain ⟨group', es', hgroup, hpa⟩ :=
      @mallocBuf_grantAligned dtype 1 _ _ hpos (groupLayout_totBytes_lt hlayout)
      first.alignInPage.toNat_lt one_ne_zero {}
    have halloc : allocGroupBuffers (grantAligned 1) (first :: rest) dtype {} {} =
        some (.ok (List.zipWith (childBuf group') (first :: rest) offsets, group'), es') := by
      rw [allocGroupBuffers, hlayout, Option.map_some]
      dsimp only
      rw [hgroup]
    have hchildren :=
      halign.grouped _ (grantAligned_rounds (by decide)) (grantAligned_aligns 1) _ _ _ _ _ halloc
    rw [childrenAligned_iff hpower hplaces, hpa] at hchildren
    intro first' hfirst sec hsec
    obtain rfl : first = first' := Option.some.inj hfirst
    refine ((hpower sec hsec).le_iff_dvd (hpower first List.mem_cons_self)
      (by decide : Nat.Coprime 2 0x80001)).mpr ?_
    rw [Nat.mul_assoc]
    exact hchildren sec hsec
  · intro hmost
    refine ⟨fun kernels hkernels _ bufs => allocSeparatedBuffers_aligned hkernels, ?_⟩
    intro kernel' _ hkernel garbage' old' bufs' group' es' h'
    rcases allocGroupBuffers_cases h' with
      ⟨hnil, -⟩ | ⟨first', rest', offsets', totBytes', hcons, hlayout', hbuf', rfl⟩
    · cases hnil
    obtain ⟨rfl, rfl⟩ := List.cons.inj hcons
    obtain ⟨rfl, rfl⟩ := Prod.mk.inj (Option.some.inj (hlayout.symm.trans hlayout'))
    rw [childrenAligned_iff hpower hplaces]
    intro sec hsec
    have hdvd :=
      ((hpower sec hsec).le_iff_dvd (hpower first List.mem_cons_self) (Nat.coprime_one_right 2)).mp
      (hmost first rfl sec hsec)
    rw [Nat.mul_one] at hdvd
    exact hdvd.trans (mallocBuf_aligned hkernel hbuf')

end Strategies

/-- The alignments of the samples. -/
theorem sampleSections_aligns {firstAlign align size : UInt32}
    (hfirst : ∃ k, firstAlign.toNat = 2 ^ k)
    (halign : ∃ k, align.toNat = 2 ^ k) :
    ∀ sec ∈ sampleSections firstAlign align size, sec.AlignsToPower := by
  intro sec hsec
  rcases List.mem_pair.mp hsec with rfl | rfl
  · exact hfirst
  · exact halign

/-- A section of two pages before one of a page. -/
theorem strategiesAlign_sample : StrategiesAlign (sampleSections 2 1 16) aipuMmDataTypeStatic := by
  let group := sampleGroup 0x100002000 8192 4112
  have halloc :
      allocGroupBuffers (grantAligned 0x7000000) (sampleSections 2 1 16) aipuMmDataTypeStatic {}
        {} = some (.ok (sampleChildren (sampleSections 2 1 16) group 4096, group),
          [.allocated group]) := by decide +kernel
  refine (strategiesAlign_iff (sampleSections_aligns ⟨1, rfl⟩ ⟨0, rfl⟩)
    ⟨_, _, _, _, _, halloc⟩).mpr fun first hfirst => ?_
  obtain rfl := Option.some.inj hfirst
  decide

/-- A section of a page before one of two pages: the second one is no multiple of two pages. -/
theorem strategies_not_align :
    (∀ sec ∈ sampleSections 1 2 16, sec.AlignsToPower) ∧
      ∃ kernel : KernelMalloc, kernel.Rounds ∧ kernel.Aligns ∧ ∃ bufs group es,
        allocGroupBuffers kernel (sampleSections 1 2 16) aipuMmDataTypeStatic {} {} =
        some (.ok (bufs, group), es) ∧
        ¬ChildrenAligned (sampleSections 1 2 16) bufs := by
  let group := sampleGroup 0x80001000 12288 8208
  have halloc :
      allocGroupBuffers (grantAligned 0x7000000) (sampleSections 1 2 16) aipuMmDataTypeStatic {}
        {} = some (.ok (sampleChildren (sampleSections 1 2 16) group 8192, group),
          [.allocated group]) := by decide +kernel
  refine ⟨sampleSections_aligns ⟨0, rfl⟩ ⟨1, rfl⟩, grantAligned 0x7000000,
    grantAligned_rounds (by decide), grantAligned_aligns _, _, _, _, halloc, fun h => ?_⟩
  obtain ⟨-, hrest⟩ := List.forall₂_cons.mp h
  exact absurd (List.forall₂_cons.mp hrest).1 (by decide)

end Aipu
