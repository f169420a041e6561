import AipuDriver.Kmd.ZhouyiV2
import AipuDriver.Umd.BufferGroups
import AipuDriver.Umd.GraphParser

/-!
# Addresses with ASID

With ASID the device adds the base of ASE 1 to the addresses of static data and the base of ASE 2 to
those of reused data.  The kernel programs the device addresses of the two groups, from which the
offset of the shared memory has been taken.  `build_new_job` writes the addresses of sub-sections
relative to the group: it takes the offset from the address of the sub-section, but subtracts the
host address of the group, from which the offset has not been taken.  What remains is short of the
place of the sub-section by the offset, in 32 bits.  So the two agree exactly when the offset is a
multiple of `2 ^ 32` and the sub-section lies in the buffer of the group
(`asid_addresses_agree_iff`).
-/

namespace Aipu

open ByteReader Transition Word

/-! ## The property -/

/-- The sections that an entry of the parameter map may refer to. -/
def GraphInfo.sections (info : GraphInfo) : ParamMapLoadType → List SectionDesc
  | .reuse => info.tbufTempl.reuseSections
  | .static => info.pbufTempl.staticSections

/-- The ASE for the addresses that an entry of the parameter map loads. -/
def ParamMapLoadType.ase : ParamMapLoadType → Ase
  | .reuse => .ase2
  | .static => .ase1

/-- The group of the section that an entry refers to. -/
def GraphObject.paramGroup (g : GraphObject) (tbuf : ThreadBufferInfo) (param : ParamMapLoadDesc) :
    BufferDesc := (g.paramSections tbuf param.loadType).2

/-- The base that the kernel programs for the job and what `build_new_job` writes for the entry add
up to the device address of the sub-section, and what is written lies in the buffer of the group. -/
def GraphObject.AddressAgrees (g : GraphObject) (tbuf : ThreadBufferInfo) (roundupPowOfTwo : ℕ → ℕ)
    (jobId : ℕ) (param : ParamMapLoadDesc) : Prop :=
  ∃ buf subSecPa base,
    (g.paramSections tbuf param.loadType).1[param.refSectionIter.toNat]? = some buf ∧
    g.subSecPa tbuf param = some subSecPa ∧
    param.loadType.ase.base
      (zhouyiV2Trigger roundupPowOfTwo { g.config tbuf with jobId := jobId }) =
      some base ∧
    base + subSecPa = g.host2dev (wrap 64 (buf.pa + param.subSectionOffset.toNat)) ∧
    subSecPa < (g.paramGroup tbuf param).size

/-- The place of the sub-section, from the start of its group, is a word and lies in the buffer of
the group. -/
def GraphObject.InGroup (g : GraphObject) (tbuf : ThreadBufferInfo)
    (param : ParamMapLoadDesc) : Prop :=
  ∃ offset, groupOffset (g.info.sections param.loadType) param.refSectionIter.toNat = some offset ∧
    offset + param.subSectionOffset.toNat < min (g.paramGroup tbuf param).size (2 ^ 32)

/-! ## Arithmetic -/

section Arithmetic

variable {pa shm offset sub size : ℕ}

/-- What is left of the address of a sub-section: its place without the offset, in 32 bits. -/
theorem subSecPa_eq (hshm : shm ≤ pa) (hpa : pa < 2 ^ 64) :
    wrapSub 32 (wrap 32 (wrapSub 64 (wrap 64 (wrap 64 (pa + offset) + sub)) shm)) (wrap 32 pa) =
      wrapSub 32 (wrap 32 (offset + sub)) (wrap 32 shm) := by
  have hword : ∀ n : ℕ, wrap 32 n ≤ 2 ^ 32 := fun n => (wrap_lt 32 n).le
  have hhost : wrap 64 (wrap 64 (pa + offset) + sub) ≡ pa + offset + sub [MOD 2 ^ 32] :=
    ((wrap_modEq 64 _).trans ((wrap_modEq 64 _).add_right sub)).of_dvd (pow_dvd_pow 2 (by decide))
  have hdev : wrapSub 64 (wrap 64 (wrap 64 (pa + offset) + sub)) shm + shm ≡ pa + offset + sub
      [MOD 2 ^ 32] :=
    ((wrapSub_add_modEq (by omega)).of_dvd (pow_dvd_pow 2 (by decide))).trans hhost
  have hleft : wrapSub 32 (wrap 32 (wrapSub 64 (wrap 64 (wrap 64 (pa + offset) + sub)) shm))
      (wrap 32 pa) + pa ≡ wrapSub 64 (wrap 64 (wrap 64 (pa + offset) + sub)) shm [MOD 2 ^ 32] :=
    ((wrap_modEq 32 pa).symm.add_left _).trans
      ((wrapSub_add_modEq ((hword pa).trans (Nat.le_add_left _ _))).trans (wrap_modEq 32 _))
  have hright :
      wrapSub 32 (wrap 32 (offset + sub)) (wrap 32 shm) + shm ≡ offset + sub [MOD 2 ^ 32] :=
    ((wrap_modEq 32 shm).symm.add_left _).trans
      ((wrapSub_add_modEq ((hword shm).trans (Nat.le_add_left _ _))).trans (wrap_modEq 32 _))
  refine Nat.ModEq.eq_of_lt_of_lt ?_ (wrapSub_lt _ _ _) (wrapSub_lt _ _ _)
  refine Nat.ModEq.add_right_cancel' (shm + pa) ?_
  calc _ = wrapSub 32 (wrap 32 (wrapSub 64 (wrap 64 (wrap 64 (pa + offset) + sub)) shm))
        (wrap 32 pa) +
        pa + shm := by omega
    _ ≡ pa + offset + sub [MOD 2 ^ 32] := (hleft.add_right shm).trans hdev
    _ = offset + sub + pa := by omega
    _ ≡ wrapSub 32 (wrap 32 (offset + sub)) (wrap 32 shm) + shm + pa [MOD 2 ^ 32] :=
      hright.symm.add_right pa
    _ = _ := by omega

/-- The device address of a sub-section that ends in the host addresses. -/
theorem device_eq (hshm : shm ≤ pa) (hhost : pa + (offset + sub) < 2 ^ 64) :
    wrapSub 64 (wrap 64 (wrap 64 (pa + offset) + sub)) shm = pa - shm + (offset + sub) := by
  rw [wrap_of_lt (by omega : pa + offset < 2 ^ 64), wrap_of_lt (by omega),
    wrapSub_of_le (by omega) (by omega)]
  omega

/-- When base and rest add up to the device address, and the rest lies in the group. -/
theorem address_agrees_iff (hshm : shm ≤ pa) (hsize : pa + size ≤ 2 ^ 64)
    (hoffset : offset < 2 ^ 32) (hsub : sub < 2 ^ 32) :
    (pa - shm + wrapSub 32 (wrap 32 (offset + sub)) (wrap 32 shm) =
        wrapSub 64 (wrap 64 (wrap 64 (pa + offset) + sub)) shm ∧
      wrapSub 32 (wrap 32 (offset + sub)) (wrap 32 shm) < size) ↔
    shm % 2 ^ 32 = 0 ∧ offset + sub < min size (2 ^ 32) := by
  constructor
  · rintro ⟨hsum, hlt⟩
    have hplace : wrapSub 32 (wrap 32 (offset + sub)) (wrap 32 shm) = offset + sub := by
      rcases Nat.lt_or_ge (pa + (offset + sub)) (2 ^ 64) with hhost | hhost
      · rw [device_eq hshm hhost] at hsum
        omega
      · -- the host address of the sub-section wraps around, and the rest would be beyond the group
        have hwrapped : wrap 64 (wrap 64 (pa + offset) + sub) = pa + (offset + sub) - 2 ^ 64 := by
          rw [wrap, wrap, Nat.mod_add_mod, Nat.add_assoc, Nat.mod_eq_sub_mod hhost,
            Nat.mod_eq_of_lt (by omega)]
        rw [hwrapped] at hsum
        rcases Nat.lt_or_ge (pa + (offset + sub) - 2 ^ 64) shm with hbelow | habove
        · have hdev : wrapSub 64 (pa + (offset + sub) - 2 ^ 64) shm =
              pa - shm + (offset + sub) := by
            rw [wrapSub, Nat.mod_eq_of_lt (by omega)]
            omega
          omega
        · rw [wrapSub_of_le (by omega) habove] at hsum
          omega
    have hword : offset + sub < 2 ^ 32 := hplace ▸ wrapSub_lt _ _ _
    rw [hplace] at hlt
    refine ⟨?_, by omega⟩
    rw [wrap_of_lt hword] at hplace
    by_contra hne
    exact wrapSub_ne (Nat.pos_of_ne_zero hne) (wrap_lt 32 shm) hplace
  · rintro ⟨hshm0, hlt⟩
    have hplace : wrapSub 32 (wrap 32 (offset + sub)) (wrap 32 shm) = offset + sub := by
      have hzero : wrap 32 shm = 0 := hshm0
      rw [hzero, wrapSub_of_le (wrap_lt 32 _) (Nat.zero_le _), wrap_of_lt (by omega), Nat.sub_zero]
    rw [hplace, device_eq hshm (by omega)]
    exact ⟨rfl, by omega⟩

end Arithmetic

/-! ## Agreement -/

section Agreement

variable {g g₀ : GraphObject} {tbuf : ThreadBufferInfo} {param : ParamMapLoadDesc}
  {roundupPowOfTwo : ℕ → ℕ} {jobId : ℕ}

/-- The buffers and the group of an entry are those of its sections. -/
theorem GraphObject.AllocatedBy.paramSections
    (h : g.AllocatedBy fun kernel => kernel.reuse.Sound)
    (hstatic : Grouped g.info.pbufTempl.staticSections g.pbuf.staticBuf g.pbuf.staticGroup)
    {handle : ℕ} (htbuf : g.getTbufPtr handle = some tbuf) (loadType : ParamMapLoadType) :
    Grouped (g.info.sections loadType) (g.paramSections tbuf loadType).1
      (g.paramSections tbuf loadType).2 := by
  cases loadType with
  | reuse => exact h.reuse htbuf
  | static => exact hstatic

/-- The base that the kernel programs is the device address of the group. -/
theorem GraphObject.ase_base (hasid : g.isAsidEnabled = true) (loadType : ParamMapLoadType) :
    loadType.ase.base (zhouyiV2Trigger roundupPowOfTwo { g.config tbuf with jobId := jobId }) =
      some (g.host2dev (g.paramSections tbuf loadType).2.pa) := by
  have henabled : (g.config tbuf).enableAsid ≠ 0 := by simp [GraphObject.config, hasid]
  cases loadType with
  | reuse => exact ase2_base henabled (wrapSub_lt _ _ _)
  | static => exact ase1_base henabled (wrapSub_lt _ _ _)

/-- For all calls after `load` and all places of the groups, the kernel and `build_new_job` agree
about the address of a sub-section iff the offset of the shared memory is a multiple of `2 ^ 32` and
the sub-section lies in its group. -/
theorem asid_addresses_agree_iff {id shmOffset handle : ℕ} {info : GraphInfo}
    {kernel : LoadMalloc} {es tr : List BufferEvent} {sec : SectionDesc}
    (hload : GraphObject.load id shmOffset info kernel = some (.success, g₀, es))
    (hstatic : kernel.static.Sound) (hsteps : graphObjectSystem.Steps SoundReuse g₀ tr g)
    (htbuf : g.getTbufPtr handle = some tbuf) (hasid : g.isAsidEnabled = true)
    (hsec : (g.info.sections param.loadType)[param.refSectionIter.toNat]? = some sec)
    (hshm : shmOffset ≤ (g.paramGroup tbuf param).pa) :
    g.AddressAgrees tbuf roundupPowOfTwo jobId param ↔
      shmOffset % 2 ^ 32 = 0 ∧ g.InGroup tbuf param := by
  have hoffset := (GraphObject.load_info hload).2
  obtain ⟨hinfo, -, hpbuf⟩ := graphObjectSystem_loaded hsteps
  have hplaced : Grouped g.info.pbufTempl.staticSections g.pbuf.staticBuf g.pbuf.staticGroup := by
    rw [hinfo, hpbuf]
    exact GraphObject.load_static hstatic hload
  have hloaded : g₀.Loaded := ⟨id, shmOffset, info, kernel, es, hload⟩
  have hgroup :=
    ((hloaded.allocatedBy _).steps hsteps).paramSections hplaced htbuf param.loadType
  obtain ⟨offset, hword, hplace, hbuf⟩ := hgroup.child _ sec hsec
  have hsections : g.info.sections param.loadType ≠ [] := by
    intro hnil
    rw [hnil] at hsec
    cases hsec
  have hpos : 0 < (g.paramGroup tbuf param).size := hgroup.pos hsections
  have hsize : (g.paramGroup tbuf param).pa + (g.paramGroup tbuf param).size ≤ 2 ^ 64 :=
    (hgroup.within hsections).physical
  have hpa : (g.paramGroup tbuf param).pa < 2 ^ 64 := by omega
  have hdev : ∀ pa, g.host2dev pa = wrapSub 64 pa shmOffset := by
    intro pa
    rw [GraphObject.host2dev, (graphObjectSystem_loaded hsteps).2.1, hoffset,
      wrap_of_lt (hshm.trans_lt hpa)]
  have hbase : param.loadType.ase.base
      (zhouyiV2Trigger roundupPowOfTwo { g.config tbuf with jobId := jobId }) =
      some ((g.paramGroup tbuf param).pa - shmOffset) := by
    rw [GraphObject.ase_base hasid, hdev, ← wrapSub_of_le hpa hshm]
    rfl
  have hsub : g.subSecPa tbuf param =
      some (wrapSub 32 (wrap 32 (offset + param.subSectionOffset.toNat)) (wrap 32 shmOffset)) := by
    rw [← subSecPa_eq hshm hpa, ← hdev]
    unfold GraphObject.subSecPa
    dsimp only
    rw [hbuf, Option.map_some, if_pos hasid]
    rfl
  have hagrees := address_agrees_iff hshm hsize hword param.subSectionOffset.toNat_lt
  have hin : g.InGroup tbuf param ↔
      offset + param.subSectionOffset.toNat < min (g.paramGroup tbuf param).size (2 ^ 32) := by
    constructor
    · rintro ⟨offset', hplace', hlt⟩
      rwa [Option.some.inj (hplace.symm.trans hplace')]
    · exact fun hlt => ⟨offset, hplace, hlt⟩
  rw [hin, ← hagrees]
  constructor
  · rintro ⟨buf, subSecPa, base, hbuf', hsub', hbase', hsum, hlt⟩
    obtain rfl := Option.some.inj (hbuf.symm.trans hbuf')
    obtain rfl := Option.some.inj (hsub.symm.trans hsub')
    obtain rfl := Option.some.inj (hbase.symm.trans hbase')
    exact ⟨hsum.trans (hdev _), hlt⟩
  · rintro ⟨hsum, hlt⟩
    exact ⟨_, _, _, hbuf, hsub, hbase, hsum.trans (hdev _).symm, hlt⟩

/-- A file with ASID for Zhouyi v2; its reuse section has a sub-section that is an input tensor. -/
def sampleFile (offset size : UInt32) : List UInt8 :=
  magic ++ List.replicate 8 0 ++
    ([0x204B4, 0x03000000, 0, 104, 220, 0, 1, 0, 104, 4, 108, 4, 0, 0, 112, 8, 120, 100,
      0, 0, 0, 0] ++ [1, 2, 3, 4] ++
      [256, 4096, 1, 1, 0, 8, 4096, 0, 4096, 4096, 1, offset, size, 0, 0, 2, 1, 1, 1, 8, 8,
        0xFFFFFFFF, 1, 0, 0]).flatMap wordBytes

/-- The device that the file is for. -/
def sampleZhouyiV2 : ParserConfig where
  aipuArch := 0
  aipuVersion := 2
  aipuHwConfig := 1204
  bypassVersionCheck := false

/-- The thread buffer that is allocated for the sample. -/
def sampleTbuf (offset size : UInt32) : ThreadBufferInfo where
  handle := 0x10000
  isFree := true
  stack := { va := 0x7020000, pa := 0x90020000, size := 4096, realSize := 256 }
  rodata := { va := 0x7030000, pa := 0x90030000, size := 4096, realSize := 4 }
  descriptor := {}
  reuseBuf := [{ va := 0x7040000, pa := 0x90040000, size := 4096, realSize := 4096 }]
  reuseGroup := { va := 0x7040000, pa := 0x90040000, size := 4096, realSize := 4096 }
  iobuf := {
    inputs := [{
      id := 0, size := size.toNat, va := wrap 64 (0x7040000 + offset.toNat)
      pa := wrap 64 (0x90040000 + offset.toNat) }] }

/-- The sample with a thread buffer. -/
def allocatedObject (shmOffset : ℕ) (offset size : UInt32) : GraphObject :=
  { sampleObject shmOffset offset size with tbufs := [(0x10000, sampleTbuf offset size)] }

/-- The thread buffer of the sample is allocated. -/
theorem allocatedObject_steps (shmOffset : ℕ) (offset size : UInt32) :
    ∃ tr, graphObjectSystem.Steps SoundAnswers (sampleObject shmOffset offset size) tr
      (allocatedObject shmOffset offset size) := by
  have hsound :
      SoundAnswers (sampleObject shmOffset offset size) (.allocThreadBuffer sampleMalloc) := by
    refine ⟨grantAt_sound ?_ ?_, grantAt_sound ?_ ?_, grantAt_sound ?_ ?_⟩ <;> decide
  have hbase : (sampleObject shmOffset offset size).graph.idBase = 0x10000 := by
    change 1 * 2 ^ 16 % uint32Size = 0x10000
    decide
  have hhandle : (sampleObject shmOffset offset size).createBufHandleInner = some 0x10000 := by
    rw [GraphObject.createBufHandleInner, hbase]
    rfl
  have hstep :
      graphObjectStep (sampleObject shmOffset offset size) (.allocThreadBuffer sampleMalloc) =
      some (allocatedObject shmOffset offset size,
        [.allocated (sampleTbuf offset size).stack, .allocated (sampleTbuf offset size).rodata,
          .allocated (sampleTbuf offset size).reuseGroup]) := by
    rw [graphObjectStep, GraphObject.allocThreadBuffer, hhandle]
    rfl
  exact ⟨_, .tail .refl hsound hstep⟩

/-- The sample, when a thread buffer was allocated. -/
theorem sample_steps (shmOffset : ℕ) (offset size : UInt32) :
    ∃ tr g, graphObjectSystem.Steps SoundAnswers (sampleObject shmOffset offset size) tr g ∧
      g.getTbufPtr 0x10000 = some (sampleTbuf offset size) ∧ g.info = sampleInfo offset size := by
  obtain ⟨tr, hsteps⟩ := allocatedObject_steps shmOffset offset size
  exact ⟨tr, _, hsteps, rfl, rfl⟩

/-- The entry of the parameter map of the sample. -/
def sampleParam (offset : UInt32) : ParamMapLoadDesc where
  offsetInMap := 0
  loadType := .reuse
  refSectionIter := 0
  refSubSectionIter := 0
  subSectionOffset := offset
  addrMask := 0xFFFFFFFF

/-- On a board without offset the sample gets the right address. -/
theorem asid_addresses_agree_sample :
    ∃ (g : GraphObject) (tbuf : ThreadBufferInfo), g.info.paramMap = [sampleParam 16] ∧
      g.AddressAgrees tbuf Nat.nextPowerOfTwo 0x10000 (sampleParam 16) := by
  obtain ⟨es, hload⟩ := sampleObject_loaded 0 16 64
  obtain ⟨tr, g, hsteps, htbuf, hinfo⟩ := sample_steps 0 16 64
  have hasid : g.isAsidEnabled = true := by
    rw [GraphObject.isAsidEnabled, hinfo]
    decide
  have hsections : g.info.sections .reuse = [{ size := 4096, subSections := [16] }] := by
    rw [hinfo]
    rfl
  have hsec : (g.info.sections .reuse)[0]? = some { size := 4096, subSections := [16] } := by
    rw [hsections]
    rfl
  refine ⟨g, sampleTbuf 16 64, by rw [hinfo]; rfl, ?_⟩
  refine (asid_addresses_agree_iff hload (grantAt_sound (by decide) (by decide))
    (AnswersBy.mono (fun _ hsound => hsound.2.2) hsteps) htbuf hasid hsec
    (Nat.zero_le _)).mpr ⟨rfl, 0, ?_, ?_⟩
  · exact (congrArg (groupOffset · 0) hsections).trans rfl
  · exact (by decide : 0 + 16 < min (sampleTbuf 16 64).reuseGroup.size (2 ^ 32))

/-- On a board whose shared memory starts at 2 GiB for the device, the address of the sample is off
by as much, and lies outside its group. -/
theorem asid_addresses_disagree :
    ∃ g₀ es tr g sec,
      (parseGraph sampleZhouyiV2 (Memory.ofBytes 4096 (sampleFile 16 64)) 4096 220).value =
        .ok g₀.info ∧
      GraphObject.load 1 0x80000000 g₀.info sampleLoad = some (.success, g₀, es) ∧
      graphObjectSystem.Steps SoundAnswers g₀ tr g ∧
      g.getTbufPtr 0x10000 = some (sampleTbuf 16 64) ∧ g.isAsidEnabled = true ∧
      sampleParam 16 ∈ g.info.paramMap ∧
      (g.info.sections .reuse)[0]? = some sec ∧ (16 : UInt32) < sec.size ∧
      0x80000000 ≤ (g.paramGroup (sampleTbuf 16 64) (sampleParam 16)).pa ∧
      ¬g.AddressAgrees (sampleTbuf 16 64) Nat.nextPowerOfTwo 0x10000 (sampleParam 16) := by
  obtain ⟨es, hload⟩ := sampleObject_loaded 0x80000000 16 64
  obtain ⟨tr, g, hsteps, htbuf, hinfo⟩ := sample_steps 0x80000000 16 64
  have hshm : g.shmOffset = 0x80000000 := (graphObjectSystem_loaded hsteps).2.1
  have hasid : g.isAsidEnabled = true := by
    rw [GraphObject.isAsidEnabled, hinfo]
    decide
  refine ⟨_, es, tr, g, { size := 4096, subSections := [16] }, by decide +kernel, hload,
    hsteps, htbuf,
    hasid, by rw [hinfo]; exact List.mem_singleton.mpr rfl, by rw [hinfo]; rfl, by decide,
    (by decide : 0x80000000 ≤ (sampleTbuf 16 64).reuseGroup.pa), ?_⟩
  rintro ⟨buf, subSecPa, base, -, hsub, -, -, hlt⟩
  have hcomputed : g.subSecPa (sampleTbuf 16 64) (sampleParam 16) = some 0x80000010 := by
    have hreuse : g.paramSections (sampleTbuf 16 64) (sampleParam 16).loadType =
        ((sampleTbuf 16 64).reuseBuf, (sampleTbuf 16 64).reuseGroup) := rfl
    rw [GraphObject.subSecPa, hreuse]
    simp only [hasid, GraphObject.host2dev, hshm]
    decide +kernel
  obtain rfl := Option.some.inj (hcomputed.symm.trans hsub)
  exact absurd hlt (by decide : ¬0x80000010 < (sampleTbuf 16 64).reuseGroup.size)

end Agreement

end Aipu
