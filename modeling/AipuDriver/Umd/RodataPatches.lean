import AipuDriver.Lib.WordPatch
import AipuDriver.Umd.BuildWrites

/-!
# What `build_new_job` makes of the rodata

`build_new_job` copies the rodata of the file and replaces bits of it by the addresses of
sub-sections.  When the entries of the parameter map select different bits inside the rodata, each
selected bit is the one of the address that `build_new_job` has computed for the entry, and the
other bits are those of the file, whatever the order of the entries and whatever was in the buffer
before.  With ASID the address should be the place in the group; but the offset of the shared memory
is subtracted from it.
-/

namespace Aipu

open ByteReader KeyedList Transition WordPatch Word

/-! ## Writes to memory -/

/-- What a write does to the memory.  The binary of the graph is in a memory that is not shared with
the device. -/
def HostWrite.run (binary mem : Memory) : HostWrite → Memory
  | .load dest src bytes => copyBytes binary mem dest src bytes
  | .patch dest subSecPa addrMask => Patch.apply mem ⟨dest, subSecPa, addrMask⟩
  | .store dest value => storeWord mem dest value

/-- What writes do one after the other. -/
def runWrites (binary mem : Memory) (writes : List HostWrite) : Memory :=
  writes.foldl (fun mem w => w.run binary mem) mem

/-- The patch for an entry of the parameter map, in a rodata at an address. -/
def ParamMapLoadDesc.patchAt (param : ParamMapLoadDesc) (va value : ℕ) : Patch where
  place := va + param.offsetInMap.toNat
  value := value
  mask := param.addrMask.toNat

/-- The entry selects a bit of the rodata. -/
def ParamMapLoadDesc.Selects (param : ParamMapLoadDesc) (k : ℕ) :
    Prop := (param.patchAt 0 0).Selects k

/-- Two entries select different bits. -/
def ParamMapLoadDesc.Apart (param param' : ParamMapLoadDesc) :
    Prop := (param.patchAt 0 0).Apart (param'.patchAt 0 0)

/-! ## The property -/

/-- The 32-bit address of the sub-section of an entry: that of the device, and with ASID its place
in the group. -/
def GraphObject.entryAddr (g : GraphObject) (tbuf : ThreadBufferInfo)
    (param : ParamMapLoadDesc) : Option ℕ :=
  let (bufs, group) := g.paramSections tbuf param.loadType
  bufs[param.refSectionIter.toNat]?.map fun buf =>
    let hostPa := wrap 64 (buf.pa + param.subSectionOffset.toNat)
    if g.isAsidEnabled then wrapSub 32 (wrap 32 hostPa) (wrap 32 group.pa)
    else wrap 32 (g.host2dev hostPa)

/-- The rodata in memory is that of the file, but the bits that an entry selects are those of its
address. -/
structure GraphObject.RodataExact (g : GraphObject) (tbuf : ThreadBufferInfo)
    (binary mem : Memory) : Prop where
  patched : ∀ param ∈ g.info.paramMap, ∀ addr, g.entryAddr tbuf param = some addr →
    ∀ k, param.Selects k →
    memoryBit mem (8 * tbuf.rodata.va + k) = addr.testBit (k - 8 * param.offsetInMap.toNat)
  kept : ∀ k < 8 * g.info.tbufTempl.rodataSize.toNat,
    (∀ param ∈ g.info.paramMap, ¬param.Selects k) →
    memoryBit mem (8 * tbuf.rodata.va + k) = memoryBit binary (8 * g.info.tbufTempl.rodataSrc + k)

/-- The graph with other entries in the parameter map. -/
def GraphObject.withParams (g : GraphObject) (params : List ParamMapLoadDesc) : GraphObject :=
  { g with info := { g.info with paramMap := params } }

/-- The writes make the exact rodata, and the same bytes are made when the entries are in another
order and when something else was in the memory. -/
structure GraphObject.PatchesExactly (g : GraphObject) (handle : ℕ) (tbuf : ThreadBufferInfo)
    (writes : List HostWrite) : Prop where
  exact : ∀ binary mem, g.RodataExact tbuf binary (runWrites binary mem writes)
  settled : ∀ params, params.Perm g.info.paramMap → ∀ addr ret g' new writes',
    (g.withParams params).buildNewJob handle addr = some (ret, g', new, writes') →
      ∀ binary mem mem' q, q < g.info.tbufTempl.rodataSize.toNat →
        runWrites binary mem writes (tbuf.rodata.va + q) =
          runWrites binary mem' writes' (tbuf.rodata.va + q)

/-- With ASID, taking the offset of the shared memory away changes no bit of an address that is
selected. -/
def GraphObject.OffsetMasked (g : GraphObject) (tbuf : ThreadBufferInfo) : Prop :=
  g.isAsidEnabled = true → ∀ param ∈ g.info.paramMap, ∀ addr, g.entryAddr tbuf param = some addr →
    wrapSub 32 addr (wrap 32 g.shmOffset) &&& param.addrMask.toNat = addr &&& param.addrMask.toNat

/-! ## The patches -/

section Patches

variable {g : GraphObject} {tbuf : ThreadBufferInfo}

/-- The bits that the patch of an entry replaces. -/
theorem ParamMapLoadDesc.selects_patchAt (param : ParamMapLoadDesc) (va value k : ℕ) :
    (param.patchAt va value).Selects (8 * va + k) ↔ param.Selects k := by
  unfold ParamMapLoadDesc.Selects Patch.Selects ParamMapLoadDesc.patchAt
  simp only [Nat.zero_add]
  by_cases hk : 8 * param.offsetInMap.toNat ≤ k
  · rw [show 8 * va + k - 8 * (va + param.offsetInMap.toNat) =
      k - 8 * param.offsetInMap.toNat by omega]
    refine and_congr ?_ (and_congr ?_ Iff.rfl)
    · omega
    · omega
  · exact iff_of_false (fun h => hk (by omega)) fun h => hk h.1

/-- The patches of two entries are apart iff the entries are. -/
theorem ParamMapLoadDesc.Apart.patchAt {param param' : ParamMapLoadDesc} (h : param.Apart param')
    (va value value' : ℕ) : (param.patchAt va value).Apart (param'.patchAt va value') := by
  rintro k ⟨hselects, hselects'⟩
  have hle : 8 * va ≤ k := by
    have hfirst : 8 * (va + param.offsetInMap.toNat) ≤ k := hselects.1
    omega
  obtain ⟨j, rfl⟩ := Nat.exists_eq_add_of_le hle
  exact h j ⟨(param.selects_patchAt va value j).mp hselects,
    (param'.selects_patchAt va value' j).mp hselects'⟩

/-- What `build_new_job` computes is the address of the entry, with ASID without the offset of the
shared memory. -/
theorem GraphObject.subSecPa_eq_entryAddr (g : GraphObject) (tbuf : ThreadBufferInfo)
    (param : ParamMapLoadDesc) :
    g.subSecPa tbuf param = (g.entryAddr tbuf param).map fun addr =>
      if g.isAsidEnabled then wrapSub 32 addr (wrap 32 g.shmOffset) else addr := by
  have hword : ∀ hostPa groupPa : ℕ, hostPa < 2 ^ 64 →
      wrapSub 32 (wrap 32 (g.host2dev hostPa)) (wrap 32 groupPa) =
        wrapSub 32 (wrapSub 32 (wrap 32 hostPa) (wrap 32 groupPa)) (wrap 32 g.shmOffset) := by
    intro hostPa groupPa hhost
    unfold GraphObject.host2dev wrapSub wrap
    omega
  unfold GraphObject.subSecPa GraphObject.entryAddr
  rcases g.paramSections tbuf param.loadType with ⟨bufs, group⟩
  dsimp only
  rw [Option.map_map]
  congr 1
  funext buf
  rw [Function.comp_apply]
  split_ifs with hasid
  · exact hword _ _ (wrap_lt 64 _)
  · rfl

/-- The patch that `build_new_job` makes for an entry. -/
def GraphObject.paramPatch (g : GraphObject) (tbuf : ThreadBufferInfo)
    (param : ParamMapLoadDesc) : Patch :=
  param.patchAt tbuf.rodata.va ((g.subSecPa tbuf param).getD 0)

/-- The loop over the parameter map makes the patches of the entries when they are in range. -/
theorem GraphObject.runWrites_patchRodata (hmapped : tbuf.rodata.va + 2 ^ 32 ≤ 2 ^ 64)
    (binary mem : Memory)
    {params : List ParamMapLoadDesc} (hrange : ∀ param ∈ params, g.InRange tbuf param) :
    runWrites binary mem (g.patchRodata tbuf params).1 =
      applyAll mem (params.map (g.paramPatch tbuf)) := by
  induction params generalizing mem with
  | nil => rfl
  | cons param rest ih =>
    rw [List.forall_mem_cons] at hrange
    obtain ⟨⟨hoffset, hsec⟩, hrest⟩ := hrange
    have hword := param.offsetInMap.toNat_lt
    rw [GraphObject.patchRodata, if_neg (Nat.not_le.mpr hoffset)]
    cases hsub : g.subSecPa tbuf param with
    | none => exact absurd (GraphObject.subSecPa_eq_none.mp hsub) (Nat.not_le.mpr hsec)
    | some subSecPa =>
      dsimp only
      rw [wrap_of_lt (by omega), List.map_cons, runWrites, List.foldl_cons, applyAll,
        List.foldl_cons]
      have hpatch : g.paramPatch tbuf param =
          ⟨tbuf.rodata.va + param.offsetInMap.toNat, subSecPa, param.addrMask.toNat⟩ := by
        rw [GraphObject.paramPatch, hsub]
        rfl
      rw [hpatch]
      exact ih _ hrest

end Patches

/-! ## The call -/

section Call

variable {g g' : GraphObject} {tbuf : ThreadBufferInfo} {handle addr : ℕ} {new : Option ℕ}
    {writes : List HostWrite}

/-- A call that succeeds was made on a free buffer, and all entries were in range. -/
theorem GraphObject.buildNewJob_success (htbuf : g.getTbufPtr handle = some tbuf)
    (h : g.buildNewJob handle addr = some (.success, g', new, writes)) :
    tbuf.isFree = true ∧ ∀ param ∈ g.info.paramMap, g.InRange tbuf param := by
  have hfree : tbuf.isFree = true := by
    by_contra hbusy
    have hall : ∀ tbuf', g.getTbufPtr handle = some tbuf' → tbuf'.isFree = false := by
      intro tbuf' htbuf'
      obtain rfl := Option.some.inj (htbuf.symm.trans htbuf')
      simpa using hbusy
    obtain ⟨ret, hret, hcall⟩ := GraphObject.buildNewJob_busy addr hall
    exact hret (Prod.mk.inj (Option.some.inj (hcall.symm.trans h))).1
  exact ⟨hfree, (GraphObject.buildNewJob_free htbuf hfree h).1.mp rfl⟩

/-- Without a linked list, a call that succeeds copies the rodata and makes the patches of the
entries. -/
theorem GraphObject.runWrites_buildNewJob (hmapped : tbuf.rodata.va + 2 ^ 32 ≤ 2 ^ 64)
    (htbuf : g.getTbufPtr handle = some tbuf) (hlinked : g.info.linkedListFlag = 0)
    (h : g.buildNewJob handle addr = some (.success, g', new, writes)) (binary mem : Memory) :
    runWrites binary mem writes =
      applyAll (copyBytes binary mem tbuf.rodata.va g.info.tbufTempl.rodataSrc
      g.info.tbufTempl.rodataSize.toNat) (g.info.paramMap.map (g.paramPatch tbuf)) := by
  obtain ⟨hfree, hrange⟩ := GraphObject.buildNewJob_success htbuf h
  have hloads : (g.loadRodata tbuf).1 =
      [.load tbuf.rodata.va g.info.tbufTempl.rodataSrc g.info.tbufTempl.rodataSize.toNat] := by
    simp [GraphObject.loadRodata, hlinked]
  have hnodes : g.writtenNodes .success = [] := by simp [GraphObject.writtenNodes, hlinked]
  rw [GraphObject.buildNewJob_writes htbuf hfree h, hloads, hnodes, List.map_nil, List.append_nil,
    ← GraphObject.runWrites_patchRodata hmapped binary _ hrange]
  rfl

/-- The masks of the patches are words. -/
theorem GraphObject.paramPatch_mask (g : GraphObject) (tbuf : ThreadBufferInfo)
    (params : List ParamMapLoadDesc) :
    ∀ x ∈ params.map (g.paramPatch tbuf), x.mask < 2 ^ 32 := by
  intro x hx
  obtain ⟨param, -, rfl⟩ := List.mem_map.mp hx
  exact param.addrMask.toNat_lt

/-- The patches of entries that select different bits are apart. -/
theorem GraphObject.paramPatch_apart (g : GraphObject) (tbuf : ThreadBufferInfo)
    {params : List ParamMapLoadDesc}
    (hapart : params.Pairwise ParamMapLoadDesc.Apart) :
    (params.map (g.paramPatch tbuf)).Pairwise Patch.Apart :=
  hapart.map _ fun _ _ h => h.patchAt _ _ _

/-- The bits of two numbers in a mask of 32 bits agree iff the numbers do under the mask. -/
theorem testBit_eq_iff_and {a b mask : ℕ} :
    (∀ j, mask.testBit j = true → a.testBit j = b.testBit j) ↔ a &&& mask = b &&& mask := by
  constructor
  · intro h
    refine Nat.eq_of_testBit_eq fun j => ?_
    rw [Nat.testBit_and, Nat.testBit_and]
    by_cases hj : mask.testBit j = true
    · rw [h j hj]
    · rw [Bool.eq_false_iff.mpr hj, Bool.and_false, Bool.and_false]
  · intro h j hj
    have hbit := congrArg (fun n : ℕ => n.testBit j) h
    simpa [hj] using hbit

/-- The rodata is exact after the patches iff each entry has the bits of its address. -/
theorem GraphObject.rodataExact_iff (hapart : g.info.paramMap.Pairwise ParamMapLoadDesc.Apart)
    (binary mem : Memory) :
    g.RodataExact tbuf binary
        (applyAll (copyBytes binary mem tbuf.rodata.va g.info.tbufTempl.rodataSrc
        g.info.tbufTempl.rodataSize.toNat) (g.info.paramMap.map (g.paramPatch tbuf))) ↔
          g.OffsetMasked tbuf := by
  have hmasks := g.paramPatch_mask tbuf g.info.paramMap
  have hpatches := g.paramPatch_apart tbuf hapart
  have hbit : ∀ param ∈ g.info.paramMap, ∀ addr, g.entryAddr tbuf param = some addr →
      ∀ k, param.Selects k →
      memoryBit (applyAll (copyBytes binary mem tbuf.rodata.va g.info.tbufTempl.rodataSrc
        g.info.tbufTempl.rodataSize.toNat) (g.info.paramMap.map (g.paramPatch tbuf)))
          (8 * tbuf.rodata.va + k) =
        (if g.isAsidEnabled then wrapSub 32 addr (wrap 32 g.shmOffset) else addr).testBit
          (k - 8 * param.offsetInMap.toNat) := by
    intro param hparam addr haddr k hselects
    have hsub : (g.subSecPa tbuf param).getD 0 =
        if g.isAsidEnabled then wrapSub 32 addr (wrap 32 g.shmOffset) else addr := by
      rw [GraphObject.subSecPa_eq_entryAddr, haddr]
      rfl
    have hpatch : (g.paramPatch tbuf param).Selects (8 * tbuf.rodata.va + k) :=
      (param.selects_patchAt _ _ k).mpr hselects
    rw [applyAll_selected hmasks hpatches (List.mem_map_of_mem hparam) hpatch]
    change ((g.subSecPa tbuf param).getD 0).testBit (8 * tbuf.rodata.va + k -
      8 * (tbuf.rodata.va + param.offsetInMap.toNat)) = _
    rw [hsub, show 8 * tbuf.rodata.va + k - 8 * (tbuf.rodata.va + param.offsetInMap.toNat) =
      k - 8 * param.offsetInMap.toNat by omega]
  constructor
  · intro h hasid param hparam addr haddr
    refine testBit_eq_iff_and.mp fun j hj => ?_
    have hword : j < 32 := by
      by_contra hlarge
      rw [Nat.testBit_lt_two_pow (param.addrMask.toNat_lt.trans_le
        (Nat.pow_le_pow_right (by decide) (Nat.not_lt.mp hlarge)))] at hj
      cases hj
    have hplace : 8 * param.offsetInMap.toNat + j - 8 * param.offsetInMap.toNat = j := by omega
    have hselects : param.Selects (8 * param.offsetInMap.toNat + j) := by
      unfold ParamMapLoadDesc.Selects Patch.Selects ParamMapLoadDesc.patchAt
      simp only [Nat.zero_add, hplace]
      exact ⟨by omega, by omega, hj⟩
    have hexact := h.patched param hparam addr haddr _ hselects
    rw [hbit param hparam addr haddr _ hselects, if_pos hasid, hplace] at hexact
    exact hexact
  · intro h
    refine ⟨fun param hparam addr haddr k hselects => ?_, fun k hk hnone => ?_⟩
    · rw [hbit param hparam addr haddr k hselects]
      split_ifs with hasid
      · exact testBit_eq_iff_and.mpr (h hasid param hparam addr haddr) _ (by
          have hmask := hselects.2.2
          simpa [ParamMapLoadDesc.patchAt] using hmask)
      · rfl
    · rw [applyAll_kept hmasks, memoryBit_copyBytes hk]
      intro x hx hselects
      obtain ⟨param, hparam, rfl⟩ := List.mem_map.mp hx
      exact hnone param hparam ((param.selects_patchAt _ _ k).mp hselects)

/-- The order of the entries and the old contents of the buffer do not matter. -/
theorem GraphObject.patches_settled (hmapped : tbuf.rodata.va + 2 ^ 32 ≤ 2 ^ 64)
    (htbuf : g.getTbufPtr handle = some tbuf) (hlinked : g.info.linkedListFlag = 0)
    (hapart : g.info.paramMap.Pairwise ParamMapLoadDesc.Apart)
    (h : g.buildNewJob handle addr = some (.success, g', new, writes))
    {params : List ParamMapLoadDesc}
    (hperm : params.Perm g.info.paramMap) {addr' : ℕ} {ret : AipuStatus} {g'' : GraphObject}
    {new' : Option ℕ}
    {writes' : List HostWrite}
    (h' : (g.withParams params).buildNewJob handle addr' = some (ret, g'', new', writes'))
    (binary mem mem' : Memory)
    {q : ℕ} (hq : q < g.info.tbufTempl.rodataSize.toNat) :
    runWrites binary mem writes (tbuf.rodata.va + q) =
      runWrites binary mem' writes' (tbuf.rodata.va + q) := by
  obtain ⟨hfree, hrange⟩ := GraphObject.buildNewJob_success htbuf h
  have htbuf' : (g.withParams params).getTbufPtr handle = some tbuf := htbuf
  have hrange' : ∀ param ∈ (g.withParams params).info.paramMap,
      (g.withParams params).InRange tbuf param :=
    fun param hparam => hrange param (hperm.mem_iff.mp hparam)
  obtain rfl := (GraphObject.buildNewJob_free htbuf' hfree h').1.mpr hrange'
  have hpatch : (g.withParams params).paramPatch tbuf = g.paramPatch tbuf := rfl
  rw [GraphObject.runWrites_buildNewJob hmapped htbuf hlinked h,
    GraphObject.runWrites_buildNewJob hmapped htbuf' hlinked h', hpatch]
  refine byte_ext fun r hr => ?_
  refine applyAll_perm (g.paramPatch_mask tbuf _) (g.paramPatch_apart tbuf hapart) (hperm.map _) ?_
  have hk : 8 * q + r < 8 * g.info.tbufTempl.rodataSize.toNat := by omega
  have hplace : 8 * (tbuf.rodata.va + q) + r = 8 * tbuf.rodata.va + (8 * q + r) := by omega
  rw [hplace, memoryBit_copyBytes hk]
  exact (memoryBit_copyBytes hk).symm

/-- After a successful `build_new_job` without linked list, for entries that select different bits
inside the rodata: the rodata is exact, and settled, iff with ASID the offset of the shared memory
changes no bit that is selected. -/
theorem rodata_exact_iff {g₀ : GraphObject} {id shmOffset : ℕ} {info : GraphInfo}
    {kernel : LoadMalloc} {es tr : List BufferEvent}
    (hload : GraphObject.load id shmOffset info kernel = some (.success, g₀, es))
    (hsteps : graphObjectSystem.Steps SoundRodata g₀ tr g)
    (htbuf : g.getTbufPtr handle = some tbuf) (hlinked : g.info.linkedListFlag = 0)
    (hapart : g.info.paramMap.Pairwise ParamMapLoadDesc.Apart)
    (h : g.buildNewJob handle addr = some (.success, g', new, writes)) :
    g.PatchesExactly handle tbuf writes ↔ g.OffsetMasked tbuf := by
  have hloaded : g₀.Loaded := ⟨id, shmOffset, info, kernel, es, hload⟩
  have hwithin := (((hloaded.allocatedBy _).steps hsteps).rodataPlaced htbuf).within
  have hmapped : tbuf.rodata.va + 2 ^ 32 ≤ 2 ^ 64 := by
    have hva := hwithin.mapped
    omega
  have hrun :=
    fun binary mem => GraphObject.runWrites_buildNewJob hmapped htbuf hlinked h binary mem
  constructor
  · intro hexact
    have hrodata := hexact.exact (fun _ => 0) fun _ => 0
    rw [hrun] at hrodata
    exact (GraphObject.rodataExact_iff hapart _ _).mp hrodata
  · intro hmasked
    refine ⟨fun binary mem => ?_,
      fun params hperm addr' ret g'' new' writes' h' binary mem mem' q hq => ?_⟩
    · rw [hrun]
      exact (GraphObject.rodataExact_iff hapart binary mem).mpr hmasked
    · exact GraphObject.patches_settled hmapped htbuf hlinked hapart h hperm h' binary mem mem' hq

end Call

/-! ## Samples -/

/-- A job is built on the thread buffer of the sample, which gets its only entry. -/
theorem allocatedObject_builds (shmOffset : ℕ) (hshm : shmOffset = 0 ∨ shmOffset = 0x80000000) :
    ∃ g' new writes, (allocatedObject shmOffset 16 64).buildNewJob 0x10000 0 =
      some (.success, g', new, writes) := by
  have hsuccess : ((allocatedObject shmOffset 16 64).buildNewJob 0x10000 0).map (fun r => r.1) =
      some .success := by
    rcases hshm with rfl | rfl <;> decide +kernel
  obtain ⟨⟨ret, g', new, writes⟩, hcall, rfl⟩ := Option.map_eq_some_iff.mp hsuccess
  exact ⟨g', new, writes, hcall⟩

/-- The address of the entry of the sample is its place in the group. -/
theorem allocatedObject_entryAddr (shmOffset : ℕ) :
    (allocatedObject shmOffset 16 64).entryAddr (sampleTbuf 16 64) (sampleParam 16) = some 16 := by
  have hasid : (allocatedObject shmOffset 16 64).isAsidEnabled = true :=
    (by decide +kernel : (allocatedObject 0 16 64).isAsidEnabled = true)
  have hreuse :
      (allocatedObject shmOffset 16 64).paramSections (sampleTbuf 16 64) (sampleParam 16).loadType =
      ((sampleTbuf 16 64).reuseBuf, (sampleTbuf 16 64).reuseGroup) := rfl
  rw [GraphObject.entryAddr, hreuse]
  simp only [hasid, if_true]
  decide +kernel

/-- On a board without offset the rodata of the sample is exact. -/
theorem rodata_exact_sample : ∃ g' new writes,
    (allocatedObject 0 16 64).buildNewJob 0x10000 0 = some (.success, g', new, writes) ∧
      (allocatedObject 0 16 64).PatchesExactly 0x10000 (sampleTbuf 16 64) writes := by
  obtain ⟨es, hload⟩ := sampleObject_loaded 0 16 64
  obtain ⟨tr, hsteps⟩ := allocatedObject_steps 0 16 64
  obtain ⟨g', new, writes, hcall⟩ := allocatedObject_builds 0 (.inl rfl)
  refine ⟨g', new, writes, hcall, ?_⟩
  refine (rodata_exact_iff hload (AnswersBy.mono (fun _ hsound => hsound.2.1) hsteps) rfl rfl
    (List.pairwise_singleton _ _) hcall).mpr fun _ param hparam addr haddr => ?_
  obtain rfl : param = sampleParam 16 := List.mem_singleton.mp hparam
  obtain rfl := Option.some.inj ((allocatedObject_entryAddr 0).symm.trans haddr)
  decide

/-- With ASID on a board whose shared memory has the offset `0x80000000`, the word in the rodata of
the sample is `0x80000010`, and not the place 16 of the sub-section in the group. -/
theorem rodata_not_exact :
    (parseGraph sampleZhouyiV2 (Memory.ofBytes 4096 (sampleFile 16 64)) 4096 220).value =
        .ok (allocatedObject 0x80000000 16 64).info ∧
      ∃ g' new writes, (allocatedObject 0x80000000 16 64).buildNewJob 0x10000 0 =
        some (.success, g', new, writes) ∧
        ¬(allocatedObject 0x80000000 16 64).PatchesExactly 0x10000 (sampleTbuf 16 64) writes := by
  obtain ⟨g', new, writes, hcall⟩ := allocatedObject_builds 0x80000000 (.inr rfl)
  refine ⟨by decide +kernel, g', new, writes, hcall, fun h => ?_⟩
  have hrodata := h.exact (fun _ => 0) fun _ => 0
  rw [GraphObject.runWrites_buildNewJob (by decide) rfl rfl hcall] at hrodata
  have hmasked := (GraphObject.rodataExact_iff (List.pairwise_singleton _ _) _ _).mp hrodata
  have hword := hmasked (by decide +kernel) (sampleParam 16) (List.mem_singleton.mpr rfl) 16
    (allocatedObject_entryAddr 0x80000000)
  exact absurd hword (by decide)

end Aipu
