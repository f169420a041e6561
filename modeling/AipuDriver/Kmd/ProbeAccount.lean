import AipuDriver.Kmd.Probe

/-!
# The account of the driver's parts

Each part of the driver (an IO region, the interrupt object, the core, the SoC, the queues, a region
of memory) takes resources of the kernel when it is made and gives them back when it is destroyed.
`owned` is what a part gives back; what it takes beyond that is forgotten, and is written down here
as a function of the answers of the kernel.
-/

namespace Aipu

open ResourceLedger Word

/-! ## What belongs to the driver -/

/-- What an IO region holds. -/
def IoRegion.owned (region : IoRegion) : List Resource :=
  if region.kern then [.ioMapping region.phys region.size, .ioClaim region.phys region.size] else []

/-- What an interrupt object holds, as far as it is given back. -/
def AipuIrqObject.owned (irqObj : AipuIrqObject) : List Resource :=
  (if irqObj.aipuWq then [.workqueue] else []) ++
    ((if irqObj.irqnum ≠ 0 then [.irqLine irqObj.irqnum] else []) ++ [.irqObject])

/-- What a core holds. -/
def AipuCore.owned (core : AipuCore) : List Resource := core.base0.owned ++ core.irqObj.owned

/-- What a region of memory holds. -/
def RegionResources.owned (region : RegionResources) : List Resource :=
  List.replicate region.blocks .block ++
    match region.type with
    | .sram | .reserved => [.remap region.pa region.totBytes]
    | .cma => [.dmaBuffer region.pa region.totBytes, .reservedMem]

/-- What the regions of a list with a head hold. -/
def RegionLists.owned (mm : RegionLists) : List Resource :=
  (if mm.sramHead then mm.sram.flatMap RegionResources.owned else []) ++
    if mm.ddrHead then mm.ddr.flatMap RegionResources.owned else []

/-- What the driver gives back after the attributes and the misc device. -/
def AipuPriv.owned (p : AipuPriv) : List Resource :=
  p.soc.elim [] IoRegion.owned ++ p.core0.elim [] AipuCore.owned

section Functions

variable {k : Ledger Resource} {rest bad : List Resource}

/-! ## Giving back -/

/-- An IO region gives back what it holds, and its registers cannot be accessed any more. -/
theorem aipuDestroyIoregion_holds {region : IoRegion} (h : k.Holds (region.owned ++ rest) bad) :
    (aipuDestroyIoregion region k).1.kern = false ∧
      (aipuDestroyIoregion region k).2.Holds rest bad := by
  unfold aipuDestroyIoregion
  unfold IoRegion.owned at h
  split_ifs at h ⊢ with hkern
  · exact ⟨rfl, h.release.release⟩
  · exact ⟨by simpa using hkern, h⟩

/-- An interrupt object gives back what it holds. -/
theorem aipuDestroyIrqObject_holds {irqObj : AipuIrqObject}
    (h : k.Holds (irqObj.owned ++ rest) bad) : (aipuDestroyIrqObject irqObj k).Holds rest bad := by
  obtain ⟨irqnum, aipuWq⟩ := irqObj
  unfold AipuIrqObject.owned at h
  unfold aipuDestroyIrqObject
  dsimp only at h ⊢
  have hwq : (if aipuWq then k.release .workqueue else k).Holds
      ((if irqnum ≠ 0 then [.irqLine irqnum] else []) ++ [.irqObject] ++ rest) bad := by
    cases aipuWq with
    | false => exact h
    | true => exact h.release
  by_cases hnum : irqnum ≠ 0
  · rw [if_pos hnum] at hwq ⊢
    exact hwq.release.release
  · rw [if_neg hnum] at hwq ⊢
    exact hwq.release

/-- A core gives back what it holds. -/
theorem destroyAipuCore_holds {core : AipuCore} (h : k.Holds (core.owned ++ rest) bad) :
    (destroyAipuCore core k).1.base0.kern = false ∧ (destroyAipuCore core k).2.Holds rest bad := by
  unfold AipuCore.owned at h
  rw [List.append_assoc] at h
  obtain ⟨hkern, hregion⟩ := aipuDestroyIoregion_holds h
  exact ⟨hkern, aipuDestroyIrqObject_holds hregion⟩

/-- A part that may be missing gives back what it holds. -/
theorem destroyPart_holds {α : Type*} (destroy : α → Ledger Resource → α × Ledger Resource)
    {owned : α → List Resource} {P : α → Prop} {part : Option α}
    (hdestroy : ∀ {p k rest}, k.Holds (owned p ++ rest) bad →
      P (destroy p k).1 ∧ (destroy p k).2.Holds rest bad)
    (h : k.Holds (part.elim [] owned ++ rest) bad) :
    (∀ p ∈ (destroyPart destroy part k).1, P p) ∧
      (destroyPart destroy part k).2.Holds rest bad := by
  cases part with
  | none => exact ⟨by simp [destroyPart], h⟩
  | some p =>
    obtain ⟨hp, hk⟩ := hdestroy h
    refine ⟨fun q hq => ?_, hk⟩
    obtain rfl : (destroy p k).1 = q := Option.some.inj hq
    exact hp

/-- A region of memory gives back what it holds. -/
theorem aipuMmDeinitRegion_holds {region : RegionResources}
    (h : k.Holds (region.owned ++ rest) bad) : (aipuMmDeinitRegion k region).Holds rest bad := by
  obtain ⟨pa, totBytes, type, blocks⟩ := region
  unfold RegionResources.owned at h
  rw [List.append_assoc] at h
  have hblocks := h.releaseAll
  unfold aipuMmDeinitRegion
  cases type with
  | sram => exact hblocks.release
  | cma => exact hblocks.release.release
  | reserved => exact hblocks.release

/-- A list of regions gives back what it holds. -/
theorem foldl_deinitRegion_holds {l : List RegionResources}
    (h : k.Holds (l.flatMap RegionResources.owned ++ rest) bad) :
    (l.foldl aipuMmDeinitRegion k).Holds rest bad := by
  induction l generalizing k with
  | nil => exact h
  | cons region l ih =>
    rw [List.flatMap_cons, List.append_assoc] at h
    exact ih (aipuMmDeinitRegion_holds h)

/-- The memory manager gives back its regions, and forgets its heads. -/
theorem aipuDeinitMm_holds {mm : RegionLists} (h : k.Holds (mm.owned ++ rest) bad) :
    (aipuDeinitMm mm k).1 = ⟨false, [], false, []⟩ ∧ (aipuDeinitMm mm k).2.Holds rest bad := by
  obtain ⟨sramHead, sram, ddrHead, ddr⟩ := mm
  refine ⟨rfl, ?_⟩
  unfold RegionLists.owned at h
  rw [List.append_assoc] at h
  unfold aipuDeinitMm
  dsimp only at h ⊢
  have hsram : (if sramHead then sram.foldl aipuMmDeinitRegion k else k).Holds
      ((if ddrHead then ddr.flatMap RegionResources.owned else []) ++ rest) bad := by
    cases sramHead with
    | false => exact h
    | true => exact foldl_deinitRegion_holds h
  cases ddrHead with
  | false => exact hsram
  | true => exact foldl_deinitRegion_holds hsram

/-- Whether a resource is an attribute. -/
def Resource.isSysfs : Resource → Bool
  | .sysfs _ => true
  | _ => false

/-- The attributes are given back, whichever of them were made. -/
theorem aipuDestroySysfs_holds {sys : List Resource} (h : k.Holds (sys ++ rest) bad)
    (hsys : ∀ r ∈ sys, r.isSysfs = true) (hrest : ∀ r ∈ rest, r.isSysfs = false) :
    (aipuDestroySysfs k).Holds rest bad := by
  have hkind : (fun r : Resource =>
      !decide (r = .sysfs .kmdVersion ∨ r = .sysfs .extRegister ∨ r = .sysfs .job)) =
      fun r => !r.isSysfs := by
    funext r
    cases r with
    | sysfs attr => cases attr <;> rfl
    | _ => rfl
  have hdrop := h.drop fun r : Resource =>
    decide (r = .sysfs .kmdVersion ∨ r = .sysfs .extRegister ∨ r = .sysfs .job)
  rw [hkind, List.filter_append, List.filter_eq_nil_iff.mpr (by simpa using hsys),
    List.filter_eq_self.mpr (by simpa using hrest)] at hdrop
  exact hdrop

/-- `deinit_aipu_priv` gives back all that belongs to a driver whose misc device is registered. -/
theorem deinitAipuPriv_holds {debug : Bool} {d : DriverLife} {sys : List Resource}
    (hsysfs : d.sysfsAipu = debug) (hmisc : d.priv.misc = true)
    (h : d.kernel.Holds (sys ++ (d.priv.mm.owned ++ .misc :: (d.priv.owned ++ rest))) bad)
    (hsys : ∀ r ∈ sys, r.isSysfs = true) (hnone : debug = false → sys = [])
    (hrest : ∀ r ∈ d.priv.mm.owned ++ .misc :: (d.priv.owned ++ rest), r.isSysfs = false) :
    ∃ d', deinitAipuPriv debug d = some d' ∧ d'.kernel.Holds rest bad ∧ d'.sysfsAipu = false ∧
      d'.drvdata = d.drvdata ∧ ∀ core ∈ d'.priv.core0, core.base0.kern = false := by
  obtain ⟨k₁, hk₁⟩ : ∃ k₁, (if debug then aipuDestroySysfs d.kernel else d.kernel) = k₁ := ⟨_, rfl⟩
  have hattrs : k₁.Holds (d.priv.mm.owned ++ .misc :: (d.priv.owned ++ rest)) bad := by
    rw [← hk₁]
    cases debug with
    | false =>
      rw [hnone rfl] at h
      exact h
    | true => exact aipuDestroySysfs_holds h hsys hrest
  obtain ⟨-, hregions⟩ := aipuDeinitMm_holds hattrs
  obtain ⟨mm, kmm, hdeinit⟩ : ∃ mm kmm, aipuDeinitMm d.priv.mm k₁ = (mm, kmm) := ⟨_, _, rfl⟩
  rw [hdeinit] at hregions
  have hdevice := hregions.release
  unfold AipuPriv.owned at hdevice
  rw [List.append_assoc] at hdevice
  obtain ⟨-, hsoc⟩ :=
    destroyPart_holds destroyAipuSoc (P := fun base0 => base0.kern = false)
      aipuDestroyIoregion_holds hdevice
  obtain ⟨hkern, hcore⟩ :=
    destroyPart_holds destroyAipuCore (P := fun core => core.base0.kern = false)
      destroyAipuCore_holds hsoc
  have hnot : ¬(debug = true ∧ d.sysfsAipu = false) := by
    rintro ⟨hd, hf⟩
    rw [hsysfs, hd] at hf
    cases hf
  unfold deinitAipuPriv
  simp only [if_neg hnot, hk₁, hdeinit, if_pos hmisc]
  exact ⟨_, rfl, hcore, rfl, rfl, hkern⟩

/-! ## Making an IO region, an interrupt object and a core -/

/-- An IO region is returned for a size that is not zero, when there is memory for it. -/
def IoAnswers.made (a : IoAnswers) (size : ℕ) : Prop := wrap 32 size ≠ 0 ∧ a.kzalloc = true

instance (a : IoAnswers) (size : ℕ) : Decidable (a.made size) :=
  inferInstanceAs (Decidable (_ ∧ _))

/-- The window is claimed and mapped. -/
def IoAnswers.mapped (a : IoAnswers) : Bool := a.requestMemRegion && a.ioremap

/-- What a mapped window takes. -/
def IoAnswers.window (a : IoAnswers) (base size : ℕ) : List Resource :=
  if a.mapped then [.ioMapping base (wrap 32 size), .ioClaim base (wrap 32 size)] else []

/-- A window that is claimed but not mapped stays claimed. -/
def IoAnswers.lost (a : IoAnswers) (base size : ℕ) : List Resource :=
  given (a.requestMemRegion && !a.ioremap) (.ioClaim base (wrap 32 size))

/-- `aipu_create_ioregion` makes a region that accounts for its window, and loses a window that is
claimed but not mapped. -/
theorem aipuCreateIoregion_holds (a : IoAnswers) (base size : ℕ) (h : k.Holds rest bad) :
    (¬a.made size ∧ ∃ k', aipuCreateIoregion a k base size = (none, k') ∧ k'.Holds rest bad) ∨
      (a.made size ∧ ∃ region k', aipuCreateIoregion a k base size = (some region, k') ∧
        region.kern = a.mapped ∧ region.owned = a.window base size ∧
        k'.Holds (region.owned ++ .devm :: (a.lost base size ++ rest)) bad) := by
  obtain ⟨kzalloc, requestMemRegion, ioremap⟩ := a
  unfold aipuCreateIoregion IoAnswers.made
  by_cases hsize : wrap 32 size = 0
  · rw [if_pos hsize]
    exact .inl ⟨by simp [hsize], k, rfl, h⟩
  rw [if_neg hsize]
  cases kzalloc with
  | false => exact .inl ⟨by simp, k, rfl, h⟩
  | true =>
    refine .inr ⟨⟨hsize, rfl⟩, ?_⟩
    cases requestMemRegion with
    | false => exact ⟨_, _, rfl, rfl, rfl, h.acquire _⟩
    | true =>
      cases ioremap with
      | false => exact ⟨_, _, rfl, rfl, rfl, ((h.acquire _).acquire _).perm (List.Perm.swap _ _ _)⟩
      | true =>
        refine ⟨_, _, rfl, rfl, rfl, (((h.acquire _).acquire _).acquire _).perm (.refl _)⟩

/-- All calls of `aipu_create_irq_object` succeed. -/
def IrqAnswers.ok (a : IrqAnswers) : Bool := a.kzalloc && a.createWorkqueue && a.requestIrq

/-- `aipu_create_irq_object` makes an object that accounts for all it has taken, save the line with
number zero. -/
theorem aipuCreateIrqObject_holds (a : IrqAnswers) (irqnum : ℕ) (h : k.Holds rest bad) :
    (a.ok = false ∧ ∃ k', aipuCreateIrqObject a k irqnum = (none, k') ∧ k'.Holds rest bad) ∨
      (a.ok = true ∧ ∃ irqObj k', aipuCreateIrqObject a k irqnum = (some irqObj, k') ∧
        k'.Holds (irqObj.owned ++ (given (irqnum = 0) (.irqLine 0) ++ rest)) bad) := by
  obtain ⟨kzalloc, createWorkqueue, requestIrq⟩ := a
  unfold aipuCreateIrqObject
  cases kzalloc with
  | false => exact .inl ⟨rfl, k, rfl, h⟩
  | true =>
    have hobj := h.acquire .irqObject
    cases createWorkqueue with
    | false => exact .inl ⟨rfl, _, rfl, aipuDestroyIrqObject_holds hobj⟩
    | true =>
      have hwq := hobj.acquire .workqueue
      cases requestIrq with
      | false => exact .inl ⟨rfl, _, rfl, aipuDestroyIrqObject_holds hwq⟩
      | true =>
        refine .inr ⟨rfl, ⟨irqnum, true⟩, _, rfl, (hwq.acquire (.irqLine irqnum)).perm ?_⟩
        by_cases hnum : irqnum = 0
        · subst hnum
          exact (List.Perm.swap _ _ _).trans
            ((List.Perm.swap _ _ _).cons Resource.workqueue)
        · simp only [AipuIrqObject.owned, hnum, decide_false, given_false, ne_eq, not_false_eq_true,
            if_true, List.cons_append, List.nil_append]
          exact List.Perm.swap _ _ _

/-- A core is published. -/
def ProbeAnswers.coreMade (a : ProbeAnswers) (base : Window) : Prop :=
  base.size ≠ 0 ∧ a.core = true ∧ a.io.made base.size ∧ a.irq.ok = true

instance (a : ProbeAnswers) (base : Window) : Decidable (a.coreMade base) :=
  inferInstanceAs (Decidable (_ ∧ _ ∧ _ ∧ _))

/-- What `create_aipu_core` forgets: a window that could not be mapped, the line with number zero,
and the window of a core that has no interrupt. -/
def ProbeAnswers.coreLost (a : ProbeAnswers) (irqnum : ℕ) (base : Window) : List Resource :=
  if base.size ≠ 0 ∧ a.core = true ∧ a.io.made base.size then
    (if a.irq.ok then given (wrap 32 irqnum = 0) (.irqLine 0)
      else a.io.window base.start base.size) ++ a.io.lost base.start base.size
  else []

/-- `create_aipu_core` makes a core that accounts for all it has taken, save what it forgets. -/
theorem createAipuCore_holds (a : ProbeAnswers) (irqnum : ℕ) (base : Window)
    (h : k.Holds rest bad) :
    ∃ n ret core k', createAipuCore a k irqnum base = (ret, core, k') ∧
      (ret = 0 ↔ a.coreMade base) ∧
      (∀ c ∈ core, c.base0.kern = a.io.mapped ∧ a.irq.ok = true) ∧
      k'.Holds (core.elim [] AipuCore.owned ++
        (List.replicate n .devm ++ (a.coreLost irqnum base ++ rest))) bad := by
  unfold createAipuCore ProbeAnswers.coreMade ProbeAnswers.coreLost
  by_cases hsize : base.size = 0
  · rw [if_pos hsize]
    exact ⟨0, _, _, _, rfl, by simp [hsize, einval], by simp, by simpa [hsize]⟩
  rw [if_neg hsize]
  by_cases hcore : a.core = false
  · rw [if_pos hcore]
    exact ⟨0, _, _, _, rfl, by simp [hcore, enomem], by simp, by simpa [hcore]⟩
  rw [if_neg hcore]
  have hcore' : a.core = true := by simpa using hcore
  rcases aipuCreateIoregion_holds a.io base.start base.size (h.acquire .devm) with
    ⟨hmade, k₁, heq, h₁⟩ | ⟨hmade, region, k₁, heq, hkern, hwindow, h₁⟩
  · simp only [heq]
    exact ⟨1, _, _, _, rfl, by simp [hmade, efault], by simp, by simpa [hmade]⟩
  simp only [heq]
  rcases aipuCreateIrqObject_holds a.irq (wrap 32 irqnum) h₁ with
    ⟨hok, k₂, heq₂, h₂⟩ | ⟨hok, irqObj, k₂, heq₂, h₂⟩
  · simp only [heq₂]
    refine ⟨2, _, _, _, rfl, by simp [hok, efault], by simp, h₂.perm ?_⟩
    simp only [hsize, hcore', hmade, hok, hwindow, ne_eq, not_false_eq_true, and_self, if_true,
      Bool.false_eq_true, if_false, Option.elim_none, List.nil_append, List.perm_iff_count,
      List.replicate_succ, List.replicate_zero, List.count_append, List.count_cons, List.count_nil]
    intro x
    omega
  · simp only [heq₂]
    refine ⟨2, _, _, _, rfl, by simp [hsize, hcore', hmade, hok], by simp [hkern, hok],
      h₂.perm ?_⟩
    simp only [hsize, hcore', hmade, hok, AipuCore.owned, ne_eq, not_false_eq_true, and_self,
      if_true, Option.elim_some, List.perm_iff_count, List.replicate_succ, List.replicate_zero,
      List.count_append, List.count_cons, List.count_nil]
    intro x
    omega

/-! ## Making the queues, the SoC and a region of memory -/

/-- The queue heads that `aipu_init_job_manager` makes; they are never freed. -/
def ProbeAnswers.queueHeads (a : ProbeAnswers) (initDone : Bool) : List Resource :=
  if initDone then [] else given a.pendingHead .queueHead ++ given a.scheduledHead .queueHead

/-- `aipu_init_job_manager` takes nothing but the heads of the queues. -/
theorem initQueueHeads_holds (a : ProbeAnswers) (jm : QueueHeads) (h : k.Holds rest bad) :
    ∃ ret jm' k', initQueueHeads a k jm = (ret, jm', k') ∧
      (ret = 0 ↔ jm.initDone = true ∨ a.pendingHead = true ∧ a.scheduledHead = true) ∧
      k'.Holds (a.queueHeads jm.initDone ++ rest) bad := by
  unfold initQueueHeads ProbeAnswers.queueHeads
  cases hdone : jm.initDone with
  | true => exact ⟨_, _, _, rfl, by simp, h⟩
  | false =>
    have hheads := (h.acquireIf a.scheduledHead .queueHead).acquireIf a.pendingHead .queueHead
    rw [← List.append_assoc] at hheads
    simp only [Bool.false_eq_true, if_false, false_or]
    split_ifs with hfail
    · refine ⟨_, _, _, rfl, ?_, hheads⟩
      rcases hfail with hfail | hfail <;> simp [hfail, enomem]
    · exact ⟨_, _, _, rfl, by simpa using hfail, hheads⟩

/-- A SoC is published. -/
def ProbeAnswers.socMade (a : ProbeAnswers) (base : Window) :
    Prop := a.soc = true ∧ a.socIo.made base.size

instance (a : ProbeAnswers) (base : Window) : Decidable (a.socMade base) :=
  inferInstanceAs (Decidable (_ ∧ _))

/-- `create_aipu_soc` makes a region that accounts for its window, save one that is not mapped. -/
theorem createAipuSoc_holds (a : ProbeAnswers) (base : Window) (h : k.Holds rest bad) :
    ∃ n ret soc k', createAipuSoc a k base = (ret, soc, k') ∧ (ret = 0 ↔ a.socMade base) ∧
      k'.Holds (soc.elim [] IoRegion.owned ++ (List.replicate n .devm ++
        ((if a.socMade base then a.socIo.lost base.start base.size else []) ++ rest))) bad := by
  unfold createAipuSoc ProbeAnswers.socMade
  by_cases hsoc : a.soc = false
  · rw [if_pos hsoc]
    exact ⟨0, _, _, _, rfl, by simp [hsoc, enomem], by simpa [hsoc]⟩
  rw [if_neg hsoc]
  have hsoc' : a.soc = true := by simpa using hsoc
  rcases aipuCreateIoregion_holds a.socIo base.start base.size (h.acquire .devm) with
    ⟨hmade, k₁, heq, h₁⟩ | ⟨hmade, region, k₁, heq, -, -, h₁⟩
  · simp only [heq]
    exact ⟨1, _, _, _, rfl, by simp [hmade, efault], by simpa [hmade]⟩
  · simp only [heq]
    refine ⟨2, _, _, _, rfl, by simp [hsoc', hmade], h₁.perm ?_⟩
    simp only [hsoc', hmade, and_self, if_true, Option.elim_some, List.perm_iff_count,
      List.replicate_succ, List.replicate_zero, List.count_append, List.count_cons, List.count_nil]
    intro x
    omega

/-- The reserved memory is set up and mapped. -/
def RegionAnswers.mapped (a : RegionAnswers) : Bool :=
  a.reservedMem && a.setMask && a.setCoherentMask && a.dmaAlloc

/-- The region gets an address, and a block cannot be allocated. -/
def RegionAnswers.crashes (a : RegionAnswers) (w : Window) : Prop :=
  w.size ≠ 0 ∧ a.kzalloc = true ∧ a.mapped = true ∧ (a.sentinel = false ∨ a.block = false)

instance (a : RegionAnswers) (w : Window) : Decidable (a.crashes w) :=
  inferInstanceAs (Decidable (_ ∧ _ ∧ _ ∧ _))

/-- The region is added. -/
def RegionAnswers.added (a : RegionAnswers) (w : Window) (ddrHead : Bool) : Prop :=
  w.size ≠ 0 ∧ a.kzalloc = true ∧ a.mapped = true ∧ ddrHead = true

instance (a : RegionAnswers) (w : Window) (ddrHead : Bool) : Decidable (a.added w ddrHead) :=
  inferInstanceAs (Decidable (_ ∧ _ ∧ _ ∧ _))

/-- What a region that is not added forgets: the reserved memory when it cannot be mapped, and all
of it when there is no list to add it to. -/
def RegionAnswers.lost (a : RegionAnswers) (w : Window) (ddrHead : Bool) : List Resource :=
  if w.size ≠ 0 ∧ a.kzalloc = true then
    if a.mapped then
      if ddrHead then [] else [.block, .block, .dmaBuffer w.start w.size, .reservedMem]
    else given a.reservedMem .reservedMem
  else []

/-- `aipu_mm_add_region` for the reserved memory, with the regions as they were set up: it crashes,
or the regions account for all it has taken, save what a region that is not added forgets. -/
theorem addRegionResources_holds (a : RegionAnswers) (w : Window) (sramHead ddrHead : Bool)
    (h : k.Holds rest bad) :
    (a.crashes w ∧ addRegionResources a k ⟨sramHead, [], ddrHead, []⟩ w.start w.size .cma = none) ∨
      (¬a.crashes w ∧ ∃ n ret mm k',
        addRegionResources a k ⟨sramHead, [], ddrHead, []⟩ w.start w.size .cma =
          some (ret, mm, k') ∧
        (ret = 0 ↔ a.added w ddrHead) ∧
        mm = ⟨sramHead, [], ddrHead,
          if a.added w ddrHead then [⟨w.start, w.size, .cma, 2⟩] else []⟩ ∧
        k'.Holds (mm.owned ++ (List.replicate n .devm ++ (a.lost w ddrHead ++ rest))) bad) := by
  have hempty : RegionLists.owned ⟨sramHead, [], ddrHead, []⟩ = [] := by
    cases sramHead <;> cases ddrHead <;> rfl
  unfold addRegionResources RegionAnswers.crashes RegionAnswers.added RegionAnswers.lost
  by_cases hsize : w.size = 0
  · rw [if_pos hsize]
    exact .inr ⟨by simp [hsize], 0, _, _, _, rfl, by simp [hsize, einval], by simp [hsize],
      by simpa [hsize, hempty]⟩
  rw [if_neg hsize]
  by_cases hkz : a.kzalloc = false
  · rw [if_pos hkz]
    exact .inr ⟨by simp [hkz], 0, _, _, _, rfl, by simp [hkz, enomem], by simp [hkz],
      by simpa [hkz, hempty]⟩
  rw [if_neg hkz]
  have hkz' : a.kzalloc = true := by simpa using hkz
  -- the reserved memory is set up, and mapped or not
  have hcma : ∃ k₁, mapRegion a (k.acquire .devm) w.start w.size .cma = (a.mapped, k₁) ∧
      k₁.Holds ((if a.mapped then [.dmaBuffer w.start w.size, .reservedMem]
        else given a.reservedMem .reservedMem) ++ .devm :: rest) bad := by
    obtain ⟨kzalloc, memremap, reservedMem, setMask, setCoherentMask, dmaAlloc,
        sentinel, block⟩ := a
    have hdevm := h.acquire .devm
    unfold mapRegion aipuAllocCmaRegionNocache RegionAnswers.mapped
    cases reservedMem with
    | false => exact ⟨_, rfl, hdevm⟩
    | true =>
      have hres := hdevm.acquire .reservedMem
      cases setMask with
      | false => exact ⟨_, rfl, hres⟩
      | true =>
        cases setCoherentMask with
        | false => exact ⟨_, rfl, hres⟩
        | true =>
          cases dmaAlloc with
          | false => exact ⟨_, rfl, hres⟩
          | true => exact ⟨_, rfl, hres.acquire _⟩
  obtain ⟨k₁, hmap, h₁⟩ := hcma
  simp only [hmap]
  by_cases hmapped : a.mapped = true
  · rw [hmapped, if_pos rfl] at h₁
    by_cases hblocks : a.sentinel = false ∨ a.block = false
    · simp only [hmapped, if_pos hblocks]
      exact .inl ⟨by simp [hsize, hkz', hblocks], trivial⟩
    · refine .inr ⟨by tauto, ?_⟩
      have h₂ := (h₁.acquire .block).acquire .block
      simp only [hmapped, if_neg hblocks, reduceCtorEq, if_false]
      cases ddrHead with
      | false =>
        refine ⟨1, _, _, _, rfl, by simp [einval], by simp, h₂.perm ?_⟩
        simp only [hempty, hsize, hkz', ne_eq, not_false_eq_true, and_self, if_true,
          Bool.false_eq_true, if_false, List.nil_append, List.perm_iff_count, List.replicate_succ,
          List.replicate_zero, List.count_append, List.count_cons, List.count_nil]
        intro x
        omega
      | true =>
        refine ⟨1, _, _, _, rfl, by simp [hsize, hkz'], by simp [hsize, hkz'], h₂.perm ?_⟩
        simp only [RegionLists.owned, RegionResources.owned, hsize, hkz', ne_eq, not_false_eq_true,
          and_self, if_true, List.flatMap_nil, List.flatMap_cons,
          ite_self, List.perm_iff_count, List.replicate_succ, List.replicate_zero,
          List.count_append, List.count_cons, List.count_nil]
        intro x
        omega
  · rw [if_neg hmapped] at h₁
    have hmapped' : a.mapped = false := by simpa using hmapped
    simp only [hmapped']
    refine .inr ⟨by simp, 1, _, _, _, rfl, by simp [enomem], by simp, h₁.perm ?_⟩
    simp only [hempty, hsize, hkz', ne_eq, not_false_eq_true, and_self, if_true,
      Bool.false_eq_true, if_false, List.nil_append, List.perm_iff_count, List.replicate_succ,
      List.replicate_zero, List.count_append, List.count_cons, List.count_nil]
    intro x
    omega

end Functions

end Aipu
