import AipuDriver.Kmd.ProbeAccount

/-!
# The stages of a probe

`DriverLife.Up` is the driver between `init_aipu_priv` and `deinit_aipu_priv`: it holds what it will
give back and, beside that, what will be left.  Every stage of a probe keeps the driver up and adds
to what will be left, or takes it down (`ProbeEnds`); `aipuProbe_ends` puts the stages together,
with the answers on which a null pointer is dereferenced (`ProbeAnswers.crashes`).
-/

namespace Aipu

open ResourceLedger Word

/-! ## The driver up and down -/

/-- The kinds of resources that are ever left behind. -/
def Resource.canStay : Resource → Bool
  | .regionHead | .ioClaim _ _ | .ioMapping _ _ | .queueHead | .nodeRef | .reservedMem
  | .dmaBuffer _ _ | .block => true
  | .irqLine irqnum => irqnum = 0
  | .devm | .misc | .sysfs _ | .irqObject | .workqueue | .remap _ _ => false

/-- The driver after `init_aipu_priv`, with what will be left of it. -/
structure DriverLife.Up (debug : Bool) (d : DriverLife) (left bad : List Resource) : Prop where
  sysfs : d.sysfsAipu = debug
  misc : d.priv.misc = true
  ddrHead : d.priv.mm.ddr ≠ [] → d.priv.mm.ddrHead = true
  account : ∃ n sys, (∀ r ∈ sys, Resource.isSysfs r = true) ∧ (debug = false → sys = []) ∧
    d.kernel.Holds (sys ++ (d.priv.mm.owned ++ .misc ::
      (d.priv.owned ++ (List.replicate n .devm ++ left)))) bad

/-- The driver after `deinit_aipu_priv`, with what is left of it. -/
structure DriverLife.Down (d : DriverLife) (left bad : List Resource) : Prop where
  sysfs : d.sysfsAipu = false
  closed : ∀ core ∈ d.priv.core0, core.base0.kern = false
  account : ∃ n, d.kernel.Holds (List.replicate n .devm ++ left) bad

section Life

variable {debug : Bool} {d : DriverLife} {left bad : List Resource}

/-- What the regions hold are no attributes. -/
theorem RegionLists.owned_isSysfs (mm : RegionLists) : ∀ r ∈ mm.owned, r.isSysfs = false := by
  have hregion : ∀ region : RegionResources, ∀ r ∈ region.owned, r.isSysfs = false := by
    rintro ⟨pa, totBytes, type, blocks⟩ r hr
    rcases List.mem_append.mp hr with hr | hr
    · rw [List.eq_of_mem_replicate hr]
      rfl
    · cases type <;> simp at hr
      · rw [hr]; rfl
      · rcases hr with rfl | rfl <;> rfl
      · rw [hr]; rfl
  have hlist : ∀ l : List RegionResources, ∀ r ∈ l.flatMap RegionResources.owned,
      r.isSysfs = false := by
    intro l r hr
    obtain ⟨region, -, hr⟩ := List.mem_flatMap.mp hr
    exact hregion region r hr
  intro r hr
  unfold RegionLists.owned at hr
  rcases List.mem_append.mp hr with hr | hr
  · split_ifs at hr
    · exact hlist _ r hr
    · cases hr
  · split_ifs at hr
    · exact hlist _ r hr
    · cases hr

/-- What an IO region holds is no attribute. -/
theorem IoRegion.owned_isSysfs (region : IoRegion) : ∀ r ∈ region.owned, r.isSysfs = false := by
  intro r hr
  unfold IoRegion.owned at hr
  split_ifs at hr
  · simp only [List.mem_cons, List.not_mem_nil, or_false] at hr
    rcases hr with rfl | rfl <;> rfl
  · cases hr

/-- What the core and the SoC hold are no attributes. -/
theorem AipuPriv.owned_isSysfs (p : AipuPriv) : ∀ r ∈ p.owned, r.isSysfs = false := by
  intro r hr
  unfold AipuPriv.owned at hr
  rcases List.mem_append.mp hr with hr | hr
  · cases hs : p.soc with
    | none => simp [hs] at hr
    | some region =>
      rw [hs] at hr
      exact region.owned_isSysfs r hr
  · cases hc : p.core0 with
    | none => simp [hc] at hr
    | some core =>
      rw [hc] at hr
      rcases List.mem_append.mp hr with hr | hr
      · exact core.base0.owned_isSysfs r hr
      · unfold AipuIrqObject.owned at hr
        simp only [List.mem_append, List.mem_singleton] at hr
        rcases hr with hr | hr | rfl
        · split_ifs at hr <;> simp_all [Resource.isSysfs]
        · split_ifs at hr <;> simp_all [Resource.isSysfs]
        · rfl

/-- What can stay is no attribute. -/
theorem Resource.isSysfs_of_canStay {r : Resource} (h : r.canStay = true) : r.isSysfs = false := by
  cases r <;> first | rfl | cases h

/-- A driver that is up can always be taken down, and leaves behind what is to be left. -/
theorem DriverLife.Up.deinit (h : d.Up debug left bad) (hleft : ∀ r ∈ left, r.canStay = true) :
    ∃ d', deinitAipuPriv debug d = some d' ∧ d'.Down left bad ∧ d'.drvdata = d.drvdata := by
  obtain ⟨n, sys, hsys, hnone, hk⟩ := h.account
  have hrest : ∀ r ∈ d.priv.mm.owned ++ .misc :: (d.priv.owned ++
      (List.replicate n .devm ++ left)), r.isSysfs = false := by
    intro r hr
    simp only [List.mem_append, List.mem_cons] at hr
    rcases hr with hr | rfl | hr | hr | hr
    · exact d.priv.mm.owned_isSysfs r hr
    · rfl
    · exact d.priv.owned_isSysfs r hr
    · rw [List.eq_of_mem_replicate hr]
      rfl
    · exact Resource.isSysfs_of_canStay (hleft r hr)
  obtain ⟨d', hdeinit, hholds, hsysfs, hdrv, hclosed⟩ :=
    deinitAipuPriv_holds h.sysfs h.misc hk hsys hnone hrest
  exact ⟨d', hdeinit, ⟨hsysfs, hclosed, n, hholds⟩, hdrv⟩

/-- What is to be left may be written in another order. -/
theorem DriverLife.Up.perm {left' : List Resource} (h : d.Up debug left bad)
    (hp : left.Perm left') : d.Up debug left' bad := by
  obtain ⟨n, sys, hsys, hnone, hk⟩ := h.account
  refine ⟨h.sysfs, h.misc, h.ddrHead, n, sys, hsys, hnone, hk.perm ?_⟩
  exact .append_left _ (.append_left _ (.cons _ (.append_left _ (.append_left _ hp))))

/-! ## The stages of a probe -/

/-- The end of a probe: the driver is bound with its data, or taken down. -/
structure ProbeEnds (debug : Bool) (a : ProbeAnswers) (left bad : List Resource) (ret : ℤ)
    (d : DriverLife) : Prop where
  bound : d.drvdata = true → ret = 0 ∧ d.Up debug left bad ∧
    ∀ core ∈ d.priv.core0, core.base0.kern = a.io.mapped ∧ a.irq.ok = true
  failed : d.drvdata = false → d.Down left bad

/-- What is to be left may be written in another order. -/
theorem ProbeEnds.perm {a : ProbeAnswers} {ret : ℤ} {left' : List Resource}
    (h : ProbeEnds debug a left bad ret d) (hp : left.Perm left') :
    ProbeEnds debug a left' bad ret d := by
  refine ⟨fun hd => ?_, fun hd => ?_⟩
  · obtain ⟨hret, hup, hkern⟩ := h.bound hd
    exact ⟨hret, hup.perm hp, hkern⟩
  · obtain ⟨hsysfs, hclosed, n, hk⟩ := h.failed hd
    exact ⟨hsysfs, hclosed, n, hk.perm (.append_left _ hp)⟩

/-- A probe that fails takes the driver down. -/
theorem probeFail_ends {a : ProbeAnswers} (ret : ℤ) (h : d.Up debug left bad)
    (hleft : ∀ r ∈ left, r.canStay = true) (hdrv : d.drvdata = false) :
    ∃ ret' d', probeFail debug ret d = some (ret', d') ∧ ProbeEnds debug a left bad ret' d' := by
  obtain ⟨d', hdeinit, hdown, hsame⟩ := h.deinit hleft
  refine ⟨ret, d', by simp [probeFail, hdeinit], fun hd => ?_, fun _ => hdown⟩
  rw [hsame, hdrv] at hd
  cases hd

/-- What the last stage leaves behind: the reference to the node of the memory, when the region is
not added, and what the region forgets. -/
def ProbeAnswers.memoryLost (node : DeviceNode) (a : ProbeAnswers) : List Resource :=
  match node.memoryRegion with
  | none => []
  | some none => [.nodeRef]
  | some (some w) =>
    if a.region.added w a.ddrHead then [] else .nodeRef :: a.region.lost w a.ddrHead

/-- The last stage runs into a block that cannot be allocated. -/
def ProbeAnswers.memoryCrashes (node : DeviceNode) (a : ProbeAnswers) : Prop :=
  match node.memoryRegion with
  | some (some w) => a.region.crashes w
  | _ => False

instance (node : DeviceNode) (a : ProbeAnswers) : Decidable (a.memoryCrashes node) := by
  unfold ProbeAnswers.memoryCrashes
  split <;> infer_instance

/-- What a region forgets can stay. -/
theorem RegionAnswers.lost_canStay (a : RegionAnswers) (w : Window) (ddrHead : Bool) :
    ∀ r ∈ a.lost w ddrHead, r.canStay = true := by
  intro r hr
  unfold RegionAnswers.lost given at hr
  split_ifs at hr <;> simp at hr
  · rcases hr with rfl | rfl | rfl <;> rfl
  · rw [hr]
    rfl

/-- The last stage. -/
theorem probeMemory_ends (node : DeviceNode) (a : ProbeAnswers) (h : d.Up debug left bad)
    (hleft : ∀ r ∈ left, r.canStay = true) (hdrv : d.drvdata = false)
    (hmm : d.priv.mm = ⟨a.sramHead, [], a.ddrHead, []⟩)
    (hcore : ∀ core ∈ d.priv.core0, core.base0.kern = a.io.mapped ∧ a.irq.ok = true) :
    (a.memoryCrashes node ∧ probeMemory debug node a d = none) ∨
      (¬a.memoryCrashes node ∧ ∃ ret d', probeMemory debug node a d = some (ret, d') ∧
        ProbeEnds debug a (a.memoryLost node ++ left) bad ret d') := by
  unfold ProbeAnswers.memoryCrashes probeMemory ProbeAnswers.memoryLost
  cases hnode : node.memoryRegion with
  | none => exact .inr ⟨not_false, probeFail_ends _ h hleft hdrv⟩
  | some addr =>
    have hstay : ∀ r ∈ Resource.nodeRef :: left, r.canStay = true := by
      simpa [Resource.canStay] using hleft
    -- the reference is taken
    have href : DriverLife.Up debug { d with kernel := d.kernel.acquire .nodeRef }
        (.nodeRef :: left) bad := by
      obtain ⟨n, sys, hsys, hnone, hk⟩ := h.account
      refine ⟨h.sysfs, h.misc, h.ddrHead, n, sys, hsys, hnone, (hk.acquire .nodeRef).perm ?_⟩
      simp only [List.perm_iff_count, List.count_append, List.count_cons]
      intro x
      omega
    cases addr with
    | none => exact .inr ⟨not_false, probeFail_ends 0 href hstay hdrv⟩
    | some w =>
      obtain ⟨n, sys, hsys, hnone, hk⟩ := href.account
      dsimp only at hk ⊢
      unfold aipuPrivAddMemRegion
      rw [hmm] at hk ⊢
      rcases addRegionResources_holds a.region w a.sramHead a.ddrHead hk with
        ⟨hcrash, hadd⟩ | ⟨hcrash, m, ret, mm, k', hadd, hret, hregions, hk'⟩
      · exact .inl ⟨hcrash, by simp [hadd]⟩
      refine .inr ⟨hcrash, ?_⟩
      have hempty : RegionLists.owned ⟨a.sramHead, [], a.ddrHead, []⟩ = [] := by
        cases a.sramHead <;> cases a.ddrHead <;> rfl
      have hup : DriverLife.Up debug { d with
          kernel := k'
          priv := { d.priv with mm := mm } }
            (.nodeRef :: (a.region.lost w a.ddrHead ++ left)) bad := by
        have howned : AipuPriv.owned { d.priv with mm := mm } = d.priv.owned := rfl
        refine ⟨h.sysfs, h.misc, ?_, n + m, sys, hsys, hnone, hk'.perm ?_⟩
        · intro hne
          by_cases hadded : a.region.added w a.ddrHead
          · rw [hregions]
            exact hadded.2.2.2
          · simp [hregions, hadded] at hne
        · dsimp only
          rw [howned]
          simp only [hempty, List.nil_append, List.replicate_add, List.perm_iff_count,
            List.count_append, List.count_cons]
          intro x
          omega
      simp only [hadd, Option.map_some]
      by_cases hzero : ret = 0
      · have hadded : a.region.added w a.ddrHead := hret.mp hzero
        have hlost : a.region.lost w a.ddrHead = [] := by
          simp [RegionAnswers.lost, hadded.1, hadded.2.1, hadded.2.2.1, hadded.2.2.2]
        rw [if_neg (by simpa using hzero), if_pos hadded]
        refine ⟨_, _, rfl, fun _ => ⟨rfl, ?_, hcore⟩, fun hfalse => by cases hfalse⟩
        obtain ⟨n', sys', hsys', hnone', hk''⟩ := hup.account
        refine ⟨h.sysfs, h.misc, hup.ddrHead, n', sys', hsys', hnone', ?_⟩
        apply Ledger.Holds.release
        refine hk''.perm ?_
        simp only [hlost, List.nil_append, List.perm_iff_count, List.count_append, List.count_cons]
        intro x
        omega
      · have hadded : ¬a.region.added w a.ddrHead := fun hadded => hzero (hret.mpr hadded)
        rw [if_pos hzero, if_neg hadded]
        refine probeFail_ends ret hup ?_ hdrv
        intro r hr
        rcases List.mem_cons.mp hr with rfl | hr
        · rfl
        rcases List.mem_append.mp hr with hr | hr
        · exact a.region.lost_canStay w a.ddrHead r hr
        · exact hleft r hr

/-- The queues are there. -/
def ProbeAnswers.queuesMade (a : ProbeAnswers) (initDone : Bool) : Prop :=
  initDone = true ∨ a.pendingHead = true ∧ a.scheduledHead = true

instance (a : ProbeAnswers) (initDone : Bool) : Decidable (a.queuesMade initDone) :=
  inferInstanceAs (Decidable (_ ∨ _ ∧ _))

/-- `aipu_priv_init_core` leaves the driver up, with what the core forgets and the queue heads left
over. -/
theorem aipuPrivInitCore_up (a : ProbeAnswers) (irqnum : ℕ) (base : Window)
    (h : d.Up debug left bad) (hcore : d.priv.core0 = none) :
    ∃ ret d', aipuPrivInitCore a d irqnum base = (ret, d') ∧
      (ret = 0 ↔ a.coreMade base ∧ a.queuesMade d.priv.jobManager.initDone) ∧
      d'.Up debug (a.coreLost irqnum base ++ ((if a.coreMade base then
        a.queueHeads d.priv.jobManager.initDone else []) ++ left)) bad ∧
      d'.drvdata = d.drvdata ∧ d'.priv.mm = d.priv.mm ∧ d'.priv.soc = d.priv.soc ∧
      ∀ core ∈ d'.priv.core0, core.base0.kern = a.io.mapped ∧ a.irq.ok = true := by
  obtain ⟨n, sys, hsys, hnone, hk⟩ := h.account
  obtain ⟨m, ret, core, k₁, hcreate, hret, hkern, hk₁⟩ :=
    createAipuCore_holds a irqnum base hk
  have howned : d.priv.owned = d.priv.soc.elim [] IoRegion.owned := by
    simp [AipuPriv.owned, hcore]
  have howned' : ∀ jm, AipuPriv.owned { d.priv with core0 := core, jobManager := jm } =
      d.priv.soc.elim [] IoRegion.owned ++ core.elim [] AipuCore.owned := fun _ => rfl
  unfold aipuPrivInitCore
  rw [hcreate]
  dsimp only
  by_cases hmade : a.coreMade base
  · have hzero : ret = 0 := hret.mpr hmade
    obtain ⟨ret₂, jm, k₂, hinit, hret₂, hk₂⟩ :=
      initQueueHeads_holds a d.priv.jobManager hk₁
    rw [if_neg (by simpa using hzero), hinit]
    refine ⟨_, _, rfl, by simpa [hmade, ProbeAnswers.queuesMade] using hret₂, ?_, rfl,
      rfl, rfl, hkern⟩
    refine ⟨h.sysfs, h.misc, h.ddrHead, n + m, sys, hsys, hnone, hk₂.perm ?_⟩
    dsimp only
    rw [howned', howned, if_pos hmade]
    simp only [List.replicate_add, List.perm_iff_count, List.count_append, List.count_cons]
    intro x
    omega
  · have hzero : ret ≠ 0 := fun hzero => hmade (hret.mp hzero)
    rw [if_pos hzero]
    refine ⟨_, _, rfl, by simp [hmade, hzero], ?_, rfl, rfl, rfl, hkern⟩
    refine ⟨h.sysfs, h.misc, h.ddrHead, n + m, sys, hsys, hnone, hk₁.perm ?_⟩
    have howned'' : AipuPriv.owned { d.priv with core0 := core } =
        d.priv.soc.elim [] IoRegion.owned ++ core.elim [] AipuCore.owned := rfl
    dsimp only
    rw [howned'', howned, if_neg hmade]
    simp only [List.replicate_add, List.nil_append, List.perm_iff_count, List.count_append,
      List.count_cons]
    intro x
    omega

/-- The SoC of the device, of size zero when it has none. -/
def DeviceNode.soc (node : DeviceNode) : Window := node.socIo.getD ⟨0, 0⟩

/-- The SoC is there, or not needed. -/
def ProbeAnswers.socPassed (a : ProbeAnswers) (base : Window) :
    Prop := base.size = 0 ∨ a.socMade base

instance (a : ProbeAnswers) (base : Window) : Decidable (a.socPassed base) :=
  inferInstanceAs (Decidable (_ ∨ _))

/-- What `create_aipu_soc` forgets. -/
def ProbeAnswers.socLost (a : ProbeAnswers) (base : Window) : List Resource :=
  if base.size ≠ 0 ∧ a.socMade base then a.socIo.lost base.start base.size else []

/-- `aipu_priv_init_soc` leaves the driver up, with what the SoC forgets left over. -/
theorem aipuPrivInitSoc_up (a : ProbeAnswers) (base : Window) (h : d.Up debug left bad)
    (hsoc : d.priv.soc = none) :
    ∃ ret d', aipuPrivInitSoc a d base = (ret, d') ∧ (ret = 0 ↔ a.socPassed base) ∧
      d'.Up debug (a.socLost base ++ left) bad ∧ d'.drvdata = d.drvdata ∧
      d'.priv.mm = d.priv.mm ∧ d'.priv.core0 = d.priv.core0 := by
  unfold aipuPrivInitSoc ProbeAnswers.socPassed ProbeAnswers.socLost
  by_cases hsize : base.size = 0
  · rw [if_pos hsize]
    exact ⟨_, _, rfl, by simp [hsize], by simpa [hsize] using h, rfl, rfl, rfl⟩
  rw [if_neg hsize]
  obtain ⟨n, sys, hsys, hnone, hk⟩ := h.account
  obtain ⟨m, ret, soc, k₁, hcreate, hret, hk₁⟩ := createAipuSoc_holds a base hk
  rw [hcreate]
  refine ⟨_, _, rfl, by simpa [hsize] using hret, ?_, rfl, rfl, rfl⟩
  have howned : d.priv.owned = d.priv.core0.elim [] AipuCore.owned := by
    simp [AipuPriv.owned, hsoc]
  have howned' : AipuPriv.owned { d.priv with soc := soc } =
      soc.elim [] IoRegion.owned ++ d.priv.core0.elim [] AipuCore.owned := rfl
  refine ⟨h.sysfs, h.misc, h.ddrHead, n + m, sys, hsys, hnone, hk₁.perm ?_⟩
  dsimp only
  rw [howned', howned]
  simp only [hsize, ne_eq, not_false_eq_true, true_and, List.replicate_add, List.perm_iff_count,
    List.count_append, List.count_cons]
  intro x
  omega

/-- What the stages after `init_aipu_priv` leave behind. -/
def ProbeAnswers.deviceLost (node : DeviceNode) (a : ProbeAnswers) (initDone : Bool) :
    List Resource :=
  match node.io, node.irq with
  | some io, some irq =>
    a.coreLost irq io ++ if a.coreMade io then
      a.queueHeads initDone ++ if a.queuesMade initDone then
        a.socLost node.soc ++ if a.socPassed node.soc then a.memoryLost node else []
      else []
    else []
  | _, _ => []

/-- The probe comes to its last stage. -/
def ProbeAnswers.reachesMemory (node : DeviceNode) (a : ProbeAnswers) (initDone : Bool) : Prop :=
  (∃ io ∈ node.io, a.coreMade io) ∧ node.irq.isSome = true ∧ a.queuesMade initDone ∧
    a.socPassed node.soc

instance (node : DeviceNode) (a : ProbeAnswers) (initDone : Bool) :
    Decidable (a.reachesMemory node initDone) :=
  inferInstanceAs (Decidable (_ ∧ _ ∧ _ ∧ _))

/-- What the core stage forgets can stay. -/
theorem ProbeAnswers.coreLost_canStay (a : ProbeAnswers) (irqnum : ℕ) (base : Window) :
    ∀ r ∈ a.coreLost irqnum base, r.canStay = true := by
  intro r hr
  unfold ProbeAnswers.coreLost IoAnswers.window IoAnswers.lost given at hr
  split_ifs at hr <;> simp_all [Resource.canStay] <;> aesop

/-- The queue heads can stay. -/
theorem ProbeAnswers.queueHeads_canStay (a : ProbeAnswers) (initDone : Bool) :
    ∀ r ∈ a.queueHeads initDone, r.canStay = true := by
  intro r hr
  unfold ProbeAnswers.queueHeads given at hr
  split_ifs at hr <;> simp_all [Resource.canStay]

/-- What the SoC stage forgets can stay. -/
theorem ProbeAnswers.socLost_canStay (a : ProbeAnswers) (base : Window) :
    ∀ r ∈ a.socLost base, r.canStay = true := by
  intro r hr
  unfold ProbeAnswers.socLost IoAnswers.lost given at hr
  split_ifs at hr <;> simp_all [Resource.canStay]

/-- The stages after `init_aipu_priv`. -/
theorem probeCore_ends (node : DeviceNode) (a : ProbeAnswers) (h : d.Up debug left bad)
    (hleft : ∀ r ∈ left, r.canStay = true) (hdrv : d.drvdata = false)
    (hmm : d.priv.mm = ⟨a.sramHead, [], a.ddrHead, []⟩) (hcore : d.priv.core0 = none)
    (hsoc : d.priv.soc = none) :
    (a.reachesMemory node d.priv.jobManager.initDone ∧ a.memoryCrashes node ∧
        probeCore debug node a d = none) ∨
      (¬(a.reachesMemory node d.priv.jobManager.initDone ∧ a.memoryCrashes node) ∧
        ∃ ret d', probeCore debug node a d = some (ret, d') ∧
          ProbeEnds debug a (a.deviceLost node d.priv.jobManager.initDone ++ left) bad ret d') := by
  unfold probeCore ProbeAnswers.deviceLost ProbeAnswers.reachesMemory
  cases hio : node.io with
  | none => exact .inr ⟨by simp, probeFail_ends _ h hleft hdrv⟩
  | some io =>
  cases hirq : node.irq with
  | none => exact .inr ⟨by simp, probeFail_ends _ h hleft hdrv⟩
  | some irq =>
  obtain ⟨ret, d₁, hinit, hret, hup, hdrv₁, hmm₁, hsoc₁, hkern⟩ :=
    aipuPrivInitCore_up a irq io h hcore
  have hstay₁ : ∀ r ∈ a.coreLost irq io ++ ((if a.coreMade io then
      a.queueHeads d.priv.jobManager.initDone else []) ++ left), r.canStay = true := by
    intro r hr
    simp only [List.mem_append] at hr
    rcases hr with hr | hr | hr
    · exact a.coreLost_canStay irq io r hr
    · split_ifs at hr
      · exact a.queueHeads_canStay _ r hr
      · cases hr
    · exact hleft r hr
  simp only [hinit]
  by_cases hzero : ret = 0
  · obtain ⟨hmade, hqueues⟩ := hret.mp hzero
    rw [if_pos hmade] at hup hstay₁
    obtain ⟨ret₂, d₂, hinit₂, hret₂, hup₂, hdrv₂, hmm₂, hcore₂⟩ :=
      aipuPrivInitSoc_up a node.soc hup (hsoc₁.trans hsoc)
    have hstay₂ : ∀ r ∈ a.socLost node.soc ++ (a.coreLost irq io ++
        (a.queueHeads d.priv.jobManager.initDone ++ left)), r.canStay = true := by
      intro r hr
      rcases List.mem_append.mp hr with hr | hr
      · exact a.socLost_canStay node.soc r hr
      · exact hstay₁ r hr
    have hinit₂' : aipuPrivInitSoc a d₁ (node.socIo.getD ⟨0, 0⟩) = (ret₂, d₂) := hinit₂
    simp only [hzero, ne_eq, not_true_eq_false, if_false, hinit₂', if_pos hmade, if_pos hqueues]
    by_cases hzero₂ : ret₂ = 0
    · have hpassed := hret₂.mp hzero₂
      simp only [hzero₂, not_true_eq_false, if_false, if_pos hpassed]
      rcases probeMemory_ends node a hup₂ hstay₂ (hdrv₂.trans (hdrv₁.trans hdrv))
        (hmm₂.trans (hmm₁.trans hmm)) (hcore₂ ▸ hkern) with
        ⟨hcrash, hnone⟩ | ⟨hcrash, ret₃, d₃, hprobe, hends⟩
      · exact .inl ⟨by simp [hmade, hqueues, hpassed], hcrash, hnone⟩
      · refine .inr ⟨fun hboth => hcrash hboth.2, ret₃, d₃, hprobe, hends.perm ?_⟩
        simp only [List.perm_iff_count, List.count_append]
        intro x
        omega
    · have hpassed : ¬a.socPassed node.soc := fun hpassed => hzero₂ (hret₂.mpr hpassed)
      simp only [hzero₂, not_false_eq_true, if_true, if_neg hpassed]
      obtain ⟨ret₃, d₃, hfail, hends⟩ :=
        probeFail_ends (a := a) ret₂ hup₂ hstay₂ (hdrv₂.trans (hdrv₁.trans hdrv))
      refine .inr ⟨by simp [hpassed], ret₃, d₃, hfail, hends.perm ?_⟩
      simp only [List.perm_iff_count, List.count_append, List.append_nil]
      intro x
      omega
  · have hnot : ¬(a.coreMade io ∧ a.queuesMade d.priv.jobManager.initDone) :=
      fun hboth => hzero (hret.mpr hboth)
    simp only [hzero, ne_eq, not_false_eq_true, if_true]
    obtain ⟨ret₃, d₃, hfail, hends⟩ :=
      probeFail_ends (a := a) ret hup hstay₁ (hdrv₁.trans hdrv)
    refine .inr ⟨?_, ret₃, d₃, hfail, hends.perm ?_⟩
    · rintro ⟨⟨⟨io', hio', hmade⟩, -, hqueues, -⟩, -⟩
      obtain rfl : io = io' := by simpa using hio'
      exact hnot ⟨hmade, hqueues⟩
    · by_cases hmade : a.coreMade io
      · have hqueues : ¬a.queuesMade d.priv.jobManager.initDone := fun hq => hnot ⟨hmade, hq⟩
        simp only [if_pos hmade, if_neg hqueues, List.perm_iff_count, List.count_append,
          List.append_nil]
        intro x
        omega
      · simp [if_neg hmade]

/-- The two list heads that `aipu_deinit_mm` forgets. -/
def ProbeAnswers.listHeads (a : ProbeAnswers) : List Resource :=
  given a.ddrHead .regionHead ++ given a.sramHead .regionHead

/-- The misc device is registered. -/
def ProbeAnswers.miscOk (a : ProbeAnswers) : Prop := a.misc = true ∧ a.miscRegister = 0

instance (a : ProbeAnswers) : Decidable a.miscOk := inferInstanceAs (Decidable (_ ∧ _))

/-- The misc device is deregistered although its registration failed. -/
def ProbeAnswers.miscMisused (a : ProbeAnswers) : Bool := a.misc && a.miscRegister ≠ 0

/-- The attributes that are made. -/
theorem aipuCreateSysfs_holds {k : Ledger Resource} {rest : List Resource} (a : ProbeAnswers)
    (h : k.Holds rest bad) :
    ∃ sys, (∀ r ∈ sys, Resource.isSysfs r = true) ∧
      (aipuCreateSysfs a k).Holds (sys ++ rest) bad := by
  refine ⟨given (a.sysfs .job) (.sysfs .job) ++ (given (a.sysfs .extRegister)
    (.sysfs .extRegister) ++ given (a.sysfs .kmdVersion) (.sysfs .kmdVersion)), ?_, ?_⟩
  · intro r hr
    unfold given at hr
    simp only [List.mem_append] at hr
    rcases hr with hr | hr | hr <;> split_ifs at hr <;> simp_all [Resource.isSysfs]
  · have hall := ((h.acquireIf (a.sysfs .kmdVersion) (.sysfs .kmdVersion)).acquireIf
      (a.sysfs .extRegister) (.sysfs .extRegister)).acquireIf (a.sysfs .job) (.sysfs .job)
    simpa only [aipuCreateSysfs, List.append_assoc] using hall

/-- `init_aipu_priv` of a driver that is not bound, when the misc device is registered. -/
theorem initAipuPriv_up (debug : Bool) (a : ProbeAnswers) (hk : d.kernel.Holds left bad)
    (hsysfs : d.sysfsAipu = false) (hmisc : a.miscOk) :
    ∃ d', initAipuPriv debug a d = some (0, d') ∧ d'.Up debug (a.listHeads ++ left) bad ∧
      d'.drvdata = d.drvdata ∧ d'.priv.mm = ⟨a.sramHead, [], a.ddrHead, []⟩ ∧
      d'.priv.core0 = none ∧ d'.priv.soc = none ∧ d'.priv.jobManager = d.priv.jobManager := by
  obtain ⟨hmisc, hregister⟩ := hmisc
  have hheads := (hk.acquireIf a.sramHead .regionHead).acquireIf a.ddrHead .regionHead
  have hdevice := (hheads.acquire .devm).acquire .misc
  have hempty : RegionLists.owned ⟨a.sramHead, [], a.ddrHead, []⟩ = [] := by
    cases a.sramHead <;> cases a.ddrHead <;> rfl
  -- what is held before the attributes are made
  have hbase : ((((d.kernel.acquireIf a.sramHead .regionHead).acquireIf a.ddrHead
      .regionHead).acquire .devm).acquire .misc).Holds (RegionLists.owned ⟨a.sramHead, [],
        a.ddrHead, []⟩ ++ .misc :: ([] ++ (List.replicate 1 .devm ++ (a.listHeads ++ left))))
        bad := by
    rw [hempty]
    simpa [ProbeAnswers.listHeads, List.append_assoc] using hdevice
  unfold initAipuPriv initRegionLists initMiscDev
  simp only [hmisc, hregister, Bool.true_eq_false, if_false, if_true, ne_eq, not_true_eq_false]
  cases debug with
  | false =>
    exact ⟨_, rfl, ⟨hsysfs, rfl, by simp, 1, [], by simp, by simp, hbase⟩, rfl, rfl, rfl, rfl, rfl⟩
  | true =>
    obtain ⟨sys, hsys, hall⟩ := aipuCreateSysfs_holds a hbase
    exact ⟨_, rfl, ⟨rfl, rfl, by simp, 1, sys, hsys, by simp, hall⟩, rfl, rfl, rfl, rfl, rfl⟩

/-- What can stay is no misc device. -/
theorem Resource.ne_misc_of_canStay {r : Resource} (h : r.canStay = true) : r ≠ .misc := by
  rintro rfl
  cases h

/-- The list heads can stay. -/
theorem ProbeAnswers.listHeads_canStay (a : ProbeAnswers) :
    ∀ r ∈ a.listHeads, r.canStay = true := by
  intro r hr
  unfold ProbeAnswers.listHeads given at hr
  rcases List.mem_append.mp hr with hr | hr <;> split_ifs at hr <;> simp_all [Resource.canStay]

/-- `init_aipu_priv` of a driver that is not bound, when the misc device is not registered. -/
theorem initAipuPriv_down (debug : Bool) (a : ProbeAnswers) (hk : d.kernel.Holds left bad)
    (hsysfs : d.sysfsAipu = false) (hdrv : d.drvdata = false)
    (hleft : ∀ r ∈ left, r.canStay = true) (hmisc : ¬a.miscOk) :
    (debug = true ∧ initAipuPriv debug a d = none) ∨
      (debug = false ∧ ∃ ret d', initAipuPriv debug a d = some (ret, d') ∧ ret ≠ 0 ∧
        d'.drvdata = false ∧
        d'.Down (a.listHeads ++ left) (given a.miscMisused .misc ++ bad)) := by
  have hheads := (hk.acquireIf a.sramHead .regionHead).acquireIf a.ddrHead .regionHead
  rw [← List.append_assoc] at hheads
  have hstay : ∀ r ∈ a.listHeads ++ left, r.canStay = true := by
    intro r hr
    rcases List.mem_append.mp hr with hr | hr
    · exact a.listHeads_canStay r hr
    · exact hleft r hr
  cases debug with
  | true =>
    refine .inl ⟨rfl, ?_⟩
    unfold initAipuPriv initRegionLists initMiscDev
    by_cases halloc : a.misc = false
    · simp [halloc, enomem, deinitAipuPriv, hsysfs]
    · have hregister : a.miscRegister ≠ 0 := fun h0 => hmisc ⟨by simpa using halloc, h0⟩
      simp [halloc, hregister, deinitAipuPriv, hsysfs]
  | false =>
    refine .inr ⟨rfl, ?_⟩
    by_cases halloc : a.misc = false
    · obtain ⟨d', hinit, hd₁, hd₂, hcore, hkernel⟩ : ∃ d', initAipuPriv false a d =
          some (-enomem, d') ∧ d'.sysfsAipu = false ∧ d'.drvdata = d.drvdata ∧
          d'.priv.core0 = none ∧ d'.kernel =
            (d.kernel.acquireIf a.sramHead .regionHead).acquireIf a.ddrHead .regionHead := by
        simp [initAipuPriv, initRegionLists, initMiscDev, halloc, enomem, deinitAipuPriv,
          aipuDeinitMm, destroyPart]
      have hmisused : a.miscMisused = false := by simp [ProbeAnswers.miscMisused, halloc]
      rw [hmisused]
      refine ⟨-enomem, d', hinit, by decide, hd₂.trans hdrv, hd₁, by simp [hcore], 0, ?_⟩
      rw [hkernel]
      exact hheads
    · have hregister : a.miscRegister ≠ 0 := fun h0 => hmisc ⟨by simpa using halloc, h0⟩
      have hmisused : a.miscMisused = true := by
        simp [ProbeAnswers.miscMisused, hregister, (by simpa using halloc : a.misc = true)]
      obtain ⟨d', hinit, hd₁, hd₂, hcore, hkernel⟩ : ∃ d', initAipuPriv false a d =
          some (a.miscRegister, d') ∧ d'.sysfsAipu = false ∧ d'.drvdata = d.drvdata ∧
          d'.priv.core0 = none ∧ d'.kernel = (((d.kernel.acquireIf a.sramHead
            .regionHead).acquireIf a.ddrHead .regionHead).acquire .devm).release .misc := by
        simp [initAipuPriv, initRegionLists, initMiscDev, halloc, hregister, deinitAipuPriv,
          aipuDeinitMm, destroyPart]
      have hnot : Resource.misc ∉ Resource.devm :: (a.listHeads ++ left) := by
        intro hmem
        rcases List.mem_cons.mp hmem with hmem | hmem
        · cases hmem
        · exact Resource.ne_misc_of_canStay (hstay _ hmem) rfl
      rw [hmisused]
      refine ⟨a.miscRegister, d', hinit, hregister, hd₂.trans hdrv, hd₁, by simp [hcore], 1, ?_⟩
      rw [hkernel]
      exact (hheads.acquire .devm).misuse hnot

/-- What a probe leaves behind, as a function of the answers of the kernel and of whether the
queues had been made before. -/
def ProbeAnswers.leftBehind (node : DeviceNode) (a : ProbeAnswers) (initDone : Bool) :
    List Resource :=
  a.listHeads ++ if a.miscOk then a.deviceLost node initDone else []

/-- The answers on which a probe dereferences a null pointer. -/
def ProbeAnswers.crashes (debug : Bool) (node : DeviceNode) (a : ProbeAnswers)
    (initDone : Bool) : Prop :=
  if a.miscOk then a.reachesMemory node initDone ∧ a.memoryCrashes node else debug = true

/-- A probe of a driver that is not bound. -/
theorem aipuProbe_ends (debug : Bool) (node : DeviceNode) (a : ProbeAnswers)
    (hk : d.kernel.Holds left bad) (hsysfs : d.sysfsAipu = false) (hdrv : d.drvdata = false)
    (hleft : ∀ r ∈ left, r.canStay = true) :
    (a.crashes debug node d.priv.jobManager.initDone ∧ aipuProbe debug node a d = none) ∨
      (¬a.crashes debug node d.priv.jobManager.initDone ∧
        ∃ ret d', aipuProbe debug node a d = some (ret, d') ∧
          ProbeEnds debug a (a.leftBehind node d.priv.jobManager.initDone ++ left)
            (given a.miscMisused .misc ++ bad) ret d') := by
  unfold ProbeAnswers.crashes ProbeAnswers.leftBehind aipuProbe
  by_cases hmisc : a.miscOk
  · obtain ⟨d₁, hinit, hup, hdrv₁, hmm, hcore, hsoc, hjm⟩ := initAipuPriv_up debug a hk hsysfs hmisc
    have hmisused : a.miscMisused = false := by simp [ProbeAnswers.miscMisused, hmisc.2]
    have hstay : ∀ r ∈ a.listHeads ++ left, r.canStay = true := by
      intro r hr
      rcases List.mem_append.mp hr with hr | hr
      · exact a.listHeads_canStay r hr
      · exact hleft r hr
    simp only [hinit, if_pos hmisc, hmisused, given_false, List.nil_append, ne_eq,
      not_true_eq_false, if_false, ← hjm]
    rcases probeCore_ends node a hup hstay (hdrv₁.trans hdrv) hmm hcore hsoc with
      ⟨hreach, hcrash, hnone⟩ | ⟨hnot, ret, d₂, hprobe, hends⟩
    · exact .inl ⟨⟨hreach, hcrash⟩, hnone⟩
    · refine .inr ⟨hnot, ret, d₂, hprobe, hends.perm ?_⟩
      simp only [List.perm_iff_count, List.count_append]
      intro x
      omega
  · simp only [if_neg hmisc, List.append_nil]
    rcases initAipuPriv_down debug a hk hsysfs hdrv hleft hmisc with
      ⟨hdebug, hnone⟩ | ⟨hdebug, ret, d₁, hinit, hret, hdrv₁, hdown⟩
    · exact .inl ⟨hdebug, by rw [hnone]⟩
    · simp only [hinit, if_pos hret]
      refine .inr ⟨by simp [hdebug], ret, d₁, rfl, fun hd => ?_, fun _ => hdown⟩
      rw [hdrv₁] at hd
      cases hd

/-- What a probe leaves behind can stay. -/
theorem ProbeAnswers.leftBehind_canStay (node : DeviceNode) (a : ProbeAnswers) (initDone : Bool) :
    ∀ r ∈ a.leftBehind node initDone, r.canStay = true := by
  have hmemory : ∀ r ∈ a.memoryLost node, r.canStay = true := by
    intro r hr
    unfold ProbeAnswers.memoryLost at hr
    split at hr
    · cases hr
    · rw [List.mem_singleton.mp hr]
      rfl
    next w _ =>
      split_ifs at hr
      · cases hr
      rcases List.mem_cons.mp hr with rfl | hr
      · rfl
      · exact a.region.lost_canStay w a.ddrHead r hr
  have hdevice : ∀ r ∈ a.deviceLost node initDone, r.canStay = true := by
    intro r hr
    unfold ProbeAnswers.deviceLost at hr
    split at hr
    next io irq _ _ =>
      rcases List.mem_append.mp hr with hr | hr
      · exact a.coreLost_canStay irq io r hr
      split_ifs at hr
      · rcases List.mem_append.mp hr with hr | hr
        · exact a.queueHeads_canStay initDone r hr
        rcases List.mem_append.mp hr with hr | hr
        · exact a.socLost_canStay node.soc r hr
        · exact hmemory r hr
      · rcases List.mem_append.mp hr with hr | hr
        · exact a.queueHeads_canStay initDone r hr
        · simp only [List.append_nil] at hr
          exact a.socLost_canStay node.soc r hr
      · simp only [List.append_nil] at hr
        exact a.queueHeads_canStay initDone r hr
      · cases hr
    · cases hr
  intro r hr
  rcases List.mem_append.mp hr with hr | hr
  · exact a.listHeads_canStay r hr
  · split_ifs at hr
    · exact hdevice r hr
    · cases hr

/-! ## The blocks of the region while the driver is bound -/

/-- One block more in the first region. -/
theorem RegionLists.owned_split {mm : RegionLists} (hddr : mm.ddr ≠ [])
    (hhead : mm.ddrHead = true) : (mm.setBlocks (· + 1)).owned.Perm (.block :: mm.owned) := by
  obtain ⟨sramHead, sram, ddrHead, ddr⟩ := mm
  obtain _ | ⟨⟨pa, totBytes, type, blocks⟩, ddr⟩ := ddr
  · exact absurd rfl hddr
  obtain rfl : ddrHead = true := hhead
  simp only [setBlocks, owned, RegionResources.owned, List.modifyHead_cons, if_true,
    List.flatMap_cons, List.replicate_succ, List.perm_iff_count, List.count_append,
    List.count_cons]
  intro x
  omega

/-- One block less in the first region. -/
theorem RegionLists.owned_merge {mm : RegionLists} (hhead : mm.ddr ≠ [] → mm.ddrHead = true)
    (hblocks : ∃ region ∈ mm.ddr.head?, 2 < region.blocks) :
    mm.owned.Perm (.block :: (mm.setBlocks (· - 1)).owned) := by
  obtain ⟨sramHead, sram, ddrHead, ddr⟩ := mm
  obtain ⟨region, hregion, hlt⟩ := hblocks
  obtain _ | ⟨⟨pa, totBytes, type, blocks⟩, ddr⟩ := ddr
  · cases hregion
  obtain rfl : _ = region := Option.some.inj hregion
  obtain rfl : ddrHead = true := hhead (by simp)
  obtain ⟨m, rfl⟩ : ∃ m, blocks = m + 1 := ⟨blocks - 1, by dsimp only at hlt; omega⟩
  simp only [setBlocks, owned, RegionResources.owned, List.modifyHead_cons, if_true,
    List.flatMap_cons, List.replicate_succ, Nat.add_sub_cancel, List.perm_iff_count,
    List.count_append, List.count_cons]
  intro x
  omega

end Life

end Aipu
