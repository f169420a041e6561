import AipuDriver.Kmd.ProbeStages

/-!
# What the driver leaves behind

`aipu_remove` and the error path of `aipu_probe` give back almost everything.  What they forget is a
function of the answers of the kernel (`ProbeAnswers.leftBehind`): the two list heads of the memory
manager each time, an IO window that was claimed and could not be mapped or whose core was not
published, and a few more where an error path ends early.  The account is exact in every run of
probes and removes (`driver_leaves_behind`).  A window left claimed is refused to all later probes,
which succeed all the same and read zeros (`lost_window_deafens`).
-/

namespace Aipu

open ResourceLedger Transition Word

/-! ## Every run -/

/-- What an event leaves behind. -/
def LifeEvent.leftBehind (node : DeviceNode) : LifeEvent → List Resource
  | .probed a initDone _ => a.leftBehind node initDone
  | .removed => []

/-- A misc device was deregistered although its registration failed. -/
def LifeEvent.misused : LifeEvent → Bool
  | .probed a _ _ => a.miscMisused
  | .removed => false

/-- The answers of a probe after which the window of the registers stays claimed. -/
def ProbeAnswers.losesWindow (node : DeviceNode) (a : ProbeAnswers) : Prop :=
  a.miscOk ∧ node.irq.isSome = true ∧ a.core = true ∧ a.io.requestMemRegion = true ∧
    (a.io.ioremap = false ∨ a.irq.ok = false) ∧ ∃ io ∈ node.io, io.size ≠ 0 ∧ a.io.made io.size

/-- The invariant of a life: what is held is what will be given back and what was left behind. -/
structure LifeInv (debug : Bool) (node : DeviceNode) (tr : List LifeEvent) (d : DriverLife) :
    Prop where
  resting : d.bound = false → d.sysfsAipu = false ∧ d.drvdata = false ∧
    d.kernel.Holds (tr.flatMap (LifeEvent.leftBehind node))
      (List.replicate (tr.countP LifeEvent.misused) .misc)
  deaf : d.bound = true → d.drvdata = false →
    d.Down (tr.flatMap (LifeEvent.leftBehind node))
      (List.replicate (tr.countP LifeEvent.misused) .misc)
  up : d.drvdata = true → d.Up debug (tr.flatMap (LifeEvent.leftBehind node))
    (List.replicate (tr.countP LifeEvent.misused) .misc)
  window : ∀ a initDone ret, .probed a initDone ret ∈ tr → a.losesWindow node →
    d.drvdata = true → ∀ core ∈ d.priv.core0, core.base0.kern = false

section Runs

variable {debug : Bool} {node : DeviceNode} {tr : List LifeEvent} {d d' : DriverLife}

/-- What is left behind can stay, in every trace. -/
theorem flatMap_canStay (node : DeviceNode) (tr : List LifeEvent) :
    ∀ r ∈ tr.flatMap (LifeEvent.leftBehind node), r.canStay = true := by
  intro r hr
  obtain ⟨e, -, hr⟩ := List.mem_flatMap.mp hr
  cases e with
  | probed a initDone ret => exact a.leftBehind_canStay node initDone r hr
  | removed => cases hr

/-- Taking back the memory of the device leaves what stays. -/
theorem DriverLife.Down.unbind {left bad : List Resource} (h : d.Down left bad)
    (hleft : ∀ r ∈ left, r.canStay = true) : d.unbind.kernel.Holds left bad := by
  obtain ⟨n, hk⟩ := h.account
  have hdrop := hk.drop fun r => decide (r = .devm)
  rw [List.filter_append, List.filter_eq_nil_iff.mpr, List.filter_eq_self.mpr] at hdrop
  · exact hdrop
  · intro r hr
    have hne : r ≠ .devm := by
      rintro rfl
      exact absurd (hleft _ hr) (by decide)
    simp [hne]
  · intro r hr
    rw [List.eq_of_mem_replicate hr]
    decide

/-- What is left behind is held in every state. -/
theorem LifeInv.held (h : LifeInv debug node tr d) {r : Resource}
    (hr : r ∈ tr.flatMap (LifeEvent.leftBehind node)) : r ∈ d.kernel.held := by
  cases hb : d.bound with
  | false => exact (h.resting hb).2.2.held.mem_iff.mpr hr
  | true =>
    cases hd : d.drvdata with
    | false =>
      obtain ⟨n, hk⟩ := (h.deaf hb hd).account
      exact hk.held.mem_iff.mpr (List.mem_append_right _ hr)
    | true =>
      obtain ⟨n, sys, -, -, hk⟩ := (h.up hd).account
      exact hk.held.mem_iff.mpr (by simp only [List.mem_append, List.mem_cons]; tauto)

/-- A probe that loses the window leaves it claimed. -/
theorem ProbeAnswers.losesWindow_left {a : ProbeAnswers} (h : a.losesWindow node)
    (initDone : Bool) :
    ∃ io ∈ node.io, .ioClaim io.start (wrap 32 io.size) ∈ a.leftBehind node initDone ∧
      0 < wrap 32 io.size := by
  obtain ⟨hmisc, hirq, hcore, hrequest, hlost, io, hio, hsize, hmade⟩ := h
  obtain ⟨irq, hirq⟩ := Option.isSome_iff_exists.mp hirq
  have hio : node.io = some io := hio
  refine ⟨io, hio, ?_, Nat.pos_of_ne_zero hmade.1⟩
  have hclaim : .ioClaim io.start (wrap 32 io.size) ∈ a.coreLost irq io := by
    unfold ProbeAnswers.coreLost
    rw [if_pos ⟨hsize, hcore, hmade⟩]
    cases hmap : a.io.ioremap with
    | false => simp [IoAnswers.lost, hrequest, hmap]
    | true =>
      have hok : a.irq.ok = false := by simpa [hmap] using hlost
      simp [IoAnswers.window, IoAnswers.mapped, hrequest, hmap, hok]
  unfold ProbeAnswers.leftBehind ProbeAnswers.deviceLost
  rw [if_pos hmisc, hio, hirq]
  exact List.mem_append_right _ (List.mem_append_left _ hclaim)

/-- A window that stays claimed is refused to the next probe. -/
theorem LifeInv.refused (h : LifeInv debug node tr d) {a b : ProbeAnswers}
    {initDone : Bool} {ret : ℤ} (hmem : .probed a initDone ret ∈ tr) (hlost : a.losesWindow node)
    (hconsistent : b.consistent node d.kernel) : b.io.mapped = false := by
  obtain ⟨io, hio, hclaim, hpos⟩ := ProbeAnswers.losesWindow_left hlost initDone
  have hheld : .ioClaim io.start (wrap 32 io.size) ∈ d.kernel.held :=
    h.held (List.mem_flatMap.mpr ⟨_, hmem, hclaim⟩)
  cases hrequest : b.io.requestMemRegion with
  | false => simp [IoAnswers.mapped, hrequest]
  | true =>
    have hfree := hconsistent.1 hrequest io hio _ hheld
    simp [Resource.overlaps, hpos] at hfree

/-- A probe keeps the invariant. -/
theorem lifeInv_probe {a : ProbeAnswers} {es : List LifeEvent} (h : LifeInv debug node tr d)
    (hst : lifeStep debug node d (.probe a) = some (d', es)) :
    LifeInv debug node (tr ++ es) d' := by
  unfold lifeStep at hst
  obtain ⟨⟨hbound, hconsistent⟩, hst⟩ := Option.ite_none_right_eq_some.mp hst
  obtain ⟨hsysfs, hdrv, hk⟩ := h.resting hbound
  obtain ⟨⟨ret, d₁⟩, hprobe, heq⟩ := Option.map_eq_some_iff.mp hst
  obtain ⟨hd', rfl⟩ := Prod.mk.inj heq
  dsimp only at hd'
  rcases aipuProbe_ends debug node a hk hsysfs hdrv (flatMap_canStay node tr) with
    ⟨-, hnone⟩ | ⟨-, ret', d₂, hprobe', hends⟩
  · rw [hnone] at hprobe
    cases hprobe
  obtain ⟨rfl, rfl⟩ : ret = ret' ∧ d₁ = d₂ := by simpa [hprobe] using hprobe'
  -- the account after the probe, written as that of the longer trace
  obtain ⟨left, hleft⟩ : ∃ left, (tr ++ [LifeEvent.probed a d.priv.jobManager.initDone
    ret]).flatMap (LifeEvent.leftBehind node) = left := ⟨_, rfl⟩
  obtain ⟨bad, hbad⟩ : ∃ bad, List.replicate ((tr ++ [LifeEvent.probed a
    d.priv.jobManager.initDone ret]).countP LifeEvent.misused) Resource.misc = bad := ⟨_, rfl⟩
  have hperm : (a.leftBehind node d.priv.jobManager.initDone ++
      tr.flatMap (LifeEvent.leftBehind node)).Perm left := by
    rw [← hleft]
    simpa [LifeEvent.leftBehind] using List.perm_append_comm
  have hmisused : given a.miscMisused Resource.misc ++
      List.replicate (tr.countP LifeEvent.misused) .misc = bad := by
    rw [← hbad]
    cases hm : a.miscMisused <;>
      simp [LifeEvent.misused, hm, List.replicate_succ, List.countP_append]
  have hends := hends.perm hperm
  rw [hmisused] at hends
  have hcanStay : ∀ r ∈ left, r.canStay = true := hleft ▸ flatMap_canStay node _
  by_cases hzero : ret = 0
  · rw [if_pos hzero] at hd'
    subst hd'
    refine ⟨fun hb => (by cases hb), fun _ hd => ?_, fun hd => ?_, ?_⟩
    · rw [hleft, hbad]
      obtain ⟨hsysfs, hclosed, n, hk₁⟩ := hends.failed hd
      exact ⟨hsysfs, hclosed, n, hk₁⟩
    · rw [hleft, hbad]
      obtain ⟨-, hup, -⟩ := hends.bound hd
      exact ⟨hup.sysfs, hup.misc, hup.ddrHead, hup.account⟩
    · intro b initDone ret₀ hmem hlost hd core hcore
      obtain ⟨-, -, hkern⟩ := hends.bound hd
      obtain ⟨hk₁, hok⟩ := hkern core hcore
      rw [hk₁]
      rcases List.mem_append.mp hmem with hmem | hmem
      · exact h.refused hmem hlost hconsistent
      · obtain ⟨rfl, -, -⟩ : b = a ∧ initDone = d.priv.jobManager.initDone ∧ ret₀ = ret := by
          simpa using hmem
        obtain ⟨-, -, -, -, hmap | hirq, -⟩ := hlost
        · simp [IoAnswers.mapped, hmap]
        · rw [hirq] at hok
          cases hok
  · rw [if_neg hzero] at hd'
    subst hd'
    have hdown : d₁.drvdata = false := by
      cases hd : d₁.drvdata with
      | false => rfl
      | true => exact absurd (hends.bound hd).1 hzero
    have hfailed := hends.failed hdown
    refine ⟨fun _ => ⟨hfailed.sysfs, rfl, ?_⟩, fun hb => (by cases hb), fun hd => (by cases hd),
      fun _ _ _ _ _ hd => by cases hd⟩
    rw [hleft, hbad]
    exact hfailed.unbind hcanStay

/-- Once a window is lost, no register of a bound driver can be accessed. -/
theorem LifeInv.unmapped (h : LifeInv debug node tr d) {a : ProbeAnswers} {initDone : Bool}
    {ret : ℤ} (hmem : .probed a initDone ret ∈ tr) (hlost : a.losesWindow node)
    (hbound : d.bound = true) : ∀ core ∈ d.priv.core0, core.base0.kern = false := by
  cases hd : d.drvdata with
  | false => exact (h.deaf hbound hd).closed
  | true => exact h.window a initDone ret hmem hlost hd

/-- A step keeps the invariant. -/
theorem lifeInv_step {act : LifeAction} {es : List LifeEvent} (h : LifeInv debug node tr d)
    (hst : lifeStep debug node d act = some (d', es)) : LifeInv debug node (tr ++ es) d' := by
  cases act with
  | probe a => exact lifeInv_probe h hst
  | remove =>
    unfold lifeStep aipuRemove at hst
    obtain ⟨hbound, hst⟩ := Option.ite_none_right_eq_some.mp hst
    obtain ⟨d₁, hremove, heq⟩ := Option.map_eq_some_iff.mp hst
    obtain ⟨rfl, rfl⟩ := Prod.mk.inj heq
    have hdown : d₁.Down (tr.flatMap (LifeEvent.leftBehind node))
        (List.replicate (tr.countP LifeEvent.misused) .misc) := by
      cases hd : d.drvdata with
      | false =>
        obtain rfl : d = d₁ := by simpa [hd] using hremove
        exact h.deaf hbound hd
      | true =>
        rw [hd, if_pos rfl] at hremove
        obtain ⟨d₂, hdeinit, hdown, -⟩ := (h.up hd).deinit (flatMap_canStay node tr)
        obtain rfl : d₁ = d₂ := Option.some.inj (hremove.symm.trans hdeinit)
        exact hdown
    refine ⟨fun _ => ⟨hdown.sysfs, rfl, ?_⟩, fun hb => (by cases hb), fun hd => (by cases hd),
      fun _ _ _ _ _ hd => by cases hd⟩
    have hkernel := hdown.unbind (flatMap_canStay node tr)
    simpa [LifeEvent.leftBehind, LifeEvent.misused, List.countP_append, List.countP_cons]
      using hkernel
  | splitBlock =>
    unfold lifeStep at hst
    obtain ⟨⟨hdrv, hddr⟩, hst⟩ := Option.ite_none_right_eq_some.mp hst
    obtain ⟨rfl, rfl⟩ := Prod.mk.inj (Option.some.inj hst)
    rw [List.append_nil]
    have hup := h.up hdrv
    refine ⟨fun hb => ?_, fun _ hd => ?_, fun _ => ?_, h.window⟩
    · exact absurd ((h.resting hb).2.1) (by simp [hdrv])
    · exact absurd hd (by simp [hdrv])
    · obtain ⟨n, sys, hsys, hnone, hk⟩ := hup.account
      refine ⟨hup.sysfs, hup.misc, fun _ => hup.ddrHead hddr, n, sys, hsys, hnone, ?_⟩
      refine (hk.acquire .block).perm ?_
      have hsplit := RegionLists.owned_split hddr (hup.ddrHead hddr)
      have howned : AipuPriv.owned { d.priv with mm := d.priv.mm.setBlocks (· + 1) } =
          d.priv.owned := rfl
      dsimp only
      rw [howned]
      simp only [List.perm_iff_count, List.count_append, List.count_cons] at hsplit ⊢
      intro x
      have := hsplit x
      omega
  | mergeBlock =>
    unfold lifeStep at hst
    obtain ⟨⟨hdrv, hblocks⟩, hst⟩ := Option.ite_none_right_eq_some.mp hst
    obtain ⟨rfl, rfl⟩ := Prod.mk.inj (Option.some.inj hst)
    rw [List.append_nil]
    have hup := h.up hdrv
    refine ⟨fun hb => ?_, fun _ hd => ?_, fun _ => ?_, h.window⟩
    · exact absurd ((h.resting hb).2.1) (by simp [hdrv])
    · exact absurd hd (by simp [hdrv])
    · obtain ⟨n, sys, hsys, hnone, hk⟩ := hup.account
      have hddr : d.priv.mm.ddr ≠ [] := by
        obtain ⟨region, hregion, -⟩ := hblocks
        intro hnil
        rw [hnil] at hregion
        cases hregion
      refine ⟨hup.sysfs, hup.misc, fun _ => hup.ddrHead hddr, n, sys, hsys, hnone, ?_⟩
      apply Ledger.Holds.release
      refine hk.perm ?_
      have hmerge := RegionLists.owned_merge hup.ddrHead hblocks
      have howned : AipuPriv.owned { d.priv with mm := d.priv.mm.setBlocks (· - 1) } =
          d.priv.owned := rfl
      dsimp only
      rw [howned]
      simp only [List.perm_iff_count, List.count_append, List.count_cons] at hmerge ⊢
      intro x
      have := hmerge x
      omega

/-- The invariant holds of every run. -/
theorem lifeSystem_inv (h : (lifeSystem debug node).Run anyStep tr d) :
    LifeInv debug node tr d := by
  refine h.invariant ?_ ?_
  · rintro d rfl
    exact ⟨fun _ => ⟨rfl, rfl, .refl _, rfl⟩, fun hb => (by cases hb), fun hd => (by cases hd),
      fun _ _ _ _ _ hd => by cases hd⟩
  · intro tr d act d' es hI _ hst
    exact lifeInv_step hI hst

end Runs

/-! ## Main results -/

/-- When the kernel grants everything, a probe leaves the two list heads behind, and the first one
the two queue heads. -/
theorem leftBehind_of_granted {node : DeviceNode} {a : ProbeAnswers} {io w : Window} {irq : ℕ}
    {initDone : Bool} (hio : node.io = some io) (hirq : node.irq = some irq)
    (hmemory : node.memoryRegion = some (some w)) (hnum : wrap 32 irq ≠ 0)
    (hheads : a.ddrHead = true ∧ a.sramHead = true) (hmisc : a.miscOk) (hcore : a.coreMade io)
    (hmapped : a.io.mapped = true) (hqueues : a.pendingHead = true ∧ a.scheduledHead = true)
    (hsoc : node.socIo = none) (hregion : a.region.added w true) :
    a.leftBehind node initDone = [.regionHead, .regionHead] ++
      if initDone then [] else [.queueHead, .queueHead] := by
  have hmade : a.queuesMade initDone := .inr hqueues
  have hpassed : a.socPassed node.soc := .inl (by simp [DeviceNode.soc, hsoc])
  have hsocLost : a.socLost node.soc = [] := by simp [ProbeAnswers.socLost, DeviceNode.soc, hsoc]
  have hmem : a.memoryLost node = [] := by
    simp [ProbeAnswers.memoryLost, hmemory, hheads.1, hregion]
  have hcoreLost : a.coreLost irq io = [] := by
    have hremap : a.io.ioremap = true := by
      simp only [IoAnswers.mapped, Bool.and_eq_true] at hmapped
      exact hmapped.2
    simp [ProbeAnswers.coreLost, IoAnswers.lost, hcore.1, hcore.2.1, hcore.2.2.1, hcore.2.2.2, hnum,
      hremap]
  unfold ProbeAnswers.leftBehind ProbeAnswers.listHeads ProbeAnswers.deviceLost
    ProbeAnswers.queueHeads
  rw [if_pos hmisc, hio, hirq]
  simp only [hcoreLost, if_pos hcore, if_pos hmade, if_pos hpassed, hsocLost, hmem, hheads.1,
    hheads.2, hqueues.1, hqueues.2, given_true]
  cases initDone <;> rfl

/-- **What the driver leaves behind.**  In every run of probes and removes, with any answers of the
kernel: while the driver is not bound, what is held is exactly what the probes left behind, each
as a function of its answers; nothing was given back that was not held, but for a misc device
whose registration had failed; a remove comes to its end; and a probe comes to its end unless the
misc device fails in a debug build or a block of the region cannot be allocated. -/
theorem driver_leaves_behind {debug : Bool} {node : DeviceNode} {tr : List LifeEvent}
    {d : DriverLife} (h : (lifeSystem debug node).Run anyStep tr d) :
    (d.bound = false →
      d.kernel.held.Perm (tr.flatMap (LifeEvent.leftBehind node)) ∧
      d.kernel.misused = List.replicate (tr.countP LifeEvent.misused) .misc ∧
      ∀ a : ProbeAnswers, a.consistent node d.kernel → (lifeStep debug node d (.probe a) = none ↔
        a.crashes debug node d.priv.jobManager.initDone)) ∧
    (∀ r ∈ tr.flatMap (LifeEvent.leftBehind node), r.canStay = true ∧ r ∈ d.kernel.held) ∧
    (d.bound = true → ∃ d', lifeStep debug node d .remove = some (d', [.removed])) := by
  have hI := lifeSystem_inv h
  refine ⟨fun hbound => ?_, fun r hr => ⟨flatMap_canStay node tr r hr, hI.held hr⟩,
    fun hbound => ?_⟩
  · obtain ⟨hsysfs, hdrv, hk⟩ := hI.resting hbound
    refine ⟨hk.held, hk.misused, fun a hconsistent => ?_⟩
    rcases aipuProbe_ends debug node a hk hsysfs hdrv (flatMap_canStay node tr) with
      ⟨hcrash, hnone⟩ | ⟨hcrash, ret, d', hprobe, -⟩
    · simp [lifeStep, hbound, hconsistent, hnone, hcrash]
    · simp [lifeStep, hbound, hconsistent, hprobe, hcrash]
  · cases hd : d.drvdata with
    | false => exact ⟨d.unbind, by simp [lifeStep, hbound, aipuRemove, hd]⟩
    | true =>
      obtain ⟨d', hdeinit, -, -⟩ := (hI.up hd).deinit (flatMap_canStay node tr)
      exact ⟨d'.unbind, by simp [lifeStep, hbound, aipuRemove, hd, hdeinit]⟩

/-- A device with registers, an interrupt and a reserved memory. -/
def sampleNode : DeviceNode :=
  { io := some ⟨0x64000000, 0x10000⟩, irq := some 168, socIo := none
    memoryRegion := some (some ⟨0x100000, 0x8000⟩) }

/-- The kernel grants everything. -/
def grantedAnswers : ProbeAnswers :=
  { sramHead := true, ddrHead := true, misc := true, miscRegister := 0, sysfs := fun _ => true
    core := true, io := ⟨true, true, true⟩, irq := ⟨true, true, true⟩, scheduledHead := true
    pendingHead := true, soc := true, socIo := ⟨true, true, true⟩
    region := ⟨true, true, true, true, true, true, true, true⟩ }

/-- The driver before its first probe. -/
def sampleLife : DriverLife :=
  { kernel := ⟨[], []⟩
    priv := ⟨none, none, false, ⟨false, [], false, []⟩, ⟨false, false, false⟩⟩
    sysfsAipu := false, drvdata := false, bound := false }

/-- A probe whose interrupt fails, and a probe and a remove after it. -/
theorem driver_leaves_behind_sample :
    ∃ tr d, (lifeSystem true sampleNode).Run anyStep tr d ∧ d.bound = false ∧
      d.kernel.held = [.queueHead, .queueHead, .regionHead, .regionHead,
        .ioMapping 0x64000000 0x10000, .ioClaim 0x64000000 0x10000, .regionHead, .regionHead] ∧
      d.kernel.held.Perm (tr.flatMap (LifeEvent.leftBehind sampleNode)) := by
  have hexec : ∃ d es, (lifeSystem true sampleNode).exec anyStep sampleLife
      [.probe { grantedAnswers with irq := ⟨true, true, false⟩ },
        .probe { grantedAnswers with io := ⟨true, false, true⟩ }, .splitBlock, .remove] =
        some (d, es) ∧ d.bound = false ∧
      d.kernel.held = [.queueHead, .queueHead, .regionHead, .regionHead,
        .ioMapping 0x64000000 0x10000, .ioClaim 0x64000000 0x10000, .regionHead, .regionHead] :=
    ⟨_, _, rfl, rfl, by decide⟩
  obtain ⟨d, es, hexec, hbound, hheld⟩ := hexec
  have hrun : (lifeSystem true sampleNode).Run anyStep es d := System.run_of_exec rfl hexec
  exact ⟨es, d, hrun, hbound, hheld, ((driver_leaves_behind hrun).1 hbound).1⟩

/-- **A lost window deafens the driver.**  After a probe whose window of registers was claimed and
then not mapped, or whose interrupt failed, the window stays claimed for good.  Whenever the driver
is bound from then on, by that probe or by a later one, every register reads as zero and every
write to a register is lost; this includes a driver bound by a probe that took its error path and
still returned zero. -/
theorem lost_window_deafens {debug : Bool} {node : DeviceNode} {tr : List LifeEvent}
    {d : DriverLife} (h : (lifeSystem debug node).Run anyStep tr d) {a : ProbeAnswers}
    {initDone : Bool} {ret : ℤ} (hmem : .probed a initDone ret ∈ tr) (hlost : a.losesWindow node) :
    (∃ io ∈ node.io, .ioClaim io.start (wrap 32 io.size) ∈ d.kernel.held) ∧
      (d.bound = true → ∀ core ∈ d.priv.core0, ∀ regs offset data,
        aipuRead32 core.base0 regs offset = 0 ∧
          aipuWrite32 core.base0 regs offset data = regs) := by
  have hI := lifeSystem_inv h
  obtain ⟨io, hio, hclaim, -⟩ := ProbeAnswers.losesWindow_left hlost initDone
  refine ⟨⟨io, hio, hI.held (List.mem_flatMap.mpr ⟨_, hmem, hclaim⟩)⟩, fun hbound core hcore => ?_⟩
  have hkern := hI.unmapped hmem hlost hbound core hcore
  intro regs offset data
  simp [aipuRead32, aipuWrite32, hkern]

/-- The interrupt fails in the first probe, and the second one binds a deaf driver. -/
theorem lost_window_deafens_sample :
    ∃ tr d, (lifeSystem false sampleNode).Run anyStep tr d ∧ d.bound = true ∧
      ∃ core ∈ d.priv.core0, ∀ regs, aipuRead32 core.base0 regs 4 = 0 := by
  have hexec : ∃ d es, (lifeSystem false sampleNode).exec anyStep sampleLife
      [.probe { grantedAnswers with irq := ⟨true, true, false⟩ },
        .probe { grantedAnswers with io := ⟨true, false, true⟩ }] = some (d, es) ∧
      es.head? = some (.probed { grantedAnswers with irq := ⟨true, true, false⟩ } false (-14)) ∧
      d.bound = true ∧ ∃ core, d.priv.core0 = some core := ⟨_, _, rfl, rfl, rfl, _, rfl⟩
  obtain ⟨d, es, hexec, hfirst, hbound, core, hcore⟩ := hexec
  have hrun : (lifeSystem false sampleNode).Run anyStep es d := System.run_of_exec rfl hexec
  have hlost : ProbeAnswers.losesWindow sampleNode
      { grantedAnswers with irq := ⟨true, true, false⟩ } :=
    ⟨⟨rfl, rfl⟩, rfl, rfl, rfl, .inr rfl, _, rfl, by decide, by decide⟩
  have hdeaf := (lost_window_deafens hrun (List.mem_of_head? hfirst) hlost).2 hbound core hcore
  exact ⟨es, d, hrun, hbound, core, hcore, fun regs => (hdeaf regs 4 0).1⟩

end Aipu
