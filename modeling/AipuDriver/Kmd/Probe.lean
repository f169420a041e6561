import AipuDriver.Lib.Ledger
import AipuDriver.Lib.Transition
import AipuDriver.Lib.Word
import AipuDriver.Kmd.Interface

/-!
# The life of the driver (`aipu_platform_driver.c`, `aipu.c`, `aipu_core.c`, `aipu_io.c`)

The driver core calls `aipu_probe` to bind the driver to the device and `aipu_remove` to unbind it,
any number of times.  `struct aipu_priv` is static, so it keeps its contents between the calls. What
the driver gets from the kernel and gives back is written down in a `Ledger`; the answers of the
kernel during one probe are a record `ProbeAnswers` with a field for each call that can fail.
Memory of `devm_kzalloc` is taken back by the driver core after a failed probe and after a remove.

A result is `none` where the source dereferences a null pointer.  SRAM is not configured and the
platform is the default one, as elsewhere; `debug` is `BUILD_DEBUG_VERSION`, which enables sysfs.
-/

namespace Aipu

open ResourceLedger Transition Word

/-! ## Resources and answers -/

/-- The attributes of `aipu_sysfs.c` on the default platform. -/
inductive SysfsAttr
  | kmdVersion
  | extRegister
  | job
deriving DecidableEq, Repr

/-- What the kernel hands out to the driver. -/
inductive Resource
  /-- an object of `create_region_list_head` -/
  | regionHead
  /-- memory of `devm_kzalloc` -/
  | devm
  /-- the registered misc device -/
  | misc
  | sysfs (attr : SysfsAttr)
  /-- a window of `request_mem_region` -/
  | ioClaim (phys size : ℕ)
  /-- a window of `ioremap_nocache` -/
  | ioMapping (phys size : ℕ)
  | irqObject
  | workqueue
  | irqLine (irqnum : ℕ)
  /-- an object of `create_aipu_job` -/
  | queueHead
  /-- a reference of `of_parse_phandle` -/
  | nodeRef
  /-- a window of `memremap` -/
  | remap (base bytes : ℕ)
  /-- the reserved memory of `of_reserved_mem_device_init_by_idx` -/
  | reservedMem
  /-- memory of `dma_alloc_coherent` -/
  | dmaBuffer (base bytes : ℕ)
  /-- an object of `create_block` -/
  | block
deriving DecidableEq, Repr

/-- The answers in `aipu_create_ioregion`. -/
structure IoAnswers where
  kzalloc : Bool
  requestMemRegion : Bool
  ioremap : Bool
deriving DecidableEq, Repr

/-- The answers in `aipu_create_irq_object`. -/
structure IrqAnswers where
  kzalloc : Bool
  createWorkqueue : Bool
  requestIrq : Bool
deriving DecidableEq, Repr

/-- The answers in `aipu_mm_add_region`. -/
structure RegionAnswers where
  kzalloc : Bool
  memremap : Bool
  reservedMem : Bool
  setMask : Bool
  setCoherentMask : Bool
  dmaAlloc : Bool
  sentinel : Bool
  block : Bool
deriving DecidableEq, Repr

/-- The answers of the kernel during one probe; `miscRegister` is the code of `misc_register`. -/
structure ProbeAnswers where
  sramHead : Bool
  ddrHead : Bool
  misc : Bool
  miscRegister : ℤ
  sysfs : SysfsAttr → Bool
  core : Bool
  io : IoAnswers
  irq : IrqAnswers
  scheduledHead : Bool
  pendingHead : Bool
  soc : Bool
  socIo : IoAnswers
  region : RegionAnswers

/-- A resource of the device: where it starts and how long it is. -/
structure Window where
  start : ℕ
  size : ℕ
deriving DecidableEq, Repr

/-- What the device tree says of the device.  `memoryRegion` is the node of the phandle, if it is
there, and its address, if it can be read. -/
structure DeviceNode where
  io : Option Window
  irq : Option ℕ
  socIo : Option Window
  memoryRegion : Option (Option Window)

/-! ## IO regions and interrupts -/

/-- `struct io_region`; `kern` tells whether the address is there. -/
structure IoRegion where
  phys : ℕ
  kern : Bool
  size : ℕ
deriving DecidableEq, Repr

/-- `aipu_create_ioregion`, with the truncated size.  Where the window is refused or cannot be
mapped, the zeroed region is returned. -/
def aipuCreateIoregion (a : IoAnswers) (k : Ledger Resource) (physBase size : ℕ) :
    Option IoRegion × Ledger Resource :=
  if wrap 32 size = 0 then (none, k)
  else if a.kzalloc = false then (none, k)
  else
    let k := k.acquire .devm
    if a.requestMemRegion = false then (some ⟨0, false, 0⟩, k)
    else
      let k := k.acquire (.ioClaim physBase (wrap 32 size))
      if a.ioremap = false then (some ⟨0, false, 0⟩, k)
      else (some ⟨physBase, true, wrap 32 size⟩, k.acquire (.ioMapping physBase (wrap 32 size)))

/-- `aipu_destroy_ioregion`, which clears the region. -/
def aipuDestroyIoregion (region : IoRegion) (k : Ledger Resource) : IoRegion × Ledger Resource :=
  if region.kern then
    let k := k.release (.ioMapping region.phys region.size)
    (⟨0, false, 0⟩, k.release (.ioClaim region.phys region.size))
  else (region, k)

/-- `aipu_read32`, where the registers of the device hold `regs`. -/
def aipuRead32 (region : IoRegion) (regs : ℕ → ℕ) (offset : ℕ) : ℕ :=
  if region.kern ∧ offset < region.size then regs offset else 0

/-- `aipu_write32` -/
def aipuWrite32 (region : IoRegion) (regs : ℕ → ℕ) (offset data : ℕ) : ℕ → ℕ :=
  if region.kern ∧ offset < region.size then Function.update regs offset (wrap 32 data) else regs

/-- `struct aipu_irq_object`; `aipuWq` tells whether the work queue is there. -/
structure AipuIrqObject where
  irqnum : ℕ
  aipuWq : Bool
deriving DecidableEq, Repr

/-- `aipu_destroy_irq_object` -/
def aipuDestroyIrqObject (irqObj : AipuIrqObject) (k : Ledger Resource) : Ledger Resource :=
  let k := if irqObj.aipuWq then k.release .workqueue else k
  let k := if irqObj.irqnum ≠ 0 then k.release (.irqLine irqObj.irqnum) else k
  k.release .irqObject

/-- `aipu_create_irq_object` -/
def aipuCreateIrqObject (a : IrqAnswers) (k : Ledger Resource) (irqnum : ℕ) :
    Option AipuIrqObject × Ledger Resource :=
  if a.kzalloc = false then (none, k)
  else
    let k := k.acquire .irqObject
    if a.createWorkqueue = false then (none, aipuDestroyIrqObject ⟨0, false⟩ k)
    else
      let k := k.acquire .workqueue
      if a.requestIrq = false then (none, aipuDestroyIrqObject ⟨0, true⟩ k)
      else (some ⟨irqnum, true⟩, k.acquire (.irqLine irqnum))

/-! ## The core and the SoC -/

/-- `struct aipu_core`, which is published only with both parts. -/
structure AipuCore where
  base0 : IoRegion
  irqObj : AipuIrqObject
deriving DecidableEq, Repr

/-- `create_aipu_core` for a known hardware version. -/
def createAipuCore (a : ProbeAnswers) (k : Ledger Resource) (irqnum : ℕ) (base : Window) :
    ℤ × Option AipuCore × Ledger Resource :=
  if base.size = 0 then (-einval, none, k)
  else if a.core = false then (-enomem, none, k)
  else
    let k := k.acquire .devm
    match aipuCreateIoregion a.io k base.start base.size with
    | (none, k) => (-efault, none, k)
    | (some base0, k) =>
      match aipuCreateIrqObject a.irq k (wrap 32 irqnum) with
      | (none, k) => (-efault, none, k)
      | (some irqObj, k) => (0, some ⟨base0, irqObj⟩, k)

/-- `destroy_aipu_core`; the pointer to the freed interrupt object stays. -/
def destroyAipuCore (core : AipuCore) (k : Ledger Resource) : AipuCore × Ledger Resource :=
  let (base0, k) := aipuDestroyIoregion core.base0 k
  ({ core with base0 := base0 }, aipuDestroyIrqObject core.irqObj k)

/-- `create_aipu_soc`, which is called with a size only. -/
def createAipuSoc (a : ProbeAnswers) (k : Ledger Resource) (base : Window) :
    ℤ × Option IoRegion × Ledger Resource :=
  if a.soc = false then (-enomem, none, k)
  else
    let k := k.acquire .devm
    match aipuCreateIoregion a.socIo k base.start base.size with
    | (none, k) => (-efault, none, k)
    | (some base0, k) => (0, some base0, k)

/-- `destroy_aipu_soc` -/
def destroyAipuSoc (base0 : IoRegion) (k : Ledger Resource) : IoRegion × Ledger Resource :=
  aipuDestroyIoregion base0 k

/-- A part that is destroyed if it is there. -/
def destroyPart {α : Type*} (destroy : α → Ledger Resource → α × Ledger Resource)
    (part : Option α) (k : Ledger Resource) : Option α × Ledger Resource :=
  match part with
  | none => (none, k)
  | some part =>
    let (part, k) := destroy part k
    (some part, k)

/-- The queue heads of `struct aipu_job_manager`. -/
structure QueueHeads where
  scheduledQueueHead : Bool
  pendingQueueHead : Bool
  initDone : Bool
deriving DecidableEq, Repr

/-- The calls of `aipu_init_job_manager` that can fail. -/
def initQueueHeads (a : ProbeAnswers) (k : Ledger Resource) (jm : QueueHeads) :
    ℤ × QueueHeads × Ledger Resource :=
  if jm.initDone then (0, jm, k)
  else
    let k := (k.acquireIf a.scheduledHead .queueHead).acquireIf a.pendingHead .queueHead
    let jm := { jm with scheduledQueueHead := a.scheduledHead, pendingQueueHead := a.pendingHead }
    if a.pendingHead = false ∨ a.scheduledHead = false then (-enomem, jm, k)
    else (0, { jm with initDone := true }, k)

/-! ## The regions of the memory manager -/

/-- What a region keeps of the kernel: its window and its blocks, the sentinel included. -/
structure RegionResources where
  pa : ℕ
  totBytes : ℕ
  type : AipuMemType
  blocks : ℕ
deriving DecidableEq, Repr

/-- The two lists of regions; a head is missing when its allocation failed. -/
structure RegionLists where
  sramHead : Bool
  sram : List RegionResources
  ddrHead : Bool
  ddr : List RegionResources
deriving DecidableEq, Repr

/-- The calls of `aipu_init_mm` that can fail. -/
def initRegionLists (a : ProbeAnswers) (k : Ledger Resource) : RegionLists × Ledger Resource :=
  (⟨a.sramHead, [], a.ddrHead, []⟩,
    (k.acquireIf a.sramHead .regionHead).acquireIf a.ddrHead .regionHead)

/-- `aipu_alloc_cma_region_nocache`: whether there is an address. -/
def aipuAllocCmaRegionNocache (a : RegionAnswers) (k : Ledger Resource) (base bytes : ℕ) :
    Bool × Ledger Resource :=
  if a.reservedMem = false then (false, k)
  else
    let k := k.acquire .reservedMem
    if a.setMask = false then (false, k)
    else if a.setCoherentMask = false then (false, k)
    else if a.dmaAlloc = false then (false, k)
    else (true, k.acquire (.dmaBuffer base bytes))

/-- The address of a new region of `aipu_mm_add_region`. -/
def mapRegion (a : RegionAnswers) (k : Ledger Resource) (base bytes : ℕ) :
    AipuMemType → Bool × Ledger Resource
  | .cma => aipuAllocCmaRegionNocache a k base bytes
  | .sram | .reserved => (a.memremap, k.acquireIf a.memremap (.remap base bytes))

/-- `aipu_mm_add_region`; a region whose list has no head is not linked. -/
def addRegionResources (a : RegionAnswers) (k : Ledger Resource) (mm : RegionLists)
    (base bytes : ℕ) (type : AipuMemType) : Option (ℤ × RegionLists × Ledger Resource) :=
  if bytes = 0 then some (-einval, mm, k)
  else if a.kzalloc = false then some (-enomem, mm, k)
  else
    let k := k.acquire .devm
    match mapRegion a k base bytes type with
    | (false, k) => some (-enomem, mm, k)
    | (true, k) =>
      -- `list_add` of the block behind the sentinel
      if a.sentinel = false ∨ a.block = false then none
      else
        let k := (k.acquire .block).acquire .block
        let region : RegionResources := ⟨base, bytes, type, 2⟩
        if type = .sram then
          if mm.sramHead = false then some (-einval, mm, k)
          else some (0, { mm with sram := region :: mm.sram }, k)
        else
          if mm.ddrHead = false then some (-einval, mm, k)
          else some (0, { mm with ddr := region :: mm.ddr }, k)

/-- `aipu_mm_deinit_region` -/
def aipuMmDeinitRegion (k : Ledger Resource) (region : RegionResources) : Ledger Resource :=
  let k := k.releaseAll (List.replicate region.blocks .block)
  match region.type with
  | .sram | .reserved => k.release (.remap region.pa region.totBytes)
  | .cma => (k.release (.dmaBuffer region.pa region.totBytes)).release .reservedMem

/-- `aipu_deinit_mm`, which clears the memory manager and frees neither head. -/
def aipuDeinitMm (mm : RegionLists) (k : Ledger Resource) : RegionLists × Ledger Resource :=
  let k := if mm.sramHead then mm.sram.foldl aipuMmDeinitRegion k else k
  let k := if mm.ddrHead then mm.ddr.foldl aipuMmDeinitRegion k else k
  (⟨false, [], false, []⟩, k)

/-! ## The driver -/

/-- `struct aipu_priv`; `misc` tells whether the pointer is set. -/
structure AipuPriv where
  core0 : Option AipuCore
  soc : Option IoRegion
  misc : Bool
  mm : RegionLists
  jobManager : QueueHeads
deriving DecidableEq, Repr

/-- The driver: the ledger, the static structure, whether the pointer of `aipu_sysfs.c` is set,
whether the driver data of the device are set and whether the driver is bound. -/
structure DriverLife where
  kernel : Ledger Resource
  priv : AipuPriv
  sysfsAipu : Bool
  drvdata : Bool
  bound : Bool

/-- `aipu_create_sysfs`, whose calls may fail unnoticed. -/
def aipuCreateSysfs (a : ProbeAnswers) (k : Ledger Resource) : Ledger Resource :=
  ((k.acquireIf (a.sysfs .kmdVersion) (.sysfs .kmdVersion)).acquireIf (a.sysfs .extRegister)
    (.sysfs .extRegister)).acquireIf (a.sysfs .job) (.sysfs .job)

/-- `aipu_destroy_sysfs`: removing an attribute that is not there does nothing. -/
def aipuDestroySysfs (k : Ledger Resource) : Ledger Resource :=
  k.drop fun r => r = .sysfs .kmdVersion ∨ r = .sysfs .extRegister ∨ r = .sysfs .job

/-- `deinit_aipu_priv`, which leaves the pointers to the SoC and the core as they are. -/
def deinitAipuPriv (debug : Bool) (d : DriverLife) : Option DriverLife :=
  -- `aipu->dev` of `aipu_sysfs.c`
  if debug ∧ d.sysfsAipu = false then none
  else
    let k := if debug then aipuDestroySysfs d.kernel else d.kernel
    let (mm, k) := aipuDeinitMm d.priv.mm k
    let k := if d.priv.misc then k.release .misc else k
    let (soc, k) := destroyPart destroyAipuSoc d.priv.soc k
    let (core0, k) := destroyPart destroyAipuCore d.priv.core0 k
    some { d with
      kernel := k
      priv := { d.priv with core0 := core0, soc := soc, mm := mm }
      sysfsAipu := false }

/-- `init_misc_dev` -/
def initMiscDev (a : ProbeAnswers) (d : DriverLife) : ℤ × DriverLife :=
  if a.misc = false then (-enomem, { d with priv := { d.priv with misc := false } })
  else
    let k := d.kernel.acquire .devm
    let k := if a.miscRegister = 0 then k.acquire .misc else k
    (a.miscRegister, { d with kernel := k, priv := { d.priv with misc := true } })

/-- `init_aipu_priv` -/
def initAipuPriv (debug : Bool) (a : ProbeAnswers) (d : DriverLife) : Option (ℤ × DriverLife) :=
  let (mm, k) := initRegionLists a d.kernel
  let d := { d with
    kernel := k
    priv := { d.priv with core0 := none, soc := none, misc := false, mm := mm } }
  match initMiscDev a d with
  | (ret, d) =>
    if ret ≠ 0 then (deinitAipuPriv debug d).map fun d => (ret, d)
    else if debug then some (0, { d with kernel := aipuCreateSysfs a d.kernel, sysfsAipu := true })
    else some (0, d)

/-- `aipu_priv_init_core` -/
def aipuPrivInitCore (a : ProbeAnswers) (d : DriverLife) (irqnum : ℕ) (base : Window) :
    ℤ × DriverLife :=
  match createAipuCore a d.kernel irqnum base with
  | (ret, core0, k) =>
    let d := { d with kernel := k, priv := { d.priv with core0 := core0 } }
    if ret ≠ 0 then (ret, d)
    else
      match initQueueHeads a d.kernel d.priv.jobManager with
      | (ret, jm, k) => (ret, { d with kernel := k, priv := { d.priv with jobManager := jm } })

/-- `aipu_priv_init_soc` -/
def aipuPrivInitSoc (a : ProbeAnswers) (d : DriverLife) (base : Window) : ℤ × DriverLife :=
  if base.size = 0 then (0, d)
  else
    match createAipuSoc a d.kernel base with
    | (ret, soc, k) => (ret, { d with kernel := k, priv := { d.priv with soc := soc } })

/-- `aipu_priv_add_mem_region` -/
def aipuPrivAddMemRegion (a : ProbeAnswers) (d : DriverLife) (w : Window) (type : AipuMemType) :
    Option (ℤ × DriverLife) :=
  (addRegionResources a.region d.kernel d.priv.mm w.start w.size type).map fun r =>
    (r.1, { d with kernel := r.2.2, priv := { d.priv with mm := r.2.1 } })

/-- The label `probe_fail` of `aipu_probe`. -/
def probeFail (debug : Bool) (ret : ℤ) (d : DriverLife) : Option (ℤ × DriverLife) :=
  (deinitAipuPriv debug d).map fun d => (ret, d)

/-- The last stage of `aipu_probe`, from the phandle of the memory on.  Where the address of the
memory cannot be read, `ret` is still zero. -/
def probeMemory (debug : Bool) (node : DeviceNode) (a : ProbeAnswers) (d : DriverLife) :
    Option (ℤ × DriverLife) :=
  match node.memoryRegion with
  | none => probeFail debug (-enomem) d
  | some addr =>
    let d := { d with kernel := d.kernel.acquire .nodeRef }
    match addr with
    | none => probeFail debug 0 d
    | some w =>
      match aipuPrivAddMemRegion a d w .cma with
      | none => none
      | some (ret, d) =>
        if ret ≠ 0 then probeFail debug ret d
        else some (0, { d with kernel := d.kernel.release .nodeRef, drvdata := true })

/-- The second stage of `aipu_probe`: the core and the SoC. -/
def probeCore (debug : Bool) (node : DeviceNode) (a : ProbeAnswers) (d : DriverLife) :
    Option (ℤ × DriverLife) :=
  match node.io, node.irq with
  | some io, some irq =>
    match aipuPrivInitCore a d irq io with
    | (ret, d) =>
      if ret ≠ 0 then probeFail debug ret d
      else
        match aipuPrivInitSoc a d (node.socIo.getD ⟨0, 0⟩) with
        | (ret, d) => if ret ≠ 0 then probeFail debug ret d else probeMemory debug node a d
  | _, _ => probeFail debug (-einval) d

/-- `aipu_probe` of a device that matches. -/
def aipuProbe (debug : Bool) (node : DeviceNode) (a : ProbeAnswers) (d : DriverLife) :
    Option (ℤ × DriverLife) :=
  match initAipuPriv debug a d with
  | none => none
  | some (ret, d) => if ret ≠ 0 then some (ret, d) else probeCore debug node a d

/-- `aipu_remove`; without driver data `deinit_aipu_priv` gets a null pointer and returns. -/
def aipuRemove (debug : Bool) (d : DriverLife) : Option DriverLife :=
  if d.drvdata then deinitAipuPriv debug d else some d

/-! ## The driver core -/

/-- What the driver core does when a probe has failed or a device was removed. -/
def DriverLife.unbind (d : DriverLife) : DriverLife :=
  { d with kernel := d.kernel.drop (· = .devm), drvdata := false, bound := false }

/-- A window overlaps one that is claimed. -/
def Resource.overlaps (w : Window) : Resource → Bool
  | .ioClaim phys size => phys < w.start + wrap 32 w.size ∧ w.start < phys + size
  | _ => false

/-- `request_mem_region` grants no window that overlaps one that is claimed. -/
def ProbeAnswers.consistent (node : DeviceNode) (a : ProbeAnswers) (k : Ledger Resource) : Prop :=
  (a.io.requestMemRegion = true → ∀ w ∈ node.io, ∀ r ∈ k.held, r.overlaps w = false) ∧
    (a.socIo.requestMemRegion = true → ∀ w ∈ node.socIo, ∀ r ∈ k.held, r.overlaps w = false) ∧
    (a.io.requestMemRegion = true → a.socIo.requestMemRegion = true → ∀ v ∈ node.io,
      ∀ w ∈ node.socIo, (Resource.ioClaim v.start (wrap 32 v.size)).overlaps w = false)

instance (node : DeviceNode) (a : ProbeAnswers) (k : Ledger Resource) :
    Decidable (a.consistent node k) :=
  inferInstanceAs (Decidable (_ ∧ _ ∧ _))

/-- What can happen: a probe, a remove, and a block of the region of the bound device that is split
or merged. -/
inductive LifeAction
  | probe (a : ProbeAnswers)
  | remove
  | splitBlock
  | mergeBlock

/-- What is recorded: a probe, with the answers, whether the queues had been made before, and its
code; and a remove. -/
inductive LifeEvent
  | probed (a : ProbeAnswers) (initDone : Bool) (ret : ℤ)
  | removed

/-- A block more or less in the first region of the list. -/
def RegionLists.setBlocks (mm : RegionLists) (f : ℕ → ℕ) : RegionLists :=
  { mm with ddr := mm.ddr.modifyHead fun region => { region with blocks := f region.blocks } }

/-- A step; there is none where the source dereferences a null pointer. -/
def lifeStep (debug : Bool) (node : DeviceNode) (d : DriverLife) :
    LifeAction → Option (DriverLife × List LifeEvent)
  | .probe a =>
    if d.bound = false ∧ a.consistent node d.kernel then
      (aipuProbe debug node a d).map fun r =>
        (if r.1 = 0 then { r.2 with bound := true } else r.2.unbind,
          [.probed a d.priv.jobManager.initDone r.1])
    else none
  | .remove =>
    if d.bound then (aipuRemove debug d).map fun d => (d.unbind, [.removed]) else none
  | .splitBlock =>
    if d.drvdata ∧ d.priv.mm.ddr ≠ [] then
      some ({ d with
        kernel := d.kernel.acquire .block
        priv := { d.priv with mm := d.priv.mm.setBlocks (· + 1) } }, [])
    else none
  | .mergeBlock =>
    if d.drvdata ∧ ∃ region ∈ d.priv.mm.ddr.head?, 2 < region.blocks then
      some ({ d with
        kernel := d.kernel.release .block
        priv := { d.priv with mm := d.priv.mm.setBlocks (· - 1) } }, [])
    else none

/-- The lives of the driver on a device, from the load of the module on. -/
def lifeSystem (debug : Bool) (node : DeviceNode) : System DriverLife LifeAction LifeEvent where
  init d := d =
    { kernel := ⟨[], []⟩
      priv := ⟨none, none, false, ⟨false, [], false, []⟩, ⟨false, false, false⟩⟩
      sysfsAipu := false
      drvdata := false
      bound := false }
  step := lifeStep debug node

end Aipu
