import AipuDriver.Lib.Cursor
import AipuDriver.Lib.Word
import AipuDriver.Kmd.Interface

/-!
# The memory manager (`aipu_mm.c`)

A region keeps its memory as a doubly linked list of blocks behind a sentinel.  Here `blkHead` is
the list of the blocks without the sentinel, in list order; the sentinel has size zero, which the
source uses to recognise it when it looks at the neighbours of a block.

A call that may run `kzalloc` takes the oracle of its answers and returns what is left of it; its
result is `none` when the source would dereference the null pointer of a failed `kzalloc`.  All
`u64` arithmetic is reduced by `wrap 64` and `wrapSub 64`, the `u32` product of the requested
alignment by `wrap 32`.
-/

namespace Aipu

open ListSearch Word

/-! ## Data -/

/-- `enum aipu_blk_state` -/
inductive AipuBlkState
  | free
  | allocated
deriving DecidableEq, Repr

/-- `struct aipu_block` -/
structure AipuBlock where
  pa : ℕ
  bytes : ℕ
  tid : ℤ
  type : ℕ
  state : AipuBlkState
deriving DecidableEq, Repr

/-- `struct aipu_mem_region`; `blkHead` is the list of the blocks after the sentinel. -/
structure AipuMemRegion where
  id : ℕ
  blkHead : List AipuBlock
  pa : ℕ
  va : ℕ
  totBytes : ℕ
  totFreeBytes : ℕ
  flag : AipuAllocFlag
  type : AipuMemType
deriving DecidableEq, Repr

/-- The hardware version, `AIPU_VERSION_ZHOUYI_V1` or `AIPU_VERSION_ZHOUYI_V2`. -/
inductive AipuVersion
  | zhouyiV1
  | zhouyiV2
deriving DecidableEq, Repr

/-- `struct aipu_memory_manager`; the heads are the lists of regions after their sentinels. -/
structure AipuMemoryManager where
  sramHead : List AipuMemRegion
  sramCnt : ℕ
  ddrHead : List AipuMemRegion
  ddrCnt : ℕ
  sramGlobal : ℕ
  version : AipuVersion
deriving DecidableEq, Repr

/-- All regions of a memory manager, in the order in which `aipu_mm_free` looks at them. -/
def AipuMemoryManager.regions (mm : AipuMemoryManager) : List AipuMemRegion :=
  mm.sramHead ++ mm.ddrHead

/-! ## Configuration (`config.h`) and address-space ids -/

/-- `AIPU_CONFIG_ENABLE_SRAM` -/
def aipuConfigEnableSram : Bool := false
/-- `AIPU_CONFIG_ENABLE_FALL_BACK_TO_DDR` -/
def aipuConfigEnableFallBackToDdr : Bool := true
/-- `AIPU_CONFIG_MM_ALLOC_FLAG` -/
def aipuConfigMmAllocFlag : AipuAllocFlag := .compact
/-- `AIPU_CONFIG_SRAM_DATA_ASID`, which is `AIPU_ASE_ID_2` -/
def aipuConfigSramDataAsid : ℕ := 0x4

/-- `get_asid` -/
def getAsid (type : ℕ) : ℕ :=
  if type = aipuMmDataTypeText then 0x1
  else if type = aipuMmDataTypeRoStack then 0x1
  else if type = aipuMmDataTypeStatic then 0x2
  else if type = aipuMmDataTypeReuse then 0x4
  else if type = aipuMmDataTypeNone then 0xF
  else 0x0

/-- `roundup_pow_of_two` -/
def roundupPowOfTwo (n : ℕ) : ℕ := wrap 64 (2 ^ Nat.size (n - 1))

/-- `get_alloc_size` -/
def getAllocSize (region : AipuMemRegion) (requested : ℕ) : ℕ :=
  if requested = 0 then 0
  else match region.flag with
    | .strict => max 4096 (roundupPowOfTwo requested)
    | .compact => maskAlign 64 requested pageSize
    | .default => 0

/-! ## Blocks -/

/-- `create_block` -/
def createBlock (kz : Oracle) (base bytes : ℕ) (tid : ℤ) (type : ℕ) (state : AipuBlkState) :
    Option AipuBlock × Oracle :=
  let (ok, kz) := kz.next
  (if ok then some ⟨base, bytes, tid, type, state⟩ else none, kz)

/-- Where the search from the front would place the request in `blk`. -/
def forwardStart (bytes alignment : ℕ) (blk : AipuBlock) : Option ℕ :=
  if blk.state ≠ .allocated then
    let start := maskAlign 64 blk.pa alignment
    if wrap 64 (start + bytes) ≤ wrap 64 (blk.pa + blk.bytes) then some start else none
  else none

/-- Where the search from the back would place the request in `blk`.  `do_div` takes its divisor
as a `uint32_t`. -/
def reverseStart (bytes alignment : ℕ) (blk : AipuBlock) : Option ℕ :=
  if blk.state ≠ .allocated then
    let result := wrapSub 64 (wrap 64 (blk.pa + blk.bytes)) bytes / wrap 32 alignment
    let start := wrap 64 (result * alignment)
    if start ≥ blk.pa ∧ wrap 64 (start + bytes) ≤ wrap 64 (blk.pa + blk.bytes) then some start
    else none
  else none

/-- `aipu_mm_find_block_candidate_no_lock` -/
def aipuMmFindBlockCandidateNoLock (head : List AipuBlock) (bytes alignment dataType : ℕ) :
    Except ℤ (Cursor AipuBlock × ℕ) :=
  if bytes = 0 ∨ alignment = 0 ∨ alignment % pageSize ≠ 0 then .error (-einval)
  else
    let found :=
      if dataType = aipuMmDataTypeText ∨ dataType = aipuMmDataTypeRoStack then
        findFirst (forwardStart bytes alignment) head
      else findLast (reverseStart bytes alignment) head
    match found with
    | some (blkCand, start) => .ok (blkCand, start)
    | none => .error (-enomem)

/-- `aipu_mm_split_block_no_lock`: the return code and the block list afterwards. -/
def aipuMmSplitBlockNoLock (kz : Oracle) (tid : ℤ) (target : Cursor AipuBlock)
    (allocBase allocBytes type : ℕ) : Option (ℤ × List AipuBlock × Oracle) :=
  let blk := target.entry
  let allocEnd := wrapSub 64 (wrap 64 (allocBase + allocBytes)) 1
  let targetEnd := wrapSub 64 (wrap 64 (blk.pa + blk.bytes)) 1
  if allocBytes = 0 ∨ allocEnd < blk.pa ∨ allocEnd > targetEnd then
    some (-einval, target.toList, kz)
  else if allocBase = blk.pa ∧ allocEnd = targetEnd then
    let allocBlk := { blk with tid := tid, type := type, state := .allocated }
    some (0, target.before ++ [allocBlk] ++ target.after, kz)
  else
    match createBlock kz allocBase allocBytes tid type .allocated with
    | (none, kz) => some (-enomem, target.toList, kz)
    | (some allocBlk, kz) =>
      if allocBase = blk.pa ∧ allocEnd < targetEnd then
        let remaining := { blk with
          pa := wrap 64 (blk.pa + allocBlk.bytes), bytes := wrapSub 64 blk.bytes allocBlk.bytes }
        some (0, target.before ++ [allocBlk, remaining] ++ target.after, kz)
      else if allocBase > blk.pa ∧ allocEnd = targetEnd then
        let remaining := { blk with bytes := wrapSub 64 blk.bytes allocBlk.bytes }
        some (0, target.before ++ [remaining, allocBlk] ++ target.after, kz)
      else
        let front := { blk with bytes := wrapSub 64 allocBase blk.pa }
        match createBlock kz (wrap 64 (allocEnd + 1)) (wrapSub 64 targetEnd allocEnd) tid type
          .free with
        -- `list_add(&remaining_blk->list, ..)` with a null `remaining_blk`
        | (none, _) => none
        | (some back, kz) =>
          some (0, target.before ++ [front, allocBlk, back] ++ target.after, kz)

/-! ## Allocation -/

/-- What an allocation call returns: its code, the memory after it (a region, a list of regions or
the memory manager), the request with its error code, the buffer and the oracle left. -/
structure AllocResult (μ : Type) where
  ret : ℤ
  mem : μ
  req : BufRequest
  buf : AipuBuffer
  kz : Oracle
deriving DecidableEq

/-- The common body of the two region allocators, which differ in the names of their variables
only (the rounded size depends on the flag of the region). -/
def aipuMmAllocInRegionNoLock (kz : Oracle) (tid : ℤ) (region : AipuMemRegion) (bufReq : BufRequest)
    (buf : AipuBuffer) : Option (AllocResult AipuMemRegion) :=
  let roundupBytes := getAllocSize region bufReq.bytes
  let alignment := wrap 32 (bufReq.alignInPage * 4 * 1024)
  match aipuMmFindBlockCandidateNoLock region.blkHead roundupBytes alignment bufReq.dataType with
  | .error ret => some ⟨ret, region, bufReq, buf, kz⟩
  | .ok (blkCand, allocPa) =>
    match aipuMmSplitBlockNoLock kz tid blkCand allocPa roundupBytes bufReq.dataType with
    | none => none
    | some (ret, blkHead, kz) =>
      if ret ≠ 0 then some ⟨-enomem, { region with blkHead := blkHead }, bufReq, buf, kz⟩
      else
        some ⟨0, { region with blkHead := blkHead }, { bufReq with errcode := .noError },
          { buf with
            pa := allocPa
            va := wrapSub 64 (wrap 64 (region.va + allocPa)) region.pa
            bytes := roundupBytes }, kz⟩

/-- `aipu_mm_alloc_in_region_strict_no_lock` -/
def aipuMmAllocInRegionStrictNoLock := aipuMmAllocInRegionNoLock

/-- `aipu_mm_alloc_in_region_compact_no_lock` -/
def aipuMmAllocInRegionCompactNoLock := aipuMmAllocInRegionNoLock

/-- `region->alloc_in_region`, as `aipu_init_region` sets it. -/
def AipuMemRegion.allocInRegion (region : AipuMemRegion) :=
  if region.flag = .strict then aipuMmAllocInRegionStrictNoLock
  else aipuMmAllocInRegionCompactNoLock

/-- `aipu_mm_try_alloc_in_region` -/
def aipuMmTryAllocInRegion (kz : Oracle) (tid : ℤ) (region : AipuMemRegion) (bufReq : BufRequest)
    (buf : AipuBuffer) : Option (AllocResult AipuMemRegion) :=
  match region.allocInRegion kz tid region bufReq buf with
  | none => none
  | some r =>
    if r.ret = 0 then
      some { r with
        mem := { r.mem with totFreeBytes := wrapSub 64 r.mem.totFreeBytes r.buf.bytes }
        buf := { r.buf with regionId := r.mem.id, type := r.mem.type } }
    else some r

/-- The loop of `aipu_mm_scan_regions_alloc` over the regions that `sel` selects; `ret` is the
code of the last failed attempt. -/
def scanRegions (sel : AipuMemRegion → Bool) (tid : ℤ) :
    List AipuMemRegion → ℤ → Oracle → BufRequest → AipuBuffer →
      Option (AllocResult (List AipuMemRegion))
  | [], ret, kz, bufReq, buf => some ⟨ret, [], bufReq, buf, kz⟩
  | region :: rest, ret, kz, bufReq, buf =>
    if sel region then
      match aipuMmTryAllocInRegion kz tid region bufReq buf with
      | none => none
      | some r =>
        if r.ret = 0 then some ⟨0, r.mem :: rest, r.req, r.buf, r.kz⟩
        else
          match scanRegions sel tid rest r.ret r.kz r.req r.buf with
          | none => none
          | some r' => some { r' with mem := r.mem :: r'.mem }
    else
      match scanRegions sel tid rest ret kz bufReq buf with
      | none => none
      | some r' => some { r' with mem := region :: r'.mem }

/-- `aipu_mm_scan_regions_alloc` -/
def aipuMmScanRegionsAlloc (kz : Oracle) (tid : ℤ) (version : AipuVersion)
    (head : List AipuMemRegion) (bufReq : BufRequest) (buf : AipuBuffer) :
    Option (AllocResult (List AipuMemRegion)) :=
  if version = .zhouyiV2 ∧ bufReq.dataType = aipuMmDataTypeRoStack then
    scanRegions (fun region => bufReq.regionId = region.id) tid head (-enomem) kz bufReq buf
  else
    scanRegions (fun region => region.totFreeBytes ≥ getAllocSize region bufReq.bytes) tid head
      (-enomem) kz bufReq buf

/-- The end of `aipu_mm_alloc`: the scan of the DDR regions, after the SRAM regions are `mm`'s. -/
def allocFromDdr (kz : Oracle) (tid : ℤ) (mm : AipuMemoryManager) (bufReq : BufRequest)
    (buf : AipuBuffer) : Option (AllocResult AipuMemoryManager) :=
  match aipuMmScanRegionsAlloc kz tid mm.version mm.ddrHead bufReq buf with
  | none => none
  | some r =>
    some ⟨r.ret, { mm with ddrHead := r.mem },
      if r.ret = 0 then r.req else { r.req with errcode := .noMemory }, r.buf, r.kz⟩

/-- `aipu_mm_alloc` -/
def aipuMmAlloc (kz : Oracle) (tid : ℤ) (mm : AipuMemoryManager) (bufReq : BufRequest)
    (buf : AipuBuffer) : Option (AllocResult AipuMemoryManager) :=
  if bufReq.bytes = 0 ∨ bufReq.alignInPage = 0 then some ⟨-einval, mm, bufReq, buf, kz⟩
  else
    let buf : AipuBuffer := {}
    let asid := getAsid bufReq.dataType
    if mm.sramCnt = 0 ∧ mm.ddrCnt = 0 then some ⟨-enomem, mm, bufReq, buf, kz⟩
    else if aipuConfigEnableSram ∧ mm.sramGlobal &&& asid ≠ 0 then
      match aipuMmScanRegionsAlloc kz tid mm.version mm.sramHead bufReq buf with
      | none => none
      | some r =>
        let mm := { mm with sramHead := r.mem }
        if r.ret = 0 ∨ aipuConfigEnableFallBackToDdr = false then
          some ⟨r.ret, mm, r.req, r.buf, r.kz⟩
        else allocFromDdr r.kz tid mm r.req r.buf
    else allocFromDdr kz tid mm bufReq buf

/-! ## Release -/

/-- Merge a freed block into the block before it, unless that is the sentinel or not free. -/
def mergePrev (before : List AipuBlock) (target : AipuBlock) : List AipuBlock × AipuBlock :=
  match before.getLast? with
  | none => (before, target)
  | some prev =>
    if prev.bytes ≠ 0 ∧ prev.state = .free then
      (before.dropLast, { prev with bytes := wrap 64 (prev.bytes + target.bytes) })
    else (before, target)

/-- Merge the block after a freed block into it, unless that is the sentinel or allocated. -/
def mergeNext (target : AipuBlock) (after : List AipuBlock) : AipuBlock × List AipuBlock :=
  match after with
  | [] => (target, [])
  | next :: rest =>
    if next.bytes ≠ 0 ∧ next.state ≠ .allocated then
      ({ target with bytes := wrap 64 (target.bytes + next.bytes) }, rest)
    else (target, next :: rest)

/-- `aipu_mm_free_in_region` -/
def aipuMmFreeInRegion (region : AipuMemRegion) (buf : BufDesc) : ℤ × AipuMemRegion :=
  match seek (fun blk => blk.pa = buf.pa ∧ blk.bytes = buf.bytes) region.blkHead with
  | none => (-einval, region)
  | some c =>
    let target := { c.entry with tid := 0, type := aipuMmDataTypeNone, state := .free }
    let (before, target) := mergePrev c.before target
    let (target, after) := mergeNext target c.after
    (0, { region with
      blkHead := before ++ target :: after
      totFreeBytes := wrap 64 (region.totFreeBytes + buf.bytes) })

/-- `aipu_mm_find_region` -/
def aipuMmFindRegion (head : List AipuMemRegion) (pa bytes : ℕ) : Option (Cursor AipuMemRegion) :=
  if bytes = 0 then none
  else seek (fun region => pa ≥ region.pa ∧
    wrap 64 (pa + bytes) ≤ wrap 64 (region.pa + region.totBytes)) head

/-- Free `buf` in the region at the cursor and put the region back. -/
def freeAt (c : Cursor AipuMemRegion) (buf : BufDesc) : ℤ × List AipuMemRegion :=
  let (ret, region) := aipuMmFreeInRegion c.entry buf
  (ret, c.before ++ region :: c.after)

/-- `aipu_mm_free` -/
def aipuMmFree (mm : AipuMemoryManager) (buf : BufDesc) : ℤ × AipuMemoryManager :=
  match aipuMmFindRegion mm.sramHead buf.pa buf.bytes with
  | some c =>
    let (ret, sramHead) := freeAt c buf
    (ret, { mm with sramHead := sramHead })
  | none =>
    match aipuMmFindRegion mm.ddrHead buf.pa buf.bytes with
    | none => (-einval, mm)
    | some c =>
      let (ret, ddrHead) := freeAt c buf
      (ret, { mm with ddrHead := ddrHead })

/-! ## Initialisation -/

/-- `aipu_init_region` on a zeroed region whose `va` is already mapped. -/
def aipuInitRegion (kz : Oracle) (id base bytes : ℕ) (type : AipuMemType) (va : ℕ) :
    Option (AipuMemRegion × Oracle) :=
  match createBlock kz 0 0 0 aipuMmDataTypeNone .free with
  | (none, _) => none
  | (some _, kz) =>
    match createBlock kz base bytes 0 aipuMmDataTypeNone .free with
    | (none, _) => none
    | (some newBlk, kz) =>
      some ({ id := id, blkHead := [newBlk], pa := base, va := va, totBytes := bytes,
              totFreeBytes := bytes, flag := aipuConfigMmAllocFlag, type := type }, kz)

/-- `aipu_init_mm` -/
def aipuInitMm (version : AipuVersion) : AipuMemoryManager :=
  { sramHead := [], sramCnt := 0, ddrHead := [], ddrCnt := 0,
    sramGlobal := aipuConfigSramDataAsid, version := version }

/-- `aipu_mm_add_region`, with the address `va` at which the kernel mapped the region (zero when
the mapping failed). -/
def aipuMmAddRegion (kz : Oracle) (mm : AipuMemoryManager) (base bytes : ℕ) (type : AipuMemType)
    (va : ℕ) : Option (ℤ × AipuMemoryManager × Oracle) :=
  if bytes = 0 then some (-einval, mm, kz)
  else
    let (ok, kz) := kz.next
    if ok = false then some (-enomem, mm, kz)
    else if va = 0 then some (-enomem, mm, kz)
    else
      match aipuInitRegion kz (mm.sramCnt + mm.ddrCnt) base bytes type va with
      | none => none
      | some (region, kz) =>
        if type = .sram then
          some (0, { mm with sramHead := region :: mm.sramHead, sramCnt := mm.sramCnt + 1 }, kz)
        else some (0, { mm with ddrHead := region :: mm.ddrHead, ddrCnt := mm.ddrCnt + 1 }, kz)

end Aipu
