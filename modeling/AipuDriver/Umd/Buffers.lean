import AipuDriver.Kmd.Interface
import AipuDriver.Lib.Word
import AipuDriver.Umd.Graph
import AipuDriver.Umd.GraphFormat

/-!
# Buffers of the user-mode driver (`device_ctrl.cpp`, `dev_op_wrapper.cpp`, `graph.cpp`)

A buffer is what REQBUF has granted, at the address at which `mmap` has put it.  The sections of a
group share one buffer: their offsets are rounded up one after the other, in 32 bits.

When REQBUF fails without an error code, `malloc_buf` reports success and writes no descriptor: its
caller goes on with what the memory of the descriptor held before, which is an argument here.

The ARM build is modelled.  What the kernel answers to a request is an argument, as is whether it
frees a buffer.  The computation of the offsets is `none` where its loop does not end.
-/

namespace Aipu

open UnusedId Word

/-! ## Data -/

/-- `buffer_desc_t`; the null pointer is zero. -/
structure BufferDesc where
  va : ℕ := 0
  pa : ℕ := 0
  size : ℕ := 0
  realSize : ℕ := 0
  regionId : ℕ := 0
deriving DecidableEq, Repr

/-- What the kernel does for a request of `dev_op_wrapper_malloc`. -/
inductive MallocAnswer
  /-- REQBUF reports an error code. -/
  | refused
  /-- REQBUF returns an error without an error code, with or without a buffer in the session. -/
  | silent (granted : Option BufDesc)
  /-- REQBUF has granted a buffer, and `mmap` fails. -/
  | unmapped (desc : BufDesc)
  /-- The buffer is granted and mapped; `mmap` maps some bytes, and not at the null pointer. -/
  | mapped (desc : BufDesc) (ptr : ℕ) (hbytes : desc.bytes ≠ 0) (hptr : ptr ≠ 0)

/-- What the kernel does for each request. -/
abbrev KernelMalloc := BufRequest → MallocAnswer

/-- What a call does to buffers of the kernel. -/
inductive BufferEvent
  /-- REQBUF has granted the buffer, and `mmap` has mapped it. -/
  | allocated (buf : BufferDesc)
  /-- REQBUF has granted a buffer that no descriptor was written for. -/
  | lost (desc : BufDesc)
  | freed (buf : BufferDesc)
deriving DecidableEq, Repr

/-- `aipu_buffer_t`, with the physical address that `aipu_tensor_buffer_inner_t` keeps beside it. -/
structure TensorBuffer where
  id : ℕ
  size : ℕ
  va : ℕ
  pa : ℕ
deriving DecidableEq, Repr

/-- `iobuf_info_t` -/
structure IobufInfo where
  inputs : List TensorBuffer := []
  outputs : List TensorBuffer := []
  interDumps : List TensorBuffer := []
  pdata : List TensorBuffer := []
  plogData : List TensorBuffer := []
deriving DecidableEq, Repr

/-! ## Allocation -/

/-- The `struct buf_request` of `dev_op_wrapper_malloc` -/
def mallocRequest (dtype size alignInPage regionId : ℕ) : BufRequest where
  bytes := size
  alignInPage := alignInPage
  dataType := dtype
  regionId := regionId

/-- What `dev_op_wrapper_malloc` writes for a buffer that is mapped. -/
def BufDesc.bufferDesc (desc : BufDesc) (ptr size : ℕ) : BufferDesc where
  va := ptr
  pa := desc.pa
  size := desc.bytes
  realSize := size
  regionId := desc.regionId

/-- `dev_op_wrapper_malloc` for a descriptor with the contents `buf`: whether it returns zero, the
contents afterwards, and what happens. -/
def devOpWrapperMalloc (kernel : KernelMalloc) (dtype size alignInPage regionId : ℕ)
    (buf : BufferDesc) : Bool × BufferDesc × List BufferEvent :=
  if size = 0 then (false, buf, [])
  else match kernel (mallocRequest dtype size alignInPage regionId) with
    | .refused => (false, buf, [])
    -- the error code is returned, which is that of no error
    | .silent granted => (true, buf, granted.toList.map .lost)
    | .unmapped desc => (false, buf, [.lost desc])
    | .mapped desc ptr _ _ =>
      (true, desc.bufferDesc ptr size, [.allocated (desc.bufferDesc ptr size)])

/-- `malloc_buf` for a descriptor with the contents `buf`: an error, or the contents afterwards, and
what happens. -/
def mallocBuf (kernel : KernelMalloc) (dtype size alignInPage regionId : ℕ) (buf : BufferDesc) :
    Except AipuStatus BufferDesc × List BufferEvent :=
  if size = 0 then (.error .errorInvalidSize, [])
  else match devOpWrapperMalloc kernel dtype size alignInPage regionId buf with
    | (true, buf, es) => (.ok buf, es)
    | (false, _, es) => (.error .errorBufAllocFail, es)

section MallocBuf

variable {kernel : KernelMalloc} {dtype size alignInPage regionId : ℕ} {old buf : BufferDesc}
  {es : List BufferEvent}

/-- A call of `malloc_buf` for some bytes, by the answer. -/
theorem mallocBuf_of_ne_zero (hsize : size ≠ 0) :
    mallocBuf kernel dtype size alignInPage regionId old =
      match kernel (mallocRequest dtype size alignInPage regionId) with
      | .refused => (.error .errorBufAllocFail, [])
      | .silent granted => (.ok old, granted.toList.map .lost)
      | .unmapped desc => (.error .errorBufAllocFail, [.lost desc])
      | .mapped desc ptr _ _ =>
        (.ok (desc.bufferDesc ptr size), [.allocated (desc.bufferDesc ptr size)]) := by
  unfold mallocBuf devOpWrapperMalloc
  rw [if_neg hsize, if_neg hsize]
  cases kernel (mallocRequest dtype size alignInPage regionId) <;> rfl

/-- `malloc_buf` reports success: a buffer is granted, mapped and described, or the kernel has
refused without an error code, and the descriptor is as it was. -/
theorem mallocBuf_ok_cases
    (h : mallocBuf kernel dtype size alignInPage regionId old = (.ok buf, es)) :
    size ≠ 0 ∧
      ((∃ desc ptr hbytes hptr,
          kernel (mallocRequest dtype size alignInPage regionId) =
            .mapped desc ptr hbytes hptr ∧
          buf = desc.bufferDesc ptr size ∧ es = [.allocated buf]) ∨
        ∃ granted, kernel (mallocRequest dtype size alignInPage regionId) = .silent granted ∧
          buf = old ∧ es = granted.toList.map .lost) := by
  by_cases hsize : size = 0
  · rw [mallocBuf, if_pos hsize] at h
    cases h
  rw [mallocBuf_of_ne_zero hsize] at h
  refine ⟨hsize, ?_⟩
  cases hanswer : kernel (mallocRequest dtype size alignInPage regionId) with
  | refused =>
    rw [hanswer] at h
    cases h
  | silent granted =>
    rw [hanswer] at h
    obtain ⟨rfl, rfl⟩ : old = buf ∧ granted.toList.map .lost = es := by simpa using h
    exact .inr ⟨granted, rfl, rfl, rfl⟩
  | unmapped desc =>
    rw [hanswer] at h
    cases h
  | mapped desc ptr hbytes hptr =>
    rw [hanswer] at h
    obtain ⟨rfl, rfl⟩ : desc.bufferDesc ptr size = buf ∧
        [.allocated (desc.bufferDesc ptr size)] = es := by simpa using h
    exact .inl ⟨desc, ptr, hbytes, hptr, rfl, rfl, rfl⟩

/-- The kernel refuses a request with an error code only. -/
def KernelMalloc.TellsErrors (kernel : KernelMalloc) : Prop :=
  ∀ req granted, kernel req ≠ .silent granted

/-- When the kernel tells its errors, the report of success is true. -/
theorem KernelMalloc.TellsErrors.mallocBuf_granted (hkernel : kernel.TellsErrors)
    (h : mallocBuf kernel dtype size alignInPage regionId old = (.ok buf, es)) :
    0 < size ∧ es = [.allocated buf] ∧ ∃ desc ptr hbytes hptr,
      kernel (mallocRequest dtype size alignInPage regionId) = .mapped desc ptr hbytes hptr ∧
        buf = desc.bufferDesc ptr size := by
  obtain ⟨hsize, ⟨desc, ptr, hbytes, hptr, hanswer, hbuf, hes⟩ | ⟨granted, hsilent, -⟩⟩ :=
    mallocBuf_ok_cases h
  · exact ⟨Nat.pos_of_ne_zero hsize, hes, desc, ptr, hbytes, hptr, hanswer, hbuf⟩
  · exact absurd hsilent (hkernel _ _)

end MallocBuf

/-- `free_buf`, when the kernel frees the buffer or not. -/
def freeBuf (buf : BufferDesc) (ok : Bool) : AipuStatus :=
  if buf.size = 0 then .errorInvalidSize else if ok then .success else .errorBufFreeFail

/-- What `free_buf` does when the kernel frees the buffer. -/
def BufferDesc.freeEvents (buf : BufferDesc) : List BufferEvent :=
  if buf.size = 0 then [] else [.freed buf]

/-- `alloc_text_buffer` for a descriptor with the contents `text` -/
def allocTextBuffer (kernel : KernelMalloc) (templ : PbufAllocTempl) (text : BufferDesc) :
    Except AipuStatus BufferDesc × List BufferEvent :=
  if templ.textSize = 0 then (.error .errorInvalidSize, [])
  else mallocBuf kernel aipuMmDataTypeText templ.textSize.toNat 1 0 text

/-- `load_text_buffer`, without the copy. -/
def loadTextBuffer (src : ℕ) (size : UInt32) (text : BufferDesc) : AipuStatus :=
  if src = 0 ∨ text.va = 0 then .errorNullPtr
  else if size = 0 ∨ text.size = 0 then .errorInvalidSize
  else .success

/-- `alloc_rodata_buffer` for a descriptor with the contents `rodata`: the rodata and the
descriptor, which share one buffer. -/
def allocRodataBuffer (kernel : KernelMalloc) (regionId : ℕ) (templ : TbufAllocTempl)
    (rodata : BufferDesc) : Except AipuStatus (BufferDesc × BufferDesc) × List BufferEvent :=
  match mallocBuf kernel aipuMmDataTypeRoStack (templ.rodataSize + templ.dcrSize).toNat 1 regionId
      rodata with
  | (.error e, es) => (.error e, es)
  | (.ok rodata, es) =>
    let dcrSize := templ.dcrSize.toNat
    (.ok (rodata,
      if templ.dcrSize ≠ 0 then
        { va := wrap 64 (rodata.va + templ.rodataSize.toNat)
          pa := wrap 64 (rodata.pa + templ.rodataSize.toNat)
          size := dcrSize, realSize := dcrSize, regionId := regionId }
      else {}), es)

/-! ## Groups -/

/-- `get_aligned_addr`: the counter of its loop goes through all words. -/
def getAlignedAddr (base alignInPage : ℕ) : Option ℕ :=
  (firstUnused (fun n => wrap 32 (n * alignInPage * 4096) < base) uint32Size uint32Size 0).map
    fun n => wrap 32 (n * alignInPage * 4096)

/-- The offsets of a section, which is `offset`, and of those that follow it, and the number of
bytes that they take. -/
def groupLayout : ℕ → SectionDesc → List SectionDesc → Option (List ℕ × ℕ)
  | offset, sec, [] => some ([offset], wrap 32 (offset + sec.size.toNat))
  | offset, sec, next :: rest => do
    let nextOffset ← getAlignedAddr (wrap 32 (offset + sec.size.toNat)) next.alignInPage.toNat
    let (offsets, totBytes) ← groupLayout nextOffset next rest
    some (offset :: offsets, totBytes)

/-- The buffer of a section at an offset in the buffer of its group. -/
def childBuf (group : BufferDesc) (sec : SectionDesc) (offset : ℕ) : BufferDesc where
  va := wrap 64 (group.va + offset)
  pa := wrap 64 (group.pa + offset)
  size := sec.size.toNat
  realSize := sec.size.toNat

/-- `alloc_group_buffers`: the buffers of the sections and the one of the group, which is not
written when there are no sections; `garbage` is what the variable `group_buf` holds at first. -/
def allocGroupBuffers (kernel : KernelMalloc) (sections : List SectionDesc) (dtype : ℕ)
    (garbage group : BufferDesc) :
    Option (Except AipuStatus (List BufferDesc × BufferDesc) × List BufferEvent) :=
  match sections with
  | [] => some (.ok ([], group), [])
  | first :: rest =>
    (groupLayout 0 first rest).map fun (offsets, totBytes) =>
      match mallocBuf kernel dtype totBytes first.alignInPage.toNat 0 garbage with
      | (.error e, es) => (.error e, es)
      | (.ok groupBuf, es) =>
        (.ok (List.zipWith (childBuf groupBuf) sections offsets, groupBuf), es)

/-! ## Tensors -/

/-- What `create_iobuf_info` makes of a tensor; `none` when its section does not exist. -/
def tensorBuffer (reuseBuf : List BufferDesc) (desc : IoTensorDesc) : Option TensorBuffer :=
  reuseBuf[desc.refSectionIter.toNat]?.map fun buf =>
    { id := desc.id.toNat, size := desc.size.toNat,
      va := wrap 64 (buf.va + desc.offsetInSection.toNat)
      pa := wrap 64 (buf.pa + desc.offsetInSection.toNat) }

/-- `create_iobuf_info` -/
def createIobufInfo (reuseBuf : List BufferDesc) (descs : List IoTensorDesc) :
    Option (List TensorBuffer) := descs.mapM (tensorBuffer reuseBuf)

/-- The tensors of a thread buffer. -/
def createIobufInfos (reuseBuf : List BufferDesc) (info : GraphInfo) : Option IobufInfo := do
  let inputs ← createIobufInfo reuseBuf info.inputs
  let outputs ← createIobufInfo reuseBuf info.outputs
  let interDumps ← createIobufInfo reuseBuf info.interDumps
  let pdata ← createIobufInfo reuseBuf info.pdata
  let plogData ← createIobufInfo reuseBuf info.plogData
  some { inputs, outputs, interDumps, pdata, plogData }

/-! ## Errors -/

/-- `malloc_buf` reports no success as an error. -/
theorem mallocBuf_error {kernel : KernelMalloc} {dtype size align regionId : ℕ} {old : BufferDesc}
    {e : AipuStatus} {es : List BufferEvent}
    (h : mallocBuf kernel dtype size align regionId old = (.error e, es)) : e ≠ .success := by
  unfold mallocBuf at h
  split_ifs at h
  · obtain ⟨heq, -⟩ := Prod.mk.inj h
    obtain rfl := Except.error.inj heq
    simp
  · split at h
    · cases h
    · obtain ⟨heq, -⟩ := Prod.mk.inj h
      obtain rfl := Except.error.inj heq
      simp

/-- Nor does `alloc_text_buffer`. -/
theorem allocTextBuffer_error {kernel : KernelMalloc} {templ : PbufAllocTempl} {old : BufferDesc}
    {e : AipuStatus} {es : List BufferEvent}
    (h : allocTextBuffer kernel templ old = (.error e, es)) : e ≠ .success := by
  unfold allocTextBuffer at h
  split_ifs at h
  · obtain ⟨heq, -⟩ := Prod.mk.inj h
    obtain rfl := Except.error.inj heq
    simp
  · exact mallocBuf_error h

/-- Nor does `alloc_group_buffers`, whose only request it is that fails. -/
theorem allocGroupBuffers_error {kernel : KernelMalloc} {sections : List SectionDesc} {dtype : ℕ}
    {garbage old : BufferDesc} {e : AipuStatus} {es : List BufferEvent}
    (h : allocGroupBuffers kernel sections dtype garbage old = some (.error e, es)) :
    e ≠ .success := by
  unfold allocGroupBuffers at h
  split at h
  · cases h
  next first rest =>
    obtain ⟨⟨offsets, totBytes⟩, -, h⟩ := Option.map_eq_some_iff.mp h
    dsimp only at h
    split at h
    next e' es' hbuf =>
      obtain ⟨heq, -⟩ := Prod.mk.inj h
      obtain rfl := Except.error.inj heq
      exact mallocBuf_error hbuf
    · cases h

end Aipu
