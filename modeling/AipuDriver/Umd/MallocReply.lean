import AipuDriver.Kmd.AllocationFailure
import AipuDriver.Kmd.MmapLength
import AipuDriver.Umd.Buffers

/-!
# What `dev_op_wrapper_malloc` reports

REQBUF answers through the return value of the ioctl and through the error code in `struct
buf_request`, and `dev_op_wrapper_malloc` returns the error code when one of them is an error.
Where the kernel driver sets only the return value, the wrapper returns zero without a buffer: for
an alignment of zero, when there is no region, and when the request could not be copied.

The ioctl and the call of `mmap` meet the session in states of their own, with anything in between.
-/

namespace Aipu

open ListSearch Transition Word

/-! ## REQBUF -/

/-- What goes wrong in REQBUF: the bytes that are not copied from and to the user, whether the error
code is among those that are copied, and the answers of `kzalloc` to the memory manager and to the
session. -/
structure ReqbufFaults where
  notCopiedFrom : ℕ := 0
  notCopiedTo : ℕ := 0
  errcodeCopied : Bool := true
  kz : Oracle := []
  sbufOk : Bool := true

/-- What REQBUF does: its return value, the error code and the descriptor in the memory of the user,
and the buffer that was allocated and added to the session.  The descriptor is that of the kernel
only if all was copied. -/
structure ReqbufReply where
  ret : ℤ
  errcode : AipuErrcode
  desc : BufDesc
  granted : Option AipuBuffer

/-- The end of REQBUF: `copy_to_user`, whose failure is returned unless there was one before. -/
def ReqbufFaults.copyReply (f : ReqbufFaults) (ret : ℤ) (req : BufRequest)
    (granted : Option AipuBuffer) :
    ReqbufReply where
  ret := if ret = 0 ∧ f.notCopiedTo ≠ 0 then f.notCopiedTo else ret
  errcode := if f.notCopiedTo = 0 ∨ f.errcodeCopied = true then req.errcode else .noError
  desc := req.desc
  granted := granted

/-- REQBUF in `aipu_ioctl`, on the memory manager and the session at hand; `none` when a null
pointer is dereferenced. -/
def ReqbufFaults.reply (f : ReqbufFaults) (mm : AipuMemoryManager) (session : AipuSession) (tid : ℤ)
    (req : BufRequest) : Option ReqbufReply :=
  if f.notCopiedFrom ≠ 0 then some ⟨f.notCopiedFrom, req.errcode, req.desc, none⟩
  else match aipuMmAlloc f.kz tid mm req {} with
    | none => none
    | some r =>
      if r.ret = 0 then
        let (ret, _, req) := aipuSessionAddBuf f.sbufOk session r.req r.buf
        some (f.copyReply ret req (if ret = 0 then some r.buf else none))
      else some (f.copyReply r.ret r.req none)

/-! ## `mmap` -/

/-- The area has the length of the buffer in pages, and the offset of the buffer. -/
def VmAreaStruct.Serves (vma : VmAreaStruct) (desc : BufDesc) : Prop :=
  vma.size = (desc.bytes + (pageSize - 1)) / pageSize * pageSize ∧ vma.vmPgoff < 2 ^ 52 ∧
    vma.vmPgoff * pageSize = desc.devOffset

instance (vma : VmAreaStruct) (desc : BufDesc) :
    Decidable (vma.Serves desc) := inferInstanceAs (Decidable (_ ∧ _))

/-- `mmap` of a buffer, when the kernel has found the area, if any, and its function that maps
answers `err`: the address and the physical range, or `MAP_FAILED`. -/
def mmapBuffer (session : AipuSession) (desc : BufDesc) (area : Option VmAreaStruct) (err : ℤ) :
    Option (ℕ × (ℕ × ℕ)) :=
  match area with
  | none => none
  | some vma =>
    if vma.Serves desc then
      match aipuSessionMmapBuf err session vma with
      | (ret, _, _, mapped) => if ret = 0 then mapped.map (vma.vmStart, ·) else none
    else none

/-! ## The wrapper -/

/-- The value of an error code. -/
def AipuErrcode.value : AipuErrcode → ℤ
  | .noError => 0
  | .jobIdNotFound => 1
  | .jobNotEnd => 2
  | .jobProfDisabled => 3
  | .aipuNotFound => 4
  | .jobDescUnmatched => 5
  | .noMemory => 6
  | .noAlignMem => 7
  | .internalNullptr => 8
  | .platGetResFail => 9
  | .createKobjErr => 10
  | .invalidOps => 11
  | .invalidArgs => 12
  | .ioremapFail => 13
  | .invalidIntStat => 14
  | .itemNotFound => 15

/-- Only the code for success is zero. -/
@[simp]
theorem AipuErrcode.value_eq_zero {e : AipuErrcode} : e.value = 0 ↔ e = .noError := by
  cases e <;> simp [AipuErrcode.value]

/-- A call of `dev_op_wrapper_malloc`: what it returns, what it writes to `*buf`, the buffer that
the kernel driver has allocated and added to the session, and what `mmap` has mapped. -/
structure MallocCall where
  ret : ℤ
  buf : Option BufferDesc := none
  granted : Option AipuBuffer := none
  mapped : Option (ℕ × (ℕ × ℕ)) := none

/-- What the kernel meets and answers in a call of `dev_op_wrapper_malloc`: the memory manager, the
session when the buffer is added, the session when it is mapped, and the faults. -/
structure MallocWorld where
  mm : AipuMemoryManager
  session : AipuSession
  mmapSession : AipuSession
  tid : ℤ
  faults : ReqbufFaults
  area : Option VmAreaStruct
  mapErr : ℤ

/-- `dev_op_wrapper_malloc` -/
def MallocWorld.devOpWrapperMalloc (w : MallocWorld) (dtype size alignInPage regionId : ℕ) :
    Option MallocCall :=
  if size = 0 then some { ret := AipuErrcode.noMemory.value }
  else match w.faults.reply w.mm w.session w.tid
    (mallocRequest dtype size alignInPage regionId) with
    | none => none
    | some reply =>
      if reply.ret ≠ 0 ∨ reply.errcode ≠ .noError then
        some { ret := reply.errcode.value, granted := reply.granted }
      else match mmapBuffer w.mmapSession reply.desc w.area w.mapErr with
        | none => some { ret := -1, granted := reply.granted }
        | some (ptr, range) => some {
            ret := 0
            buf := some (reply.desc.bufferDesc ptr size)
            granted := reply.granted
            mapped := some (ptr, range) }

/-- `malloc_buf` -/
def MallocWorld.mallocBuf (w : MallocWorld) (dtype size alignInPage regionId : ℕ) :
    Option (AipuStatus × MallocCall) :=
  if size = 0 then some (.errorInvalidSize, { ret := 0 })
  else (w.devOpWrapperMalloc dtype size alignInPage regionId).map fun call =>
    (if call.ret ≠ 0 then .errorBufAllocFail else .success, call)

/-! ## Agreement -/

/-- The report of success is true, and then the buffer is that of the kernel at the address of its
mapping. -/
structure MallocCall.Agrees (call : MallocCall) (success : Prop) : Prop where
  reports : success ↔ call.granted.isSome = true ∧ call.mapped.isSome = true
  exact : success → ∃ granted ptr buf, call.granted = some granted ∧ call.buf = some buf ∧
    call.mapped = some (ptr, (granted.pa, (granted.bytes + (pageSize - 1)) / pageSize * pageSize)) ∧
    buf.va = ptr ∧ buf.pa = granted.pa ∧ buf.size = granted.bytes ∧ buf.regionId = granted.regionId

/-- The kernel driver has memory and objects for the request. -/
def MallocWorld.Grants (w : MallocWorld) (req : BufRequest) : Prop :=
  ((scanAnswered (req.kindIn (req.selects w.mm.version)) w.mm.scanned w.faults.kz).any fun out =>
    out.1) = true ∧
    w.faults.sbufOk = true

/-- The request is copied, it asks for an alignment, and there is a region; if the answer is not
copied whole, then it is a refusal whose error code is copied. -/
def MallocWorld.TellsErrors (w : MallocWorld) (req : BufRequest) : Prop :=
  w.faults.notCopiedFrom = 0 ∧ req.alignInPage ≠ 0 ∧ ¬(w.mm.sramCnt = 0 ∧ w.mm.ddrCnt = 0) ∧
    (w.faults.notCopiedTo = 0 ∨ w.faults.errcodeCopied = true ∧ ¬w.Grants req)

/-- A request for bytes with an alignment on a platform that has a region. -/
def AipuMemoryManager.Asked (mm : AipuMemoryManager) (req : BufRequest) : Prop :=
  req.bytes ≠ 0 ∧ req.alignInPage ≠ 0 ∧ ¬(mm.sramCnt = 0 ∧ mm.ddrCnt = 0)

/-- `aipu_mm_alloc` refuses such a request with an error code, and every other one without. -/
theorem aipuMmAlloc_errcode {kz : Oracle} {tid : ℤ} {mm : AipuMemoryManager} {req : BufRequest}
    {buf : AipuBuffer}
    {r : AllocResult AipuMemoryManager} (h : aipuMmAlloc kz tid mm req buf = some r) :
    (mm.Asked req ∧ (r.ret ≠ 0 → r.req.errcode = .noMemory)) ∨
      (¬mm.Asked req ∧ r.ret ≠ 0 ∧ r.req = req) := by
  unfold aipuMmAlloc at h
  dsimp only at h
  split_ifs at h with hzero hcnt
  · obtain rfl := Option.some.inj h
    exact .inr ⟨fun hasked => not_or.mpr ⟨hasked.1, hasked.2.1⟩ hzero, by simp [einval], rfl⟩
  · obtain rfl := Option.some.inj h
    exact .inr ⟨fun hasked => hasked.2.2 hcnt, by simp [enomem], rfl⟩
  · rename_i hsram
    exact absurd hsram.1 (by decide)
  · have hasked : mm.Asked req := ⟨fun h0 => hzero (.inl h0), fun h0 => hzero (.inr h0), hcnt⟩
    refine .inl ⟨hasked, fun hret => ?_⟩
    unfold allocFromDdr at h
    split at h
    · cases h
    · obtain rfl := Option.some.inj h
      exact congrArg BufRequest.errcode (if_neg hret)

section Agreement

variable {w : MallocWorld} {req : BufRequest} {reply : ReqbufReply}

/-- Whether the request is granted is known before the call. -/
theorem MallocWorld.grants_iff {r : AllocResult AipuMemoryManager}
    (h : aipuMmAlloc w.faults.kz w.tid w.mm req {} = some r) :
    w.Grants req ↔ r.ret = 0 ∧ w.faults.sbufOk = true := by
  have hanswered := @aipuMmAlloc_answered w.faults.kz w.tid req {} w.mm
  rw [h] at hanswered
  simp [MallocWorld.Grants, ← hanswered]

/-- A request that is refused with an error code: it is told iff the error code is copied. -/
theorem MallocWorld.refused_cases
    (htells : w.TellsErrors req ↔ w.faults.notCopiedTo = 0 ∨ w.faults.errcodeCopied = true ∧
      ¬w.Grants req)
    (hrefused : ¬w.Grants req) {ret : ℤ} (hret : ret ≠ 0) {req' : BufRequest}
    (hcode : req'.errcode ≠ .noError) :
    (w.TellsErrors req ∧ (w.faults.copyReply ret req' none).errcode ≠ .noError ∧
        (w.faults.copyReply ret req' none).granted = none) ∨
      (¬w.TellsErrors req ∧ (w.faults.copyReply ret req' none).ret ≠ 0 ∧
        (w.faults.copyReply ret req' none).errcode = .noError) := by
  by_cases hcopied : w.faults.notCopiedTo = 0 ∨ w.faults.errcodeCopied = true
  · exact .inl ⟨htells.mpr (hcopied.imp id fun hc => ⟨hc, hrefused⟩),
      by simp [ReqbufFaults.copyReply, hcopied, hcode], rfl⟩
  · exact .inr ⟨fun ht => hcopied ((htells.mp ht).imp id And.left),
      by simp [ReqbufFaults.copyReply, hret], if_neg hcopied⟩

/-- The three kinds of answers: the buffer is granted and described, the request is refused with an
error code, or an error is returned without an error code. -/
theorem MallocWorld.reply_cases (hbytes : req.bytes ≠ 0) (herr : req.errcode = .noError)
    (h : w.faults.reply w.mm w.session w.tid req = some reply) :
    (w.TellsErrors req ∧ reply.ret = 0 ∧ reply.errcode = .noError ∧ ∃ buf : AipuBuffer,
        reply.granted = some buf ∧
        reply.desc =
          { pa := buf.pa, devOffset := buf.pa, bytes := buf.bytes, regionId := buf.regionId }) ∨
      (w.TellsErrors req ∧ reply.errcode ≠ .noError ∧ reply.granted = none) ∨
      (¬w.TellsErrors req ∧ reply.ret ≠ 0 ∧ reply.errcode = .noError) := by
  unfold ReqbufFaults.reply at h
  split_ifs at h with hfrom
  · obtain rfl := Option.some.inj h
    exact .inr (.inr ⟨fun htells => hfrom htells.1, by simpa using hfrom, herr⟩)
  · have hfrom := not_not.mp hfrom
    cases halloc : aipuMmAlloc w.faults.kz w.tid w.mm req {} with
    | none =>
      rw [halloc] at h
      cases h
    | some r =>
      have hgrants := w.grants_iff halloc
      rw [halloc] at h
      dsimp only at h
      rcases aipuMmAlloc_errcode halloc with ⟨hasked, hcode⟩ | ⟨hasked, hret, hreq⟩
      · have htells : w.TellsErrors req ↔
            w.faults.notCopiedTo = 0 ∨ w.faults.errcodeCopied = true ∧ ¬w.Grants req := by
          simp [MallocWorld.TellsErrors, hfrom, hasked.2.1, hasked.2.2]
        by_cases hret : r.ret = 0
        · -- the memory is allocated, the session may refuse it
          rw [if_pos hret] at h
          cases hok : w.faults.sbufOk with
          | true =>
            have hgranted : w.Grants req := hgrants.mpr ⟨hret, hok⟩
            rw [hok] at h
            obtain rfl : w.faults.copyReply 0 { r.req with
                desc := { pa := r.buf.pa, devOffset := r.buf.pa, bytes := r.buf.bytes,
                          regionId := r.buf.regionId }
                errcode := .noError } (some r.buf) = reply := Option.some.inj h
            by_cases hto : w.faults.notCopiedTo = 0
            · exact .inl ⟨htells.mpr (.inl hto), by simp [ReqbufFaults.copyReply, hto],
                by simp [ReqbufFaults.copyReply], r.buf, rfl, rfl⟩
            · refine .inr (.inr ⟨fun ht => ?_, by simp [ReqbufFaults.copyReply, hto],
                by simp [ReqbufFaults.copyReply]⟩)
              exact (htells.mp ht).elim hto fun hrefused => hrefused.2 hgranted
          | false =>
            have hrefused : ¬w.Grants req := fun hg => by
              rw [(hgrants.mp hg).2] at hok
              cases hok
            rw [hok] at h
            obtain rfl : w.faults.copyReply (mapErrcode .createKobjErr)
                { r.req with errcode := .createKobjErr } none =
                reply := Option.some.inj h
            exact .inr (w.refused_cases htells hrefused (by simp) (by simp))
        · rw [if_neg hret] at h
          obtain rfl := Option.some.inj h
          have hrefused : ¬w.Grants req := fun hg => hret (hgrants.mp hg).1
          exact .inr (w.refused_cases htells hrefused hret (by simp [hcode hret]))
      · rw [if_neg hret] at h
        obtain rfl := Option.some.inj h
        refine .inr (.inr ⟨fun ht => hasked ⟨hbytes, ht.2.1, ht.2.2.1⟩,
          by simp [ReqbufFaults.copyReply, hret], ?_⟩)
        simp [ReqbufFaults.copyReply, hreq, herr]

/-- `mmap` maps the pages of the buffer, in a session whose buffers have their address as offset. -/
theorem mmapBuffer_range {session : AipuSession} {desc : BufDesc} {area : Option VmAreaStruct}
    {err : ℤ} {ptr : ℕ}
    {range : ℕ × ℕ} (hoff : ∀ sbuf ∈ session.sbufList, sbuf.devOffset = sbuf.desc.pa)
    (h : mmapBuffer session desc area err = some (ptr, range)) :
    range = (desc.devOffset, (desc.bytes + (pageSize - 1)) / pageSize * pageSize) := by
  unfold mmapBuffer at h
  split at h
  · cases h
  next vma =>
    split_ifs at h with hserves
    obtain ⟨hsize, hpgoff, hoffset⟩ := hserves
    rcases aipuSessionMmapBuf_cases err session vma with
      ⟨d, range', hfind, -, honto, hcall⟩ | ⟨ret, hret, hcall⟩
    · rw [hcall] at h
      obtain ⟨-, rfl⟩ : vma.vmStart = ptr ∧ range' = range := by simpa using h
      obtain ⟨hl, hfound, -⟩ := seek_eq_some hfind
      obtain ⟨hdev, -⟩ : d.entry.devOffset = wrap 64 (vma.vmPgoff * pageSize) ∧
          signExtend 32 64 vma.size ≤ d.entry.desc.bytes := by simpa using hfound
      have hwrap : wrap 64 (vma.vmPgoff * pageSize) = vma.vmPgoff * pageSize := by
        unfold pageSize
        exact wrap_of_lt (by omega)
      have hpa : d.entry.desc.pa = vma.vmPgoff * pageSize := by
        rw [← hoff d.entry (hl ▸ d.entry_mem), hdev, hwrap]
      obtain ⟨rfl, -⟩ := honto
      rw [hpa, Nat.mul_div_cancel _ (by decide), hoffset, hsize]
    · rw [hcall] at h
      dsimp only at h
      rw [if_neg hret] at h
      cases h

/-- A call for some bytes agrees with the kernel iff the errors are told. -/
theorem MallocWorld.devOpWrapperMalloc_agrees
    (hoff : ∀ sbuf ∈ w.mmapSession.sbufList, sbuf.devOffset = sbuf.desc.pa)
    {dtype size align regionId : ℕ}
    (hsize : size ≠ 0) {call : MallocCall}
    (h : w.devOpWrapperMalloc dtype size align regionId = some call) :
    call.Agrees (call.ret = 0) ↔ w.TellsErrors (mallocRequest dtype size align regionId) := by
  unfold MallocWorld.devOpWrapperMalloc at h
  rw [if_neg hsize] at h
  cases hreply : w.faults.reply w.mm w.session w.tid (mallocRequest dtype size align regionId) with
  | none =>
    rw [hreply] at h
    cases h
  | some reply =>
    rw [hreply] at h
    dsimp only at h
    rcases w.reply_cases hsize rfl hreply with ⟨htells, hret, hcode, buf, hgranted, hdesc⟩ |
      ⟨htells, hcode, hgranted⟩ | ⟨hsilent, hret, hcode⟩
    · refine iff_of_true ?_ htells
      rw [if_neg (by simp [hret, hcode])] at h
      cases hmap : mmapBuffer w.mmapSession reply.desc w.area w.mapErr with
      | none =>
        rw [hmap] at h
        obtain rfl := Option.some.inj h
        exact ⟨by simp, by simp⟩
      | some out =>
        obtain ⟨ptr, range⟩ := out
        have hrange := mmapBuffer_range hoff hmap
        rw [hmap] at h
        obtain rfl := Option.some.inj h
        refine ⟨by simp [hgranted], fun _ => ⟨buf, ptr, _, hgranted, rfl, ?_, rfl, ?_, ?_, ?_⟩⟩
        · rw [hrange, hdesc]
        all_goals simp only [BufDesc.bufferDesc, hdesc]
    · refine iff_of_true ?_ htells
      rw [if_pos (.inr hcode)] at h
      obtain rfl := Option.some.inj h
      exact ⟨by simp [hcode], by simp [hcode]⟩
    · refine iff_of_false (fun hagrees => ?_) hsilent
      rw [if_pos (.inl hret)] at h
      obtain rfl := Option.some.inj h
      have hmapped := (hagrees.reports.mp (by simp [hcode])).2
      cases hmapped

/-! ## The answers -/

/-- The buffer that REQBUF has granted, by its address and its size. -/
def BufferEvent.grantedRange : BufferEvent → Option (ℕ × ℕ)
  | .allocated buf => some (buf.pa, buf.size)
  | .lost desc => some (desc.pa, desc.bytes)
  | .freed _ => none

/-- Each call of `malloc_buf` gets one of the answers, when `mmap` maps bytes and not at the null
pointer; it is silent only when an error is not told. -/
theorem MallocWorld.mallocBuf_answer {w : MallocWorld} {dtype size alignInPage regionId : ℕ}
    {status : AipuStatus} {call : MallocCall}
    (h : w.mallocBuf dtype size alignInPage regionId = some (status, call))
    (hmaps : ∀ buf, call.buf = some buf → buf.size ≠ 0 ∧ buf.va ≠ 0) (old : BufferDesc) :
    ∃ (answer : MallocAnswer) (es : List BufferEvent),
      Aipu.mallocBuf (fun _ => answer) dtype size alignInPage regionId old =
        (if status = .success then .ok (call.buf.getD old) else .error status, es) ∧
      es.filterMap BufferEvent.grantedRange =
        call.granted.toList.map (fun buf => (buf.pa, buf.bytes)) ∧
      (w.TellsErrors (mallocRequest dtype size alignInPage regionId) →
        ∀ granted, answer ≠ .silent granted) := by
  unfold MallocWorld.mallocBuf at h
  unfold Aipu.mallocBuf Aipu.devOpWrapperMalloc
  split_ifs at h with hsize
  · obtain ⟨rfl, rfl⟩ := Prod.mk.inj (Option.some.inj h)
    exact ⟨.refused, [], by rw [if_pos hsize]; rfl, rfl, fun _ _ => nofun⟩
  · obtain ⟨call', hcall, heq⟩ := Option.map_eq_some_iff.mp h
    obtain ⟨rfl, rfl⟩ := Prod.mk.inj heq
    unfold MallocWorld.devOpWrapperMalloc at hcall
    rw [if_neg hsize] at hcall
    simp only [if_neg hsize]
    cases hreply :
      w.faults.reply w.mm w.session w.tid (mallocRequest dtype size alignInPage regionId) with
    | none =>
      rw [hreply] at hcall
      cases hcall
    | some reply =>
      rw [hreply] at hcall
      dsimp only at hcall
      rcases w.reply_cases hsize rfl hreply with
        ⟨-, hret, hcode, buf, hgranted, hdesc⟩ | ⟨-, hcode, hgranted⟩ | ⟨hsilent, hret, hcode⟩
      · rw [if_neg (by simp [hret, hcode])] at hcall
        have hpa : reply.desc.pa = buf.pa := by rw [hdesc]
        have hbytes : reply.desc.bytes = buf.bytes := by rw [hdesc]
        split at hcall
        next hmap =>
          obtain rfl := Option.some.inj hcall
          refine ⟨.unmapped reply.desc, [.lost reply.desc], rfl, ?_, fun _ _ => nofun⟩
          simp [BufferEvent.grantedRange, hgranted, hpa, hbytes]
        next ptr range hmap =>
          obtain rfl := Option.some.inj hcall
          obtain ⟨hlen, hptr⟩ := hmaps _ rfl
          refine ⟨.mapped reply.desc ptr hlen hptr,
            [.allocated (reply.desc.bufferDesc ptr size)], rfl, ?_, fun _ _ => nofun⟩
          simp [BufferEvent.grantedRange, BufDesc.bufferDesc, hgranted, hpa, hbytes]
      · rw [if_pos (.inr hcode)] at hcall
        obtain rfl := Option.some.inj hcall
        exact ⟨.refused, [], by simp [hcode], by rw [hgranted]; rfl, fun _ _ => nofun⟩
      · rw [if_pos (.inl hret)] at hcall
        obtain rfl := Option.some.inj hcall
        refine ⟨.silent (reply.granted.map fun buf => { pa := buf.pa, bytes := buf.bytes }),
          reply.granted.toList.map fun buf => .lost { pa := buf.pa, bytes := buf.bytes }, ?_, ?_,
          fun htells => absurd htells hsilent⟩
        · cases reply.granted <;> simp [hcode]
        · cases reply.granted <;> rfl

end Agreement

/-- **The report of `dev_op_wrapper_malloc`.**  Whatever REQBUF and `mmap` meet in the kernel, where
`mmap` meets the session of a file in a reachable state: the reports of `dev_op_wrapper_malloc` and
`malloc_buf` are true, and on success the buffer is that of the kernel, iff no bytes are asked for
or the errors are told. -/
theorem malloc_agrees_iff {version : AipuVersion} {map : MemoryMap} {maxSchedNum : ℤ} {k : Kmd}
    (hk : (kmdSystem version map maxSchedNum).Reachable anyStep k) {f : KmdFile} (hf : f ∈ k.files)
    {w : MallocWorld}
    (hw : w.mmapSession = f.session) {dtype size align regionId : ℕ} {call call' : MallocCall}
    {status : AipuStatus} (hmalloc : w.devOpWrapperMalloc dtype size align regionId = some call)
    (hmallocBuf : w.mallocBuf dtype size align regionId = some (status, call')) :
    call.Agrees (call.ret = 0) ∧ call'.Agrees (status = .success) ↔
      size = 0 ∨ w.TellsErrors (mallocRequest dtype size align regionId) := by
  obtain ⟨tr, hrun⟩ := hk
  have hoff : ∀ sbuf ∈ w.mmapSession.sbufList, sbuf.devOffset = sbuf.desc.pa := by
    rw [hw]
    exact kmdSystem_devOffset hrun f hf
  by_cases hsize : size = 0
  · refine iff_of_true ⟨?_, ?_⟩ (.inl hsize)
    · rw [MallocWorld.devOpWrapperMalloc, if_pos hsize] at hmalloc
      obtain rfl := Option.some.inj hmalloc
      exact ⟨by simp, by simp⟩
    · rw [MallocWorld.mallocBuf, if_pos hsize] at hmallocBuf
      obtain ⟨rfl, rfl⟩ := Prod.mk.inj (Option.some.inj hmallocBuf)
      exact ⟨by simp, by simp⟩
  · rw [MallocWorld.mallocBuf, if_neg hsize, hmalloc] at hmallocBuf
    obtain ⟨rfl, rfl⟩ := Prod.mk.inj (Option.some.inj hmallocBuf)
    have hstatus : (if call.ret ≠ 0 then AipuStatus.errorBufAllocFail else .success) = .success ↔
        call.ret = 0 := by
      by_cases hret : call.ret = 0 <;> simp [hret]
    have hsame :
        call.Agrees ((if call.ret ≠ 0 then AipuStatus.errorBufAllocFail else .success) = .success) ↔
        call.Agrees (call.ret = 0) := by
      rw [hstatus]
    rw [hsame, and_self, or_iff_right hsize]
    exact w.devOpWrapperMalloc_agrees hoff hsize hmalloc

/-- A world without faults, over the platform with one free region and the sessions before and after
the request. -/
def sampleWorld (before after : AipuSession) : MallocWorld where
  mm := openedKmd.mm
  session := before
  mmapSession := after
  tid := 7
  faults := {}
  area := some sampleVma
  mapErr := 0

/-- Two pages of text are allocated and mapped. -/
theorem malloc_agrees_sample : ∃ k f call,
    (kmdSystem .zhouyiV2 sampleMap 1).Reachable anyStep k ∧ f ∈ k.files ∧
    (sampleWorld { userPid := 7 } f.session).devOpWrapperMalloc aipuMmDataTypeText 5000 1 0 =
    some call ∧
    call.ret = 0 ∧ call.mapped = some (sampleVma.vmStart, (0x100000, 0x2000)) ∧
    call.Agrees (call.ret = 0) := by
  obtain ⟨k, es, f, hexec, hfiles, call, hcall, hret, hmapped⟩ :
      ∃ k es f, (kmdSystem .zhouyiV2 sampleMap 1).exec anyStep sampleKmd
        [.openFile 7 [], .reqAlloc 0 7 [] sampleReq {}, .reqAdd 0 sampleReq sampleBuf true] =
          some (k, es) ∧ k.files = [f] ∧ ∃ call,
        (sampleWorld { userPid := 7 } f.session).devOpWrapperMalloc aipuMmDataTypeText 5000 1 0 =
        some call ∧
        call.ret = 0 ∧ call.mapped = some (sampleVma.vmStart, (0x100000, 0x2000)) :=
    ⟨_, _, _, rfl, rfl, _, rfl, by decide +kernel, by decide +kernel⟩
  have hk : (kmdSystem .zhouyiV2 sampleMap 1).Reachable anyStep k :=
    ⟨es, System.run_of_exec sampleKmd_init hexec⟩
  have hf : f ∈ k.files := by simp [hfiles]
  have hbuf : (sampleWorld { userPid := 7 } f.session).mallocBuf aipuMmDataTypeText 5000 1 0 =
      some (.success, call) := by
    rw [MallocWorld.mallocBuf, if_neg (by decide), hcall]
    simp [hret]
  have htells : (sampleWorld { userPid := 7 } f.session).TellsErrors
      (mallocRequest aipuMmDataTypeText 5000 1 0) :=
    ⟨rfl, by decide, (by decide +kernel : ¬(sampleMm.sramCnt = 0 ∧ sampleMm.ddrCnt = 0)), .inl rfl⟩
  exact ⟨k, f, call, hk, hf, hcall, hret, hmapped,
    ((malloc_agrees_iff hk hf rfl hcall hbuf).mpr (.inr htells)).1⟩

/-- A request with an alignment of zero is refused, and the report is success without a buffer. -/
theorem malloc_reports_no_buffer :
    (kmdSystem .zhouyiV2 sampleMap 1).Reachable anyStep openedKmd ∧
      ∃ call, (sampleWorld { userPid := 7 } { userPid := 7 }).mallocBuf
        aipuMmDataTypeReuse 4096 0 0 =
        some (.success, call) ∧ call.ret = 0 ∧ call.granted = none ∧ call.buf = none ∧
          ¬call.Agrees (call.ret = 0) := by
  refine ⟨openedKmd_reachable, { ret := 0 }, rfl, rfl, rfl, rfl, fun hagrees => ?_⟩
  have hgranted := (hagrees.reports.mp rfl).1
  cases hgranted

end Aipu
