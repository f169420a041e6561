import AipuDriver.Lib.Cursor
import AipuDriver.Lib.Word
import AipuDriver.Kmd.Interface

/-!
# Sessions (`aipu_session.c`, `aipu_thread_waitqueue.c`)

A session keeps the buffers and the jobs of one open file.  Both lists are given without their
heads; `list_add` puts an entry in front.  A session job carries the number `id`, which stands for
its address.

Functions that take the answer of a single `kzalloc` take it as a flag; those that may run several
take the oracle.  The result is `none` where the source would dereference the null pointer of a
failed `kzalloc`.
-/

namespace Aipu

open ListSearch Word

/-! ## Data -/

/-- `struct session_buf` -/
structure SessionBuf where
  desc : AipuBuffer
  devOffset : ℕ
  type : AipuMemType
  mapNum : ℤ
deriving DecidableEq, Repr

/-- `struct session_job`, without the profiling data. -/
structure SessionJob where
  /-- The address of the structure. -/
  id : ℕ
  uthreadId : ℤ
  desc : UserJobDesc
  state : AipuJobState
  exceptionType : ℤ
deriving DecidableEq, Repr

/-- `struct aipu_thread_wait_queue` -/
structure AipuThreadWaitQueue where
  uthreadId : ℤ
  refCnt : ℤ
deriving DecidableEq, Repr

/-- `struct aipu_session` -/
structure AipuSession where
  userPid : ℤ
  sbufList : List SessionBuf := []
  jobList : List SessionJob := []
  waitQueue : List AipuThreadWaitQueue := []
  singleThreadPoll : Bool := false
deriving DecidableEq, Repr

/-- A wait queue of a session: `com_wait`, or the queue of a thread. -/
inductive PollQueue
  | com
  | thread (uthreadId : ℤ)
deriving DecidableEq, Repr

/-- `struct vm_area_struct` as the kernel passes it to the driver: a range of whole pages. -/
structure VmAreaStruct where
  vmStart : ℕ
  vmEnd : ℕ
  vmPgoff : ℕ
  start_lt : vmStart < vmEnd
  end_lt : vmEnd < 2 ^ 64
  start_aligned : vmStart % pageSize = 0
  end_aligned : vmEnd % pageSize = 0

/-- The length of an area. -/
def VmAreaStruct.size (vma : VmAreaStruct) : ℕ := vma.vmEnd - vma.vmStart

/-! ## Thread wait queues -/

/-- `create_thread_wait_queue_no_lock` on the list of a session. -/
def createThreadWaitQueueNoLock (kz : Oracle) (head : List AipuThreadWaitQueue) (uthreadId : ℤ) :
    Option (List AipuThreadWaitQueue × Oracle) :=
  match seek (fun queue => queue.uthreadId = uthreadId) head with
  | some c => some (c.before ++ { c.entry with refCnt := c.entry.refCnt + 1 } :: c.after, kz)
  | none =>
    let (ok, kz) := kz.next
    -- `do_create_thread_wait_queue` initialises the queue without looking at the pointer
    if ok then some (head ++ [⟨uthreadId, 1⟩], kz) else none

/-! ## Session objects -/

/-- `aipu_create_session` -/
def aipuCreateSession (kz : Oracle) (pid : ℤ) : Option (ℤ × Option AipuSession) :=
  let (ok, kz) := kz.next
  if ok then
    let (ok, _) := kz.next
    -- the head of the thread wait queues
    if ok then some (0, some { userPid := pid }) else none
  else some (-enomem, none)

/-- `aipu_destroy_session`: its code, which is zero when the session was freed. -/
def aipuDestroySession (session : AipuSession) : ℤ :=
  if session.jobList = [] ∧ session.sbufList = [] then 0 else mapErrcode .internalNullptr

/-! ## Buffers -/

/-- `find_buffer_bydesc_no_lock` -/
def findBufferBydescNoLock (session : AipuSession) (bufDesc : BufDesc) :
    Option (Cursor SessionBuf) :=
  seek (fun sbuf => sbuf.desc.pa = bufDesc.pa ∧ sbuf.desc.bytes = bufDesc.bytes) session.sbufList

/-- `find_buffer_byoffset_no_lock`; the comparison converts the `int` length to `u64`. -/
def findBufferByoffsetNoLock (session : AipuSession) (offset len : ℕ) :
    Option (Cursor SessionBuf) :=
  seek (fun sbuf => sbuf.devOffset = offset ∧ signExtend 32 64 len ≤ sbuf.desc.bytes)
    session.sbufList

/-- `create_session_buf` -/
def createSessionBuf (kzOk : Bool) (desc : AipuBuffer) (devOffset : ℕ) : Option SessionBuf :=
  if kzOk then some { desc := desc, devOffset := devOffset, type := desc.type, mapNum := 0 }
  else none

/-- `aipu_session_add_buf` -/
def aipuSessionAddBuf (kzOk : Bool) (session : AipuSession) (bufReq : BufRequest)
    (buf : AipuBuffer) : ℤ × AipuSession × BufRequest :=
  match createSessionBuf kzOk buf buf.pa with
  | none => (mapErrcode .createKobjErr, session, { bufReq with errcode := .createKobjErr })
  | some newSbuf =>
    (0, { session with sbufList := newSbuf :: session.sbufList },
      { bufReq with
        desc := { pa := buf.pa, devOffset := buf.pa, bytes := buf.bytes, regionId := buf.regionId }
        errcode := .noError })

/-- `aipu_session_detach_buf` -/
def aipuSessionDetachBuf (session : AipuSession) (bufDesc : BufDesc) : ℤ × AipuSession :=
  match findBufferBydescNoLock session bufDesc with
  | none => (mapErrcode .itemNotFound, session)
  | some c => (0, { session with sbufList := c.before ++ c.after })

/-- `aipu_get_session_sbuf_head` -/
def aipuGetSessionSbufHead (session : AipuSession) : Option AipuBuffer :=
  session.sbufList.head?.map (·.desc)

/-! ## Mapping -/

/-- `dma_mmap_coherent` for a buffer of `bytes` bytes at `pa`: it refuses an area with more pages
than the buffer has, and otherwise returns the answer `err`.  Next to its code, the physical range
that it maps. -/
def dmaMmapCoherent (err : ℤ) (vma : VmAreaStruct) (pa bytes : ℕ) : ℤ × Option (ℕ × ℕ) :=
  if vma.size / pageSize ≤ (bytes + (pageSize - 1)) / pageSize then
    if err = 0 then (0, some (pa / pageSize * pageSize, vma.size)) else (err, none)
  else (-enxio, none)

/-- `remap_pfn_range` of `size` bytes from the page frame `pfn` on, with the answer `err`. -/
def remapPfnRange (err : ℤ) (pfn size : ℕ) : ℤ × Option (ℕ × ℕ) :=
  if err = 0 then (0, some (pfn * pageSize, size)) else (err, none)

/-- The call of the kernel function that maps a buffer of the type at hand. -/
def SessionBuf.mapInto (buf : SessionBuf) (err : ℤ) (vma : VmAreaStruct) : ℤ × Option (ℕ × ℕ) :=
  match buf.type with
  | .cma => dmaMmapCoherent err vma buf.desc.pa buf.desc.bytes
  | .sram | .reserved => remapPfnRange err (buf.desc.pa / pageSize) vma.size

/-- `aipu_session_mmap_buf` with the answer `err` of the kernel function that maps: the code, the
session, the area, and the physical range that is mapped. -/
def aipuSessionMmapBuf (err : ℤ) (session : AipuSession) (vma : VmAreaStruct) :
    ℤ × AipuSession × VmAreaStruct × Option (ℕ × ℕ) :=
  let offset := wrap 64 (vma.vmPgoff * pageSize)
  match findBufferByoffsetNoLock session offset vma.size with
  | none => (mapErrcode .itemNotFound, session, vma, none)
  | some c =>
    let buf := c.entry
    if buf.mapNum ≠ 0 then (mapErrcode .invalidOps, session, vma, none)
    else
      let vmPgoff := vma.vmPgoff
      let vma := { vma with vmPgoff := 0 }
      let (ret, mapped) := buf.mapInto err vma
      let vma := { vma with vmPgoff := vmPgoff }
      if ret = 0 then
        (ret, { session with
          sbufList := c.before ++ { buf with mapNum := buf.mapNum + 1 } :: c.after }, vma, mapped)
      else (ret, session, vma, mapped)

/-! ## Jobs -/

/-- `init_session_job` on the structure at the address `id`, in the thread `tid`. -/
def initSessionJob (id : ℕ) (tid : ℤ) (desc : UserJobDesc) : SessionJob :=
  { id := id, uthreadId := tid, desc := desc, state := .idle,
    exceptionType := aipuExcepNoException }

/-- `aipu_session_add_job` in the thread `tid`: the new session job, if any. -/
def aipuSessionAddJob (kz : Oracle) (tid : ℤ) (id : ℕ) (session : AipuSession)
    (userJob : UserJob) : Option (Option SessionJob × AipuSession × UserJob) :=
  let (ok, kz) := kz.next
  if ok then
    let kernJob := initSessionJob id tid userJob.desc
    match createThreadWaitQueueNoLock kz session.waitQueue kernJob.uthreadId with
    | none => none
    | some (waitQueue, _) =>
      some (some kernJob,
        { session with jobList := kernJob :: session.jobList, waitQueue := waitQueue },
        { userJob with errcode := .noError })
  else some (none, session, { userJob with errcode := .createKobjErr })

/-- `aipu_session_delete_jobs` -/
def aipuSessionDeleteJobs (session : AipuSession) : AipuSession := { session with jobList := [] }

/-- The queue that `aipu_session_job_done` wakes for the job. -/
def AipuSession.wakeQueue (session : AipuSession) (job : SessionJob) : Option PollQueue :=
  if session.singleThreadPoll then
    if session.waitQueue.any (·.uthreadId = job.uthreadId) then some (.thread job.uthreadId)
    else none
  else some .com

/-- `aipu_session_job_done` for the session job at the address `job`, and the queue it wakes.  The
exception flag is only logged.  A write through a pointer to a freed job is not part of the
model. -/
def aipuSessionJobDone (session : AipuSession) (job : ℕ) (_excepFlag : ℤ) :
    AipuSession × Option PollQueue :=
  match seek (fun sj => sj.id = job) session.jobList with
  | none => (session, none)
  | some c =>
    let done := { c.entry with state := .finished, exceptionType := aipuExcepNoException }
    ({ session with jobList := c.before ++ done :: c.after }, session.wakeQueue done)

/-! ## Status queries -/

/-- `aipu_session_thread_has_end_job` -/
def aipuSessionThreadHasEndJob (session : AipuSession) (uthreadId : ℤ) : Bool :=
  let wakeUpSingle := session.jobList.any (·.uthreadId = uthreadId)
  session.jobList.any fun sj =>
    sj.state = .finished ∧ (wakeUpSingle → sj.uthreadId = uthreadId)

/-- The record that `aipu_session_get_job_status` makes of a session job. -/
def AipuSession.statusOf (session : AipuSession) (cursor : SessionJob) : JobStatusDesc :=
  { jobId := cursor.desc.jobId, threadId := session.userPid,
    state := if cursor.exceptionType = aipuExcepNoException then .done else .exception }

/-- A session job that the query asks for. -/
def JobStatusQuery.matches (query : JobStatusQuery) (cursor : SessionJob) : Bool :=
  ((cursor.desc.jobId = query.jobId ∧ query.getSingleJob) ∨ query.getSingleJob = false) ∧
    cursor.state = .finished

/-- The loop of `aipu_session_get_job_status`, with `pollCnt` records made so far: the jobs that
stay in the list and the jobs removed from it, in list order. -/
def collectStatus (query : JobStatusQuery) : ℕ → List SessionJob → List SessionJob × List SessionJob
  | _, [] => ([], [])
  | pollCnt, cursor :: rest =>
    if pollCnt = query.maxCnt then (cursor :: rest, [])
    else if query.matches cursor then
      if query.getSingleJob then (rest, [cursor])
      else
        let (kept, taken) := collectStatus query (pollCnt + 1) rest
        (kept, cursor :: taken)
    else
      let (kept, taken) := collectStatus query pollCnt rest
      (cursor :: kept, taken)

/-- What `aipu_session_get_job_status` returns: its code, the session, the query with its counter
and error code, and the session jobs whose records were written to the status array. -/
structure StatusResult where
  ret : ℤ
  session : AipuSession
  query : JobStatusQuery
  taken : List SessionJob
deriving DecidableEq

/-- `aipu_session_get_job_status`; `notCopied` is what `copy_to_user` returns. -/
def aipuSessionGetJobStatus (kzOk : Bool) (notCopied : ℕ) (session : AipuSession)
    (query : JobStatusQuery) : StatusResult :=
  if query.maxCnt < 1 then
    ⟨mapErrcode .invalidArgs, session, { query with errcode := .invalidArgs }, []⟩
  else if kzOk then
    let (kept, taken) := collectStatus query 0 session.jobList
    let session := { session with jobList := kept }
    let query := { query with pollCnt := taken.length }
    if query.pollCnt = 0 then
      ⟨mapErrcode .itemNotFound, session, { query with errcode := .itemNotFound }, taken⟩
    else
      ⟨notCopied, session, if notCopied = 0 then { query with errcode := .noError } else query,
        taken⟩
  else ⟨mapErrcode .noMemory, session, { query with errcode := .noMemory }, []⟩

/-- `aipu_session_add_poll_wait_queue`: the session, and the queues that the poll registers on. -/
def aipuSessionAddPollWaitQueue (session : AipuSession) (uthreadId : ℤ) :
    AipuSession × List PollQueue :=
  let found := session.jobList.any (·.uthreadId = uthreadId) ∧
    session.waitQueue.any (·.uthreadId = uthreadId)
  let session' := if found then { session with singleThreadPoll := true } else session
  (session', (if found then [.thread uthreadId] else []) ++
    if session'.singleThreadPoll then [] else [.com])

end Aipu
