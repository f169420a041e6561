import AipuDriver.Kmd.JobManager
import AipuDriver.Kmd.MmSystem
import AipuDriver.Kmd.Session

/-!
# The driver (`aipu_fops.c`)

The driver puts the memory manager, the job manager and the sessions of the open files together.
A call of the driver takes several locks in turn, and anything may happen between two of them.  One
step of the system is therefore what a call does under one lock:

* `IPUIOC_REQBUF` is `aipu_mm_alloc`, then `aipu_session_add_buf`;
* `IPUIOC_FREEBUF` is `aipu_session_detach_buf`, then `aipu_mm_free`;
* `IPUIOC_RUNJOB` is `aipu_session_add_job`, then `aipu_job_manager_schedule_new_job`;
* the release of a file cancels its jobs, deletes its session jobs, frees its buffers one by one,
  each by `aipu_mm_free` and then `aipu_session_detach_buf`, and destroys the session;
* `aipu_poll` registers on wait queues, then looks for a job that has ended.

The list `ops` holds the calls that are between their two steps.  The kernel releases a file when
no call on it is in progress and no area of it is mapped.

Sessions and session jobs are numbered and numbers are not used again.  What the job manager reads
through a pointer to a freed object is part of the action; every read is logged together with
whether its object was alive, and a write through such a pointer changes nothing here.
-/

namespace Aipu

open ListSearch Transition

/-! ## State -/

/-- How far the release of a file has come. -/
inductive ReleasePhase
  | opened
  /-- `aipu_job_manager_cancel_session_jobs` has released its lock. -/
  | canceled
  /-- `aipu_mm_free_session_buffers` is at the head of its loop. -/
  | freeing
  /-- The memory of the first buffer was freed. -/
  | freed (desc : BufDesc)
  /-- No buffer is left. -/
  | buffersFreed
  /-- `aipu_release` has returned an error. -/
  | failed
deriving DecidableEq, Repr

/-- An open file, or one whose release is not complete. -/
structure KmdFile where
  /-- The number of the file and the address of its session. -/
  id : ℕ
  session : AipuSession
  phase : ReleasePhase
  /-- The physical ranges mapped by `aipu_mmap` and not unmapped, as base and length. -/
  maps : List (ℕ × ℕ)
deriving DecidableEq, Repr

/-- A call between its two steps. -/
inductive KmdOp
  | reqbuf (file : ℕ) (req : BufRequest) (buf : AipuBuffer)
  | freebuf (file : ℕ) (desc : BufDesc)
  | runjob (file : ℕ) (userJob : UserJob) (kernJob : SessionJob)
deriving DecidableEq, Repr

/-- The file on which a call is made. -/
def KmdOp.file : KmdOp → ℕ
  | .reqbuf file _ _ => file
  | .freebuf file _ => file
  | .runjob file _ _ => file

/-- The state of the driver. -/
structure Kmd where
  mm : AipuMemoryManager
  js : JmState
  files : List KmdFile
  ops : List KmdOp
  nextFile : ℕ
  nextSessionJob : ℕ
deriving DecidableEq

/-- The files with the one at the cursor replaced. -/
def Kmd.setFile (k : Kmd) (c : Cursor KmdFile) (f : KmdFile) : Kmd :=
  { k with files := c.before ++ f :: c.after }

/-- The file `file` when it is in the phase `phase`. -/
def Kmd.inPhase (k : Kmd) (file : ℕ) (phase : ReleasePhase) : Option (Cursor KmdFile) :=
  seek (fun f => f.id = file ∧ f.phase = phase) k.files

/-! ## Pointers of the job manager -/

/-- The session jobs of all sessions. -/
def Kmd.sessionJobs (k : Kmd) : List SessionJob := k.files.flatMap (·.session.jobList)

/-- What the job manager reads: the fields of sessions and session jobs that are alive, and `stale`
through all other pointers. -/
def Kmd.mem (k : Kmd) (stale : SessionMem) : SessionMem where
  userPid s :=
    match seek (fun f => f.id = s) k.files with
    | some c => c.entry.session.userPid
    | none => stale.userPid s
  enableProf j :=
    match seek (fun sj => sj.id = j) k.sessionJobs with
    | some c => c.entry.desc.enableProf
    | none => stale.enableProf j

/-- Whether the object that an event of the job manager reads is alive. -/
def Kmd.alive (k : Kmd) : JmEvent → Bool
  | .readSession s => k.files.any (·.id = s)
  | .readSessionJob j => k.sessionJobs.any (·.id = j)
  | _ => true

/-! ## Events and actions -/

/-- What happens in the driver. -/
inductive KmdEvent
  /-- An event of the job manager; `alive` says whether the object that it reads is alive. -/
  | job (e : JmEvent) (alive : Bool)
  /-- `aipu_mm_free` was called for the descriptor and returned `ret`. -/
  | freed (desc : BufDesc) (ret : ℤ)
  /-- A call on the file returned. -/
  | returned (file : ℕ) (ret : ℤ)
  /-- A status record, made of the session job `sessionJob`, was copied to user space. -/
  | reported (file sessionJob : ℕ) (status : JobStatusDesc)
  /-- A poll on the file registered on the queues. -/
  | registered (file : ℕ) (tid : ℤ) (queues : List PollQueue)
  | polled (file : ℕ) (tid : ℤ) (ready : Bool)
  | woken (file : ℕ) (queue : PollQueue)
deriving DecidableEq, Repr

/-- A step of the driver.  The calls name the file and, where it matters, the calling thread;
`kz` holds the answers of `kzalloc`, and `stale` is what is read through dangling pointers. -/
inductive KmdAction
  | openFile (pid : ℤ) (kz : Oracle)
  /-- REQBUF, first step; `buf` is the uninitialised buffer on the stack. -/
  | reqAlloc (file : ℕ) (tid : ℤ) (kz : Oracle) (req : BufRequest) (buf : AipuBuffer)
  /-- REQBUF, second step. -/
  | reqAdd (file : ℕ) (req : BufRequest) (buf : AipuBuffer) (kzOk : Bool)
  /-- FREEBUF, first step. -/
  | freeDetach (file : ℕ) (desc : BufDesc)
  /-- FREEBUF, second step. -/
  | freeMm (file : ℕ) (desc : BufDesc)
  /-- `aipu_mmap`, with the answer of the kernel function that maps. -/
  | mmap (file : ℕ) (vma : VmAreaStruct) (err : ℤ)
  /-- The kernel unmaps `len` bytes at the offset `front` of a mapped range. -/
  | munmap (file : ℕ) (map : ℕ × ℕ) (front len : ℕ)
  /-- RUNJOB, first step. -/
  | runAdd (file : ℕ) (tid : ℤ) (userJob : UserJob) (kz : Oracle)
  /-- RUNJOB, second step. -/
  | runSchedule (file : ℕ) (userJob : UserJob) (kernJob : SessionJob) (kzOk : Bool)
      (stale : SessionMem)
  /-- KILL_TIMEOUT_JOB -/
  | kill (file : ℕ) (tid : ℤ) (jobId : ℕ) (stale : SessionMem)
  /-- QUERYSTATUS, with what the two calls of `copy_to_user` return. -/
  | query (file : ℕ) (query : JobStatusQuery) (kzOk : Bool) (notCopied notCopiedQuery : ℕ)
  | pollRegister (file : ℕ) (tid : ℤ)
  | pollCheck (file : ℕ) (tid : ℤ)
  | upperHalf (flag : ℤ) (stale : SessionMem)
  | queueWork
  | bhStart
  | bhDone
  | bhResume
  | relCancel (file : ℕ) (stale : SessionMem)
  | relDelete (file : ℕ)
  | relFree (file : ℕ)
  | relDetach (file : ℕ)
  | relDestroy (file : ℕ)

/-! ## Steps -/

/-- A step of the job manager inside the driver. -/
def Kmd.runJm (k : Kmd) (a : JmAction) : Option (Kmd × List KmdEvent) :=
  match jmStep k.js a with
  | none => none
  | some (js, es) => some ({ k with js := js }, es.map fun e => .job e (k.alive e))

/-- `aipu_open` -/
def aipuOpen (k : Kmd) (pid : ℤ) (kz : Oracle) : Option (Kmd × List KmdEvent) :=
  match aipuCreateSession kz pid with
  | none => none
  | some (ret, none) => some (k, [.returned k.nextFile ret])
  | some (ret, some session) =>
    some ({ k with
      files := ⟨k.nextFile, session, .opened, []⟩ :: k.files
      nextFile := k.nextFile + 1 }, [.returned k.nextFile ret])

/-- REQBUF up to the return of `aipu_mm_alloc`. -/
def reqbufAlloc (k : Kmd) (file : ℕ) (tid : ℤ) (kz : Oracle) (req : BufRequest)
    (buf : AipuBuffer) : Option (Kmd × List KmdEvent) :=
  match k.inPhase file .opened with
  | none => none
  | some _ =>
    match aipuMmAlloc kz tid k.mm req buf with
    | none => none
    | some r =>
      if r.ret = 0 then some ({ k with mm := r.mem, ops := .reqbuf file r.req r.buf :: k.ops }, [])
      else some ({ k with mm := r.mem }, [.returned file r.ret])

/-- The rest of REQBUF. -/
def reqbufAdd (k : Kmd) (file : ℕ) (req : BufRequest) (buf : AipuBuffer) (kzOk : Bool) :
    Option (Kmd × List KmdEvent) :=
  if .reqbuf file req buf ∈ k.ops then
    match k.inPhase file .opened with
    | none => none
    | some c =>
      let (ret, session, _) := aipuSessionAddBuf kzOk c.entry.session req buf
      some ({ k.setFile c { c.entry with session := session } with
        ops := k.ops.erase (.reqbuf file req buf) }, [.returned file ret])
  else none

/-- FREEBUF up to the return of `aipu_session_detach_buf`. -/
def freebufDetach (k : Kmd) (file : ℕ) (desc : BufDesc) : Option (Kmd × List KmdEvent) :=
  match k.inPhase file .opened with
  | none => none
  | some c =>
    let (ret, session) := aipuSessionDetachBuf c.entry.session desc
    if ret = 0 then
      some ({ k.setFile c { c.entry with session := session } with
        ops := .freebuf file desc :: k.ops }, [])
    else some (k.setFile c { c.entry with session := session }, [.returned file ret])

/-- The rest of FREEBUF. -/
def freebufFree (k : Kmd) (file : ℕ) (desc : BufDesc) : Option (Kmd × List KmdEvent) :=
  if .freebuf file desc ∈ k.ops then
    let (ret, mm) := aipuMmFree k.mm desc
    some ({ k with mm := mm, ops := k.ops.erase (.freebuf file desc) },
      [.freed desc ret, .returned file ret])
  else none

/-- `aipu_mmap` -/
def aipuMmap (k : Kmd) (file : ℕ) (vma : VmAreaStruct) (err : ℤ) : Option (Kmd × List KmdEvent) :=
  match k.inPhase file .opened with
  | none => none
  | some c =>
    let (ret, session, _, mapped) := aipuSessionMmapBuf err c.entry.session vma
    some (k.setFile c { c.entry with session := session, maps := mapped.toList ++ c.entry.maps },
      [.returned file ret])

/-- What is left of a mapped range after `len` bytes at the offset `front` are unmapped. -/
def unmapPart (map : ℕ × ℕ) (front len : ℕ) : List (ℕ × ℕ) :=
  [(map.1, front), (map.1 + (front + len), map.2 - (front + len))].filter (·.2 ≠ 0)

/-- The kernel unmaps whole pages of a mapped range. -/
def munmapPages (k : Kmd) (file : ℕ) (map : ℕ × ℕ) (front len : ℕ) :
    Option (Kmd × List KmdEvent) :=
  match k.inPhase file .opened with
  | none => none
  | some c =>
    if map ∈ c.entry.maps ∧ front + len ≤ map.2 ∧ front % pageSize = 0 ∧ len % pageSize = 0 then
      some (k.setFile c { c.entry with
        maps := unmapPart map front len ++ c.entry.maps.erase map }, [])
    else none

/-- RUNJOB up to the return of `aipu_session_add_job`. -/
def runjobAdd (k : Kmd) (file : ℕ) (tid : ℤ) (userJob : UserJob) (kz : Oracle) :
    Option (Kmd × List KmdEvent) :=
  match k.inPhase file .opened with
  | none => none
  | some c =>
    match aipuSessionAddJob kz tid k.nextSessionJob c.entry.session userJob with
    | none => none
    | some (none, session, _) =>
      -- the code stays zero, the user sees the error code of the job
      some (k.setFile c { c.entry with session := session }, [.returned file 0])
    | some (some kernJob, session, userJob) =>
      some ({ k.setFile c { c.entry with session := session } with
        ops := .runjob file userJob kernJob :: k.ops
        nextSessionJob := k.nextSessionJob + 1 }, [])

/-- The rest of RUNJOB: `aipu_job_manager_schedule_new_job`. -/
def runjobSchedule (k : Kmd) (file : ℕ) (userJob : UserJob) (kernJob : SessionJob) (kzOk : Bool)
    (stale : SessionMem) : Option (Kmd × List KmdEvent) :=
  if .runjob file userJob kernJob ∈ k.ops then
    let k := { k with ops := k.ops.erase (.runjob file userJob kernJob) }
    if kzOk then
      match k.runJm (.submit (k.mem stale) ⟨kernJob.uthreadId, userJob.desc, file, kernJob.id⟩) with
      | none => none
      | some (k, es) => some (k, es ++ [.returned file 0])
    else some (k, [.returned file (mapErrcode .createKobjErr)])
  else none

/-- KILL_TIMEOUT_JOB -/
def killTimeoutJob (k : Kmd) (file : ℕ) (tid : ℤ) (jobId : ℕ) (stale : SessionMem) :
    Option (Kmd × List KmdEvent) :=
  match k.inPhase file .opened with
  | none => none
  | some _ => k.runJm (.kill (k.mem stale) tid jobId)

/-- QUERYSTATUS -/
def queryStatus (k : Kmd) (file : ℕ) (query : JobStatusQuery) (kzOk : Bool)
    (notCopied notCopiedQuery : ℕ) : Option (Kmd × List KmdEvent) :=
  match k.inPhase file .opened with
  | none => none
  | some c =>
    let r := aipuSessionGetJobStatus kzOk notCopied c.entry.session query
    let reports :=
      if notCopied = 0 then
        r.taken.map fun sj => KmdEvent.reported file sj.id (c.entry.session.statusOf sj)
      else []
    some (k.setFile c { c.entry with session := r.session },
      reports ++ [.returned file (if r.ret = 0 then notCopiedQuery else r.ret)])

/-- `aipu_poll`, up to the return of `aipu_session_add_poll_wait_queue`. -/
def aipuPollRegister (k : Kmd) (file : ℕ) (tid : ℤ) : Option (Kmd × List KmdEvent) :=
  match k.inPhase file .opened with
  | none => none
  | some c =>
    let (session, queues) := aipuSessionAddPollWaitQueue c.entry.session tid
    some (k.setFile c { c.entry with session := session }, [.registered file tid queues])

/-- The rest of `aipu_poll`. -/
def aipuPollCheck (k : Kmd) (file : ℕ) (tid : ℤ) : Option (Kmd × List KmdEvent) :=
  match k.inPhase file .opened with
  | none => none
  | some c => some (k, [.polled file tid (aipuSessionThreadHasEndJob c.entry.session tid)])

/-- The bottom half runs `aipu_session_job_done`. -/
def bottomHalfDone (k : Kmd) : Option (Kmd × List KmdEvent) :=
  match k.js.bh with
  | .calling curr _ =>
    match k.runJm .bhDone with
    | none => none
    | some (k, es) =>
      match seek (fun f => f.id = curr.session) k.files with
      | none => some (k, es)
      | some c =>
        let (session, woken) :=
          aipuSessionJobDone c.entry.session curr.sessionJob curr.exceptionFlag
        some (k.setFile c { c.entry with session := session },
          es ++ woken.toList.map (.woken c.entry.id))
  | _ => none

/-- `aipu_release`, the locked part of `aipu_job_manager_cancel_session_jobs`. -/
def releaseCancel (k : Kmd) (file : ℕ) (stale : SessionMem) : Option (Kmd × List KmdEvent) :=
  match k.inPhase file .opened with
  | none => none
  | some c =>
    if c.entry.maps = [] ∧ ∀ op ∈ k.ops, op.file ≠ file then
      match k.runJm (.cancel (k.mem stale) file) with
      | none => none
      | some (k, es) => some (k.setFile c { c.entry with phase := .canceled }, es)
    else none

/-- `aipu_release`, `aipu_session_delete_jobs`. -/
def releaseDelete (k : Kmd) (file : ℕ) : Option (Kmd × List KmdEvent) :=
  match k.inPhase file .canceled with
  | none => none
  | some c =>
    some (k.setFile c { c.entry with
      session := aipuSessionDeleteJobs c.entry.session, phase := .freeing }, [])

/-- `aipu_mm_free_session_buffers`, the first half of the loop body. -/
def releaseFree (k : Kmd) (file : ℕ) : Option (Kmd × List KmdEvent) :=
  match k.inPhase file .freeing with
  | none => none
  | some c =>
    match aipuGetSessionSbufHead c.entry.session with
    | none => some (k.setFile c { c.entry with phase := .buffersFreed }, [])
    | some buf =>
      let desc : BufDesc := { pa := buf.pa, bytes := buf.bytes }
      let (ret, mm) := aipuMmFree k.mm desc
      some ({ k.setFile c { c.entry with phase := if ret = 0 then .freed desc else .failed } with
        mm := mm }, [.freed desc ret])

/-- `aipu_mm_free_session_buffers`, the second half of the loop body after the memory of `desc` was
freed. -/
def releaseDetach (k : Kmd) (file : ℕ) : Option (Kmd × List KmdEvent) :=
  match seek (fun f => f.id = file) k.files with
  | none => none
  | some c =>
    match c.entry.phase with
    | .freed desc =>
      let (ret, session) := aipuSessionDetachBuf c.entry.session desc
      some (k.setFile c { c.entry with
        session := session, phase := if ret = 0 then .freeing else .failed }, [])
    | _ => none

/-- `aipu_release`, `aipu_destroy_session`. -/
def releaseDestroy (k : Kmd) (file : ℕ) : Option (Kmd × List KmdEvent) :=
  match k.inPhase file .buffersFreed with
  | none => none
  | some c =>
    let ret := aipuDestroySession c.entry.session
    if ret = 0 then some ({ k with files := c.before ++ c.after }, [.returned file ret])
    else some (k.setFile c { c.entry with phase := .failed }, [.returned file ret])

/-- One step of the driver. -/
def kmdStep (k : Kmd) : KmdAction → Option (Kmd × List KmdEvent)
  | .openFile pid kz => aipuOpen k pid kz
  | .reqAlloc file tid kz req buf => reqbufAlloc k file tid kz req buf
  | .reqAdd file req buf kzOk => reqbufAdd k file req buf kzOk
  | .freeDetach file desc => freebufDetach k file desc
  | .freeMm file desc => freebufFree k file desc
  | .mmap file vma err => aipuMmap k file vma err
  | .munmap file map front len => munmapPages k file map front len
  | .runAdd file tid userJob kz => runjobAdd k file tid userJob kz
  | .runSchedule file userJob kernJob kzOk stale => runjobSchedule k file userJob kernJob kzOk stale
  | .kill file tid jobId stale => killTimeoutJob k file tid jobId stale
  | .query file query kzOk notCopied notCopiedQuery =>
    queryStatus k file query kzOk notCopied notCopiedQuery
  | .pollRegister file tid => aipuPollRegister k file tid
  | .pollCheck file tid => aipuPollCheck k file tid
  | .upperHalf flag stale => k.runJm (.upperHalf (k.mem stale) flag)
  | .queueWork => k.runJm .queueWork
  | .bhStart => k.runJm .bhStart
  | .bhDone => bottomHalfDone k
  | .bhResume => k.runJm .bhResume
  | .relCancel file stale => releaseCancel k file stale
  | .relDelete file => releaseDelete k file
  | .relFree file => releaseFree k file
  | .relDetach file => releaseDetach k file
  | .relDestroy file => releaseDestroy k file

/-- The runs of the driver of a platform without logic reset. -/
def kmdSystem (version : AipuVersion) (map : MemoryMap) (maxSchedNum : ℤ) :
    System Kmd KmdAction KmdEvent where
  init k :=
    bringUp version map = some k.mm ∧ (∃ idle, k.js = .initial maxSchedNum false idle) ∧
      k.files = [] ∧ k.ops = []
  step := kmdStep

end Aipu
