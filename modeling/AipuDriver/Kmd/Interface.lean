import Mathlib.Data.Int.Notation
import Mathlib.Data.Nat.Notation

/-!
# Constants and records shared by the kernel modules

The user/kernel interface (`uk_interface/*.h`), the error codes with their kernel values
(`aipu_errcode_map.c`) and the buffer descriptor (`aipu_buffer.h`).  Unsigned machine words are
natural numbers, `int` is `ℤ`.

Answers that the kernel gives to the driver at run time (does this `kzalloc` succeed, is the
hardware idle) are read from an `Oracle`, the list of the answers still to come.
-/

namespace Aipu

/-- Answers of the environment still to come, in order. -/
abbrev Oracle := List Bool

/-- The next answer and the answers after it; an exhausted oracle keeps answering `true`. -/
def Oracle.next : Oracle → Bool × Oracle
  | [] => (true, [])
  | b :: rest => (b, rest)

/-- `PAGE_SIZE` -/
def pageSize : ℕ := 4096

/-- Ranges of addresses are compared by equality. -/
instance lawfulBEqRange : LawfulBEq (ℕ × ℕ) := Prod.instLawfulBEq

/-! ### Error codes -/

/-- `ENOENT` -/
def enoent : ℤ := 2
/-- `ENXIO` -/
def enxio : ℤ := 6
/-- `ENOMEM` -/
def enomem : ℤ := 12
/-- `EFAULT` -/
def efault : ℤ := 14
/-- `EINVAL` -/
def einval : ℤ := 22
/-- `ENOTTY` -/
def enotty : ℤ := 25

/-- `AIPU_ERRCODE_*` (`aipu_errcode.h`), in the order of their values. -/
inductive AipuErrcode
  | noError
  | jobIdNotFound
  | jobNotEnd
  | jobProfDisabled
  | aipuNotFound
  | jobDescUnmatched
  | noMemory
  | noAlignMem
  | internalNullptr
  | platGetResFail
  | createKobjErr
  | invalidOps
  | invalidArgs
  | ioremapFail
  | invalidIntStat
  | itemNotFound
deriving DecidableEq, Repr

/-- `map_errcode`: the kernel value of a driver error code. -/
def mapErrcode : AipuErrcode → ℤ
  | .noError => 0
  | .invalidIntStat | .ioremapFail | .jobProfDisabled | .createKobjErr | .platGetResFail => -efault
  | .invalidOps | .jobNotEnd => -enotty
  | .internalNullptr | .invalidArgs => -einval
  | .noMemory | .noAlignMem => -enomem
  | .jobIdNotFound | .aipuNotFound | .itemNotFound | .jobDescUnmatched => -enoent

/-- Only the code for success is mapped to zero. -/
@[simp] theorem mapErrcode_eq_zero {e : AipuErrcode} : mapErrcode e = 0 ↔ e = .noError := by
  cases e <;> simp [mapErrcode, enoent, enomem, efault, einval, enotty]

/-! ### Buffer requests (`aipu_buf_req.h`, `aipu_buffer.h`) -/

/-- `AIPU_MM_DATA_TYPE_NONE` -/
def aipuMmDataTypeNone : ℕ := 0
/-- `AIPU_MM_DATA_TYPE_TEXT` -/
def aipuMmDataTypeText : ℕ := 1
/-- `AIPU_MM_DATA_TYPE_RO_STACK` -/
def aipuMmDataTypeRoStack : ℕ := 2
/-- `AIPU_MM_DATA_TYPE_STATIC` -/
def aipuMmDataTypeStatic : ℕ := 3
/-- `AIPU_MM_DATA_TYPE_REUSE` -/
def aipuMmDataTypeReuse : ℕ := 4

/-- `enum aipu_alloc_flag` -/
inductive AipuAllocFlag
  | default
  | strict
  | compact
deriving DecidableEq, Repr

/-- `enum aipu_mem_type` -/
inductive AipuMemType
  | sram
  | cma
  | reserved
deriving DecidableEq, Repr

/-- `struct buf_desc` -/
structure BufDesc where
  pa : ℕ := 0
  devOffset : ℕ := 0
  bytes : ℕ := 0
  regionId : ℕ := 0
deriving DecidableEq, Repr

/-- `struct buf_request`.  The `data_type` and the `alloc_flag` are the numbers user space wrote. -/
structure BufRequest where
  bytes : ℕ
  alignInPage : ℕ
  dataType : ℕ
  regionId : ℕ := 0
  allocFlag : ℕ := 0
  desc : BufDesc := {}
  errcode : AipuErrcode := .noError
deriving DecidableEq, Repr

/-- `struct aipu_buffer`; the defaults are what `memset` leaves. -/
structure AipuBuffer where
  pa : ℕ := 0
  va : ℕ := 0
  bytes : ℕ := 0
  regionId : ℕ := 0
  type : AipuMemType := .sram
deriving DecidableEq, Repr

/-! ### Jobs (`aipu_job_desc.h`, `aipu_job_status.h`) -/

/-- `AIPU_JOB_STATE_*` of the kernel. -/
inductive AipuJobState
  | idle
  | pending
  | sched
  | finished
deriving DecidableEq, Repr

/-- `struct user_job_desc` -/
structure UserJobDesc where
  startPcAddr : ℕ := 0
  intrHandlerAddr : ℕ := 0
  data0Addr : ℕ := 0
  data1Addr : ℕ := 0
  staticAddr : ℕ := 0
  reuseAddr : ℕ := 0
  jobId : ℕ := 0
  codeSize : ℕ := 0
  rodataSize : ℕ := 0
  stackSize : ℕ := 0
  staticSize : ℕ := 0
  reuseSize : ℕ := 0
  enableProf : ℕ := 0
  enableAsid : ℕ := 0
deriving DecidableEq, Repr

/-- `struct user_job` -/
structure UserJob where
  desc : UserJobDesc
  errcode : AipuErrcode := .noError
deriving DecidableEq, Repr

/-- `AIPU_EXCEP_NO_EXCEPTION` -/
def aipuExcepNoException : ℤ := 0

/-- `AIPU_JOB_STATE_DONE` and `AIPU_JOB_STATE_EXCEPTION`, the states reported to user space. -/
inductive ReportedState
  | done
  | exception
deriving DecidableEq, Repr

/-- `struct job_status_desc`, without the profiling data. -/
structure JobStatusDesc where
  jobId : ℕ
  threadId : ℤ
  state : ReportedState
deriving DecidableEq, Repr

/-- `struct job_status_query`, without the pointer to the status array. -/
structure JobStatusQuery where
  maxCnt : ℕ
  getSingleJob : Bool
  jobId : ℕ := 0
  pollCnt : ℕ := 0
  errcode : AipuErrcode := .noError
deriving DecidableEq, Repr

end Aipu
