import Mathlib.Tactic.TypeStar

/-!
# The interface of the user-mode driver (`standard_api.h`)
-/

namespace Aipu

/-! ## Status codes -/

/-- `aipu_status_t` -/
inductive AipuStatus
  | success
  | errorNullPtr
  | errorInvalidCtx
  | errorOpenDevFail
  | errorDevAbnormal
  | errorDeinitFail
  | errorInvalidConfig
  | errorGversionUnsupported
  | errorTargetNotFound
  | errorInvalidGbin
  | errorGraphNotExist
  | errorOpenFileFail
  | errorMapFileFail
  | errorReadFileFail
  | errorWriteFileFail
  | errorJobNotExist
  | errorJobNotSched
  | errorJobSched
  | errorJobNotEnd
  | errorJobException
  | errorJobTimeout
  | errorInvalidOptions
  | errorInvalidPath
  | errorOpNotSupported
  | errorInvalidOp
  | errorInvalidSize
  | errorInvalidHandle
  | errorBusyHandle
  | errorBufAllocFail
  | errorBufFreeFail
deriving DecidableEq, Repr

end Aipu
