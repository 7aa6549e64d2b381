/-!
# Return codes shared by the modelled runtime

`rsRetVal` is the integer status every runtime function returns. The model keeps the codes
that the modelled functions produce or test, as an enumeration; their numeric values are
never compared in the code paths modelled here, only their identity.
-/

namespace Rsyslog

/-- The `rsRetVal` codes used by the modelled functions (`runtime/rsyslog.h`). -/
inductive RsRetVal where
  /-- `RS_RET_OK`: the operation succeeded. -/
  | ok
  /-- `RS_RET_OUT_OF_MEMORY`: an allocation failed. -/
  | outOfMemory
  /-- `RS_RET_ERR`: a generic failure. -/
  | err
  /-- `RS_RET_NOT_FOUND`: a requested value does not exist. -/
  | notFound
  /-- `RS_RET_PARAM_ERROR`: an invalid parameter was passed. -/
  | paramError
  /-- `RS_RET_INVALID_VALUE`: user-supplied or stored data is invalid. -/
  | invalidValue
  /-- `RS_RET_IO_ERROR`: an input/output operation failed. -/
  | ioError
  /-- `RS_RET_FILE_NOT_FOUND`: a file does not exist. -/
  | fileNotFound
  /-- `RS_RET_FILE_TOO_LARGE`: a size limit was exceeded. -/
  | fileTooLarge
  /-- `RS_RET_RETRY`: the call should be retried. -/
  | retry
  /-- `RS_RET_INVLD_TIME`: a timestamp could not be parsed. -/
  | invldTime
  /-- `RS_RET_INTERNAL_ERROR`: an unexpected code path was reached. -/
  | internalError
  /-- `RS_RET_NO_DATA`: there is nothing to return. -/
  | noData
  /-- `RS_RET_EOF`: a read reached the end of the file. -/
  | eof
  /-- `RS_RET_ZLIB_ERR`: zlib could not be set up. -/
  | zlibErr
  deriving DecidableEq, Repr

end Rsyslog
