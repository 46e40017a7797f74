import Mathlib.Data.Nat.Notation

/-!
# Error replies

* `ErrorCode` — the public codes, with their texts and their HTTP statuses.
* `writeError` — the reply for a code and a message; an internal error has a fixed message.
-/

namespace Ultrav

/-- The codes of `errors.go`. -/
inductive ErrorCode where
  | vmNotFound
  | vmInvalidState
  | vmAlreadyExists
  | validationError
  | notFound
  | methodNotAllowed
  | poolNotFound
  | poolAlreadyExists
  | networkNotFound
  | networkInvalidState
  | networkAlreadyExists
  | isoNotFound
  | isoAlreadyExists
  | unauthorized
  | invalidCredentials
  | forbidden
  | userNotFound
  | userAlreadyExists
  | lastAdmin
  | internalError
  | consoleUnavailable
  | storageUnavailable
  | kvmUnavailable
  | networkInactive
  | backupNotFound
  | backupInvalidState
  | scheduleNotFound
  | scheduleAlreadyExists
  | taskNotFound
  | taskNotCancellable
  deriving DecidableEq, Repr

namespace ErrorCode

/-- The text of a code. -/
def text : ErrorCode → String
  | vmNotFound => "VM_NOT_FOUND"
  | vmInvalidState => "VM_INVALID_STATE"
  | vmAlreadyExists => "VM_ALREADY_EXISTS"
  | validationError => "VALIDATION_ERROR"
  | notFound => "NOT_FOUND"
  | methodNotAllowed => "METHOD_NOT_ALLOWED"
  | poolNotFound => "STORAGE_POOL_NOT_FOUND"
  | poolAlreadyExists => "STORAGE_POOL_ALREADY_EXISTS"
  | networkNotFound => "NETWORK_NOT_FOUND"
  | networkInvalidState => "NETWORK_INVALID_STATE"
  | networkAlreadyExists => "NETWORK_ALREADY_EXISTS"
  | isoNotFound => "ISO_NOT_FOUND"
  | isoAlreadyExists => "ISO_ALREADY_EXISTS"
  | unauthorized => "UNAUTHORIZED"
  | invalidCredentials => "INVALID_CREDENTIALS"
  | forbidden => "FORBIDDEN"
  | userNotFound => "USER_NOT_FOUND"
  | userAlreadyExists => "USER_ALREADY_EXISTS"
  | lastAdmin => "LAST_ADMIN"
  | internalError => "INTERNAL_ERROR"
  | consoleUnavailable => "CONSOLE_UNAVAILABLE"
  | storageUnavailable => "STORAGE_UNAVAILABLE"
  | kvmUnavailable => "KVM_UNAVAILABLE"
  | networkInactive => "NETWORK_INACTIVE"
  | backupNotFound => "BACKUP_NOT_FOUND"
  | backupInvalidState => "BACKUP_INVALID_STATE"
  | scheduleNotFound => "SCHEDULE_NOT_FOUND"
  | scheduleAlreadyExists => "SCHEDULE_ALREADY_EXISTS"
  | taskNotFound => "TASK_NOT_FOUND"
  | taskNotCancellable => "TASK_NOT_CANCELLABLE"

/-- `errorStatus` -/
def status : ErrorCode → ℕ
  | validationError => 400
  | unauthorized | invalidCredentials => 401
  | forbidden => 403
  | vmNotFound | notFound | poolNotFound | networkNotFound | isoNotFound | userNotFound
  | backupNotFound | scheduleNotFound | taskNotFound => 404
  | methodNotAllowed => 405
  | vmInvalidState | vmAlreadyExists | poolAlreadyExists | networkInvalidState
  | networkAlreadyExists | isoAlreadyExists | userAlreadyExists | lastAdmin
  | consoleUnavailable | storageUnavailable | kvmUnavailable | networkInactive
  | backupInvalidState | scheduleAlreadyExists | taskNotCancellable => 409
  | internalError => 500

end ErrorCode

/-- The standard error envelope, without the request id. -/
structure ErrorReply where
  status : ℕ
  code : String
  message : String
  deriving DecidableEq, Repr

/-- `writeError` -/
def writeError (code : ErrorCode) (message : String) : ErrorReply where
  status := code.status
  code := code.text
  message := if code = .internalError then "An internal error occurred" else message

end Ultrav
