import Mathlib.Data.List.Basic

/-!
# State — application errors

`error.rs`: the errors a service returns, the machine-readable code and the HTTP status that each is answered with.
-/

namespace Fluxa

/-- `AppError`, with the message each variant carries. -/
inductive AppError where
  | validation (message : String)
  | unauthorized (message : String)
  | forbidden (message : String)
  | notFound (message : String)
  | conflict (message : String)
  | payloadTooLarge (message : String)
  | rateLimited (message : String)
  | internal (message : String)
deriving DecidableEq, Repr

namespace AppError

def code : AppError → String
  | .validation _ => "validation_error"
  | .unauthorized _ => "unauthorized"
  | .forbidden _ => "forbidden"
  | .notFound _ => "not_found"
  | .conflict _ => "conflict"
  | .payloadTooLarge _ => "payload_too_large"
  | .rateLimited _ => "rate_limited"
  | .internal _ => "internal_error"

def status : AppError → Nat
  | .validation _ => 400
  | .unauthorized _ => 401
  | .forbidden _ => 403
  | .notFound _ => 404
  | .conflict _ => 409
  | .payloadTooLarge _ => 413
  | .rateLimited _ => 429
  | .internal _ => 500

/-- `to_string`: every variant displays its message. -/
def message : AppError → String
  | .validation m | .unauthorized m | .forbidden m | .notFound m | .conflict m
  | .payloadTooLarge m | .rateLimited m | .internal m => m

end AppError

/-- `From<sqlx::Error>` for an error that the driver reports with the text `error`. -/
def databaseError (error : String) : AppError := .internal ("database error: " ++ error)

/-- `From<sqlx::Error>` for the violation of a unique constraint (SQLSTATE 23505). -/
def uniqueViolation : AppError := .conflict "resource already exists"

/-- `From<redis::RedisError>`. -/
def redisError (error : String) : AppError := .internal ("redis error: " ++ error)

/-- `From<jsonwebtoken::errors::Error>`. -/
def tokenError (error : String) : AppError := .unauthorized ("token error: " ++ error)

/-- Every error is answered with a client or server error status. -/
theorem AppError.status_ge (x : AppError) : 400 ≤ x.status := by
  cases x <;> simp [status]

end Fluxa
