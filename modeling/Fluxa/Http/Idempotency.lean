import Fluxa.Http.Helpers
import Fluxa.State.Cache

/-!
# Http — idempotent requests

What the eight handlers that create resources have in common (`http/handlers.rs`, `http/helpers.rs`): the response under the key is replayed, or else the key is claimed, the resource created, and the response stored; when the creation fails, the key is released.
-/

namespace Fluxa.Http
open Interleave

def requiredIdempotencyKey (header : Option String) : Except AppError String :=
  match header.filter fun value => !isBlank value with
  | some value => .ok value
  | none => .error (.validation "Idempotency-Key header is required")

/-- `StatusCode::from_u16`. -/
def validStatus (status : Nat) : Bool := 100 ≤ status && status ≤ 999

def replayIdempotent (key : IdempotencyKey) : Service (Option StoredResponse) := do
  match ← Cache.idempotencyState key with
  | none | some .pending => return none
  | some (.ready response) =>
    if validStatus response.status then return some response
    else .fail (.internal "invalid stored status code")

/-- The response under the key; none when the key has been claimed for this request. -/
def replayOrClaim (app : App) (key : IdempotencyKey) : Service (Option StoredResponse) := do
  match ← replayIdempotent key with
  | some response => return some response
  | none =>
    let claimed ← Cache.claimIdempotencyKey key app.config.idempotencyTtl
    if claimed then return none
    else
      match ← replayIdempotent key with
      | some response => return some response
      | none => .fail (.conflict "request with this idempotency key is still in progress")

/-- The response to a creation that has succeeded is stored; one that has failed releases the
key. -/
def storeOrRelease (app : App) (key : IdempotencyKey) :
    Except AppError StoredResponse → Service StoredResponse
  | .ok response => do
    Cache.storeIdempotencyResponse key response app.config.idempotencyTtl
    return response
  | .error error => do
    Cache.deleteKey key
    .fail error

/-- An idempotent request.  What `prepare` refuses is refused with the key claimed. -/
def idempotent {A B : Type} (app : App) (key : IdempotencyKey) (prepare : Except AppError B)
    (create : B → Service A) (respond : A → StoredResponse) : Service StoredResponse := do
  match ← replayOrClaim app key with
  | some response => return response
  | none =>
    let input ← Prog.lift prepare
    let created ← (create input).attempt
    storeOrRelease app key (created.map respond)

end Fluxa.Http
