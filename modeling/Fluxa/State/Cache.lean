import Fluxa.State.AppState

/-!
# State — Redis commands and storage

`cache.rs` and `storage.rs`.  A Redis function is the sequence of its commands; a key that has expired reads as absent.
-/

namespace Fluxa
open Interleave

namespace Cache

/-- `GET` of the tenant's cache version. -/
def tenantCacheVersion (tenantId : Uuid) : Service Nat :=
  redis fun _ s => (s.cache.versions tenantId, s)

/-- `INCR` of the tenant's cache version. -/
def bumpTenantCacheVersion (tenantId : Uuid) (event : Event := .quiet) : Service Nat :=
  redisAs event fun _ s =>
    let version := s.cache.versions tenantId + 1
    (version, { s with
      cache.versions := Function.update s.cache.versions tenantId version
      cache.bumps := Function.update s.cache.bumps tenantId
        ((version, s.history.commits.length) :: s.cache.bumps tenantId) })

/-- `get_json` of an answer about tasks: `GET`, and `decode` of what it finds. -/
def getJson {A : Type} (key : TaskCacheKey) (decode : CachedTasks → Option A) :
    Service (Option A) :=
  .atomic .quiet (fun _ => true) fun e s =>
    match e.fault, (s.cache.tasks key).filter fun entry => entry.live e.now with
    | .none, none => (.ok none, s)
    | .none, some entry =>
      match decode entry.value with
      | some a => (.ok (some a), s)
      | none =>
        (.error (.internal ("failed to deserialize cached payload: " ++ e.detail)), s)
    | _, _ => (.error (redisError e.detail), s)

/-- `set_json` of an answer about tasks: `SETEX`. -/
def setJson (key : TaskCacheKey) (value : CachedTasks) (ttl : Nat) : Service Unit :=
  redis fun e s => ((), { s with
    cache.tasks := Function.update s.cache.tasks key (some ⟨value, some (e.now + ttl)⟩) })

/-- `RPUSH` on the job queue. -/
def enqueueJob (jobId : Uuid) : Service Unit :=
  redis fun _ s => ((), { s with cache.jobQueue := s.cache.jobQueue ++ [jobId] })

/-- The entry under an idempotency key at time `now`. -/
def idempotencyEntry (s : AppState) (key : IdempotencyKey) (now : Time) :
    Option (Entry IdempotencyValue) :=
  (s.cache.idempotency key).filter fun e => e.live now

/-- `GET`: none when the key is absent. -/
def idempotencyState (key : IdempotencyKey) : Service (Option IdempotencyValue) :=
  redis fun e s => ((idempotencyEntry s key e.now).map (·.value), s)

/-- The state in which the idempotency key has the given entry. -/
def setIdempotency (s : AppState) (key : IdempotencyKey) (entry : Option (Entry IdempotencyValue)) :
    AppState :=
  { s with cache.idempotency := Function.update s.cache.idempotency key entry }

/-- `SETNX` with the marker `__pending__`, noted in the history when it has set it, and then
`EXPIRE`. -/
def claimIdempotencyKey (key : IdempotencyKey) (ttl : Nat) : Service Bool := do
  let claimed ← redis fun e s =>
    match idempotencyEntry s key e.now with
    | some _ => (false, s)
    | none => (true, { setIdempotency s key (some ⟨.pending, none⟩) with
        history.keyClaims := (e.pid, key) :: s.history.keyClaims })
  if claimed then
    let _ ← redis fun e s =>
      match idempotencyEntry s key e.now with
      | some entry => (true, setIdempotency s key (some ⟨entry.value, some (e.now + ttl)⟩))
      | none => (false, s)
    return true
  else return false

/-- `SETEX`, noted in the history. -/
def storeIdempotencyResponse (key : IdempotencyKey) (response : StoredResponse) (ttl : Nat) :
    Service Unit :=
  redis fun e s =>
    ((), { setIdempotency s key (some ⟨.ready response, some (e.now + ttl)⟩) with
      history.stored := (e.pid, key, response) :: s.history.stored })

/-- `DEL`, noted in the history as the release of the key by its call. -/
def deleteKey (key : IdempotencyKey) : Service Unit :=
  redis fun e s =>
    ((), { setIdempotency s key none with history.released := e.pid :: s.history.released })

/-- `SETEX` on the denylist; the time to live is at least one second. -/
def denyAccessToken (jti : Uuid) (ttlSeconds : Nat) : Service Unit :=
  redis fun e s =>
    ((), { s with
      cache.denylist := Function.update s.cache.denylist jti
        (some ⟨(), some (e.now + seconds (max ttlSeconds 1))⟩) })

/-- The denylist has a live entry for the token. -/
def denied (s : AppState) (jti : Uuid) (now : Time) : Bool :=
  (s.cache.denylist jti).any fun e => e.live now

/-- `EXISTS`. -/
def isAccessTokenDenied (jti : Uuid) : Service Bool :=
  redis fun e s => (denied s jti e.now, s)

end Cache

/-! ### Storage -/

namespace Storage

/-- A segment of an artifact key is neither empty nor a dot segment and has only plain
characters. -/
def validSegment (segment : List Char) : Bool :=
  segment ≠ [] && segment ≠ ['.'] && segment ≠ ['.', '.'] &&
    segment.all fun c => c.isAlphanum || c = '-' || c = '_' || c = '.'

/-- `validate_key`. -/
def validateKey (key : String) : Except AppError Unit :=
  if key ≠ "" ∧ key.toList.head? ≠ some '/' ∧ (key.toList.splitOn '/').all validSegment then
    .ok ()
  else .error (.internal ("invalid artifact key: " ++ key))

/-- `put`: the directory is created and the file opened, which empties it; then the file is written,
and a failure leaves what has been written so far. -/
def put (key : String) (bytes : Bytes) : Service Unit := do
  .lift (validateKey key)
  .atomic .quiet (fun _ => true) fun e s =>
    match e.fault with
    | .none => (.ok (), { s with storage := Function.update s.storage key (some []) })
    | .failed => (.error (.internal ("failed to create artifact directory: " ++ e.detail)), s)
    | .lost => (.error (.internal ("failed to write artifact: " ++ e.detail)), s)
  .atomic .quiet (fun _ => true) fun e s =>
    match e.fault with
    | .none => (.ok (), { s with storage := Function.update s.storage key (some bytes) })
    | _ => (.error (.internal ("failed to write artifact: " ++ e.detail)),
        { s with storage := Function.update s.storage key (some (bytes.take e.written)) })

/-- `get`; a missing file is no error. -/
def get (key : String) : Service (Option Bytes) := do
  .lift (validateKey key)
  .atomic .quiet (fun _ => true) fun e s =>
    match e.fault with
    | .none => (.ok (s.storage key), s)
    | _ => (.error (.internal ("failed to read artifact: " ++ e.detail)), s)

/-- `delete`; a missing file is no error. -/
def delete (key : String) : Service Unit := do
  .lift (validateKey key)
  .atomic .quiet (fun _ => true) fun e s =>
    match e.fault with
    | .none => (.ok (), { s with storage := Function.update s.storage key none })
    | _ => (.error (.internal ("failed to delete artifact: " ++ e.detail)), s)

end Storage

end Fluxa
