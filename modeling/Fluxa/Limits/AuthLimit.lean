import Fluxa.Limits.RateLimit
import Fluxa.State.Text

/-!
# Limits — The auth rate limit

`auth_rate_limit_middleware` keeps a bucket for each pair of a request path and a client.  The client is who the forwarding header says it is, and the peer only where there is no such header; the path is the one in the request, before the handler has read the provider in it.

**The bound** (`auth_rate_limit_bound`).  The requests of one client on one route that pass in an interval are at most those of one bucket; so are those of one peer for one operation, wherever these come to one client and one spelling of the route.
-/

namespace Fluxa

/-! ### Requests -/

/-- The routes under the middleware.  `segment` is the last one of the path, as it is spelled. -/
inductive AuthRoute where
  | register
  | login
  | oauthLogin (segment : String)
  | refresh
  | logout
  | verifyEmail
  | resendVerification
  | requestPasswordReset
  | confirmPasswordReset
deriving DecidableEq, Repr

/-- `request.uri().path()`. -/
def AuthRoute.path : AuthRoute → String
  | register => "/auth/register"
  | login => "/auth/login"
  | oauthLogin segment => s!"/auth/oauth/{segment}"
  | refresh => "/auth/refresh"
  | logout => "/auth/logout"
  | verifyEmail => "/auth/verify-email"
  | resendVerification => "/auth/resend-verification"
  | requestPasswordReset => "/auth/password-reset/request"
  | confirmPasswordReset => "/auth/password-reset/confirm"

/-- The operation that the handler carries out, named by the spelling of the provider that it reads:
the segment is percent-decoded by the `Path` extractor, then trimmed and lowered. -/
def AuthRoute.operation (decode : String → Option String) : AuthRoute → Option AuthRoute
  | oauthLogin segment =>
    (decode segment).map fun provider => oauthLogin (toAsciiLowercase (trim provider))
  | route => some route

/-- `HeaderValue::to_str`: the bytes are visible ASCII or tabs, or there is no text. -/
def headerText (value : List UInt8) : Option String :=
  if value.all fun b => b = 9 || (32 ≤ b && b < 127) then
    some (String.ofList (value.map fun b => Char.ofNat b.toNat))
  else none

/-- What becomes of the call of the script in Redis. -/
inductive ScriptCall where
  | answered
  /-- It is executed, and the reply is lost. -/
  | lost
  /-- It does not reach Redis. -/
  | failed
deriving DecidableEq, Repr

/-- A request on its way through the middleware. -/
structure AuthRequest where
  route : AuthRoute
  /-- The values of `x-forwarded-for`. -/
  forwardedFor : List (List UInt8)
  /-- The address in `ConnectInfo`, as it prints. -/
  peer : Option String
  nowMs : Nat
  script : ScriptCall
deriving DecidableEq, Repr

/-- `client_identifier`. -/
def clientIdentifier (request : AuthRequest) : String :=
  match request.forwardedFor.head?.bind headerText with
  | some value => trim (beforeFirst ',' value)
  | none => request.peer.getD "unknown"

/-- The key of the bucket. -/
def AuthRequest.key (request : AuthRequest) : String :=
  s!"ratelimit:auth:{request.route.path}:{clientIdentifier request}"

/-! ### The middleware -/

/-- What Redis holds under the keys of the buckets. -/
abbrev RateBuckets := String → Option (Entry RateBucket)

/-- `auth_rate_limit_middleware`: whether the request passes on to its handler, and what it leaves. -/
def authRateLimit (capacity refillPerSec : Nat) (request : AuthRequest) (buckets : RateBuckets) :
    Bool × RateBuckets :=
  let response := rateLimit true capacity refillPerSec 1 request.nowMs (buckets request.key)
  match request.script with
  | .answered => (response.1.allowed, Function.update buckets request.key response.2)
  | .lost => (false, Function.update buckets request.key response.2)
  | .failed => (false, buckets)

/-- The requests that pass, of those made in this order. -/
def passed (capacity refillPerSec : Nat) : RateBuckets → List AuthRequest → List AuthRequest
  | _, [] => []
  | buckets, request :: rest =>
    let response := authRateLimit capacity refillPerSec request buckets
    if response.1 then request :: passed capacity refillPerSec response.2 rest
    else passed capacity refillPerSec response.2 rest

/-- The bound of a single bucket, for the requests of a kind. -/
def SingleBucketBound (capacity refillPerSec : Nat) (requests : List AuthRequest)
    (kind : AuthRequest → Bool) : Prop :=
  ∀ s t, ((passed capacity refillPerSec (fun _ => none) requests).filter fun request =>
      kind request && (decide (s ≤ request.nowMs) && decide (request.nowMs ≤ t))).length ≤
    capacity + refillPerSec * (t - s) / 1000

/-- The requests from one peer for one operation. -/
def fromPeer (decode : String → Option String) (peer : String) (operation : AuthRoute)
    (request : AuthRequest) : Bool :=
  request.peer = some peer && request.route.operation decode = some operation

/-- The requests of one client on one route. -/
def ofClient (client : String) (route : AuthRoute) (request : AuthRequest) : Bool :=
  clientIdentifier request = client && request.route = route

/-! ### The calls on one key -/

variable {capacity refillPerSec : Nat}

/-- The calls that are executed on a key. -/
def callsOn (key : String) (requests : List AuthRequest) : List AuthRequest :=
  requests.filter fun request => request.key = key && request.script ≠ .failed

/-- A request touches the bucket under its own key only. -/
theorem authRateLimit_other {request : AuthRequest} {buckets : RateBuckets} {key : String}
    (h : request.key ≠ key) :
    (authRateLimit capacity refillPerSec request buckets).2 key = buckets key := by
  unfold authRateLimit
  dsimp only
  split
  · exact Function.update_of_ne (Ne.symm h) _ _
  · exact Function.update_of_ne (Ne.symm h) _ _
  · rfl

/-- A call that is executed leaves what `rate_limit` leaves, and passes only if it is allowed. -/
theorem authRateLimit_executed {request : AuthRequest} {buckets : RateBuckets}
    (h : request.script ≠ .failed) :
    (authRateLimit capacity refillPerSec request buckets).2 request.key =
        (rateLimit true capacity refillPerSec 1 request.nowMs (buckets request.key)).2 ∧
      ((authRateLimit capacity refillPerSec request buckets).1 = true →
        (rateLimit true capacity refillPerSec 1 request.nowMs
          (buckets request.key)).1.allowed = true) := by
  unfold authRateLimit
  dsimp only
  split
  · exact ⟨Function.update_self .., id⟩
  · exact ⟨Function.update_self .., fun h => absurd h Bool.false_ne_true⟩
  · rename_i hfailed
    exact absurd hfailed h

theorem authRateLimit_failed {request : AuthRequest} {buckets : RateBuckets}
    (h : request.script = .failed) :
    authRateLimit capacity refillPerSec request buckets = (false, buckets) := by
  unfold authRateLimit
  rw [h]

/-- The requests with a key that pass within an interval. -/
def passedOn (key : String) (s t : Nat) (requests : List AuthRequest) : List AuthRequest :=
  requests.filter fun request =>
    decide (request.key = key) && (decide (s ≤ request.nowMs) && decide (request.nowMs ≤ t))

/-- The requests that pass with a key are allowed by the calls on it. -/
theorem passed_le_calls {key : String} {buckets : RateBuckets} {requests : List AuthRequest}
    (s t : Nat) :
    (passedOn key s t (passed capacity refillPerSec buckets requests)).length ≤
      (allowedWithin s t (rateLimitCalls true capacity refillPerSec (buckets key)
        ((callsOn key requests).map (·.nowMs)))).length := by
  induction requests generalizing buckets with
  | nil => exact le_rfl
  | cons request rest ih =>
      have hrest := @ih (authRateLimit capacity refillPerSec request buckets).2
      by_cases hkey : request.key = key
      · by_cases hfailed : request.script = .failed
        · -- Nothing is executed, and the request does not pass.
          rw [authRateLimit_failed hfailed] at hrest
          have hcalls : callsOn key (request :: rest) = callsOn key rest := by
            simp [callsOn, hfailed]
          rw [hcalls, passed, authRateLimit_failed hfailed]
          exact hrest
        · obtain ⟨hheld, hallowed⟩ := @authRateLimit_executed capacity refillPerSec
            _ buckets hfailed
          have hcalls : callsOn key (request :: rest) = request :: callsOn key rest := by
            simp [callsOn, hkey, hfailed]
          rw [hkey] at hheld hallowed
          rw [hheld] at hrest
          rw [hcalls, List.map_cons, rateLimitCalls, passed]
          unfold allowedWithin passedOn at hrest ⊢
          by_cases hpass : (authRateLimit capacity refillPerSec request buckets).1 = true
          · rw [if_pos hpass, List.filter_cons, List.filter_cons]
            simp only [hkey, decide_true, Bool.true_and, hallowed hpass]
            split
            · exact Nat.succ_le_succ hrest
            · exact hrest
          · rw [if_neg hpass, List.filter_cons]
            split
            · exact hrest.trans (Nat.le_succ _)
            · exact hrest
      -- Another key's request neither calls the bucket nor counts.
      · have hcalls : callsOn key (request :: rest) = callsOn key rest := by
          simp [callsOn, hkey]
        rw [authRateLimit_other hkey] at hrest
        rw [hcalls, passed]
        split
        · have hdrop : passedOn key s t (request :: passed capacity refillPerSec
              (authRateLimit capacity refillPerSec request buckets).2 rest) =
              passedOn key s t (passed capacity refillPerSec
                (authRateLimit capacity refillPerSec request buckets).2 rest) := by
            simp [passedOn, hkey]
          rw [hdrop]
          exact hrest
        · exact hrest

theorem mem_of_passed {buckets : RateBuckets} {requests : List AuthRequest}
    {request : AuthRequest} (h : request ∈ passed capacity refillPerSec buckets requests) :
    request ∈ requests := by
  induction requests generalizing buckets with
  | nil => exact h
  | cons first rest ih =>
      rw [passed] at h
      split at h
      · rcases List.mem_cons.mp h with rfl | h
        · exact List.mem_cons_self
        · exact List.mem_cons_of_mem _ (ih h)
      · exact List.mem_cons_of_mem _ (ih h)

/-! ### The bound -/

/-- A kind of requests that come with one key is held to the bound of its bucket. -/
theorem single_bucket {requests : List AuthRequest} {kind : AuthRequest → Bool} {key : String}
    (h : ExactLimit capacity refillPerSec)
    (hsorted : requests.Pairwise fun request later => request.nowMs ≤ later.nowMs)
    (hlt : ∀ request ∈ requests, request.nowMs < 2 ^ 53)
    (hkey : ∀ request ∈ requests, kind request = true → request.key = key) :
    SingleBucketBound capacity refillPerSec requests kind := by
  intro s t
  have hbound := (@token_bucket_bound _ _ h ((callsOn key requests).map (·.nowMs))
    (List.pairwise_map.mpr (hsorted.sublist List.filter_sublist)) fun now hnow => by
      obtain ⟨request, hrequest, rfl⟩ := List.mem_map.mp hnow
      exact hlt request (List.mem_of_mem_filter hrequest)).2.1 s t
  refine le_trans ?_ ((@passed_le_calls _ _ _ (fun _ => none) _ s t).trans hbound)
  unfold passedOn
  rw [← List.countP_eq_length_filter, ← List.countP_eq_length_filter]
  refine List.countP_mono_left fun request hrequest hkind => ?_
  obtain ⟨hkind, hwithin⟩ := Bool.and_eq_true_iff.mp hkind
  rw [hkey request (mem_of_passed hrequest) hkind, decide_eq_true rfl, Bool.true_and]
  exact hwithin

/-- **The bound of the auth rate limit**, for the requests of one client on one route; and for those
of one peer for one operation where they come to one client and one route. -/
theorem auth_rate_limit_bound (h : ExactLimit capacity refillPerSec) {requests : List AuthRequest}
    (hsorted : requests.Pairwise fun request later => request.nowMs ≤ later.nowMs)
    (hlt : ∀ request ∈ requests, request.nowMs < 2 ^ 53) (decode : String → Option String) :
    (∀ client route, SingleBucketBound capacity refillPerSec requests (ofClient client route)) ∧
    (∀ peer operation client route,
      (∀ request ∈ requests, fromPeer decode peer operation request = true →
        ofClient client route request = true) →
      SingleBucketBound capacity refillPerSec requests (fromPeer decode peer operation)) := by
  have hkey : ∀ client route request, ofClient client route request = true →
      request.key = s!"ratelimit:auth:{route.path}:{client}" := by
    intro client route request hof
    obtain ⟨hclient, hroute⟩ := Bool.and_eq_true_iff.mp hof
    rw [AuthRequest.key, of_decide_eq_true hroute, of_decide_eq_true hclient]
  constructor
  · intro client route
    exact single_bucket h hsorted hlt fun request _ hof => hkey client route request hof
  · intro peer operation client route hone
    exact single_bucket h hsorted hlt fun request hmem hfrom =>
      hkey client route request (hone request hmem hfrom)

/-- A request from one peer. -/
def fromOnePeer (route : AuthRoute) (forwardedFor : List (List UInt8)) (nowMs : Nat) :
    AuthRequest :=
  ⟨route, forwardedFor, some "203.0.113.9", nowMs, .answered⟩

/-- Two logins without a forwarding header, and one that passes for another client. -/
theorem auth_rate_limit_bound_login :
    SingleBucketBound 1 1
      [fromOnePeer .login [] 1000, fromOnePeer .login [] 1400, fromOnePeer .login [[49]] 1500]
      (ofClient "203.0.113.9" .login) :=
  (@auth_rate_limit_bound 1 1
    ⟨by decide, by decide, by decide, by decide⟩ _ (by decide) (by decide) some).1 _ _

/-- A login with the forwarding header 1 and one with 2 both pass, at once and from one peer; so do
two OAuth logins that spell the provider as google and as Google. -/
theorem auth_rate_limit_evaded :
    ¬ SingleBucketBound 1 1
      [fromOnePeer .login [[49]] 1000, fromOnePeer .login [[50]] 1000]
      (fromPeer some "203.0.113.9" .login) ∧
    ¬ SingleBucketBound 1 1
      [fromOnePeer (.oauthLogin "google") [] 1000, fromOnePeer (.oauthLogin "Google") [] 1000]
      (fromPeer some "203.0.113.9" (.oauthLogin "google")) := by
  constructor
  · intro hbound
    exact absurd (hbound 1000 1000) (by decide +kernel)
  · intro hbound
    exact absurd (hbound 1000 1000) (by decide +kernel)

end Fluxa
