import Fluxa.Limits.RateLimit
import Fluxa.Settings.Args
import Mathlib.Algebra.Order.Ring.Int

/-!
# Settings — what an accepted configuration does

The arithmetic on the fields of `Cli` in the places that read them: the helpers for the lifetimes, the times they are added to, the lifetimes and windows sent to Redis and to the database, and the periods of the loops.

**`config_can_run`**: for an accepted configuration, all of this is defined and in range if and only if the fields have the bounds of `Bounded`.  `validate` leaves these bounds out.
-/

namespace Fluxa

/-! ### Machine integers -/

/-- The result of an operation on `i64`, unless it overflows. -/
def i64? (n : Int) : Option Int := if -2 ^ 63 ≤ n ∧ n < 2 ^ 63 then some n else none

/-- The result of an operation on `u64`, unless it overflows. -/
def u64? (n : Nat) : Option Nat := if n < 2 ^ 64 then some n else none

/-- `n as u64`, for an `i64`. -/
def asU64 (n : Int) : Nat := if 0 ≤ n then n.toNat else (n + 2 ^ 64).toNat

/-- The product with the factors, one after the other. -/
def productI64 (n : Int) : List Int → Option Int
  | [] => some n
  | k :: ks => do productI64 (← i64? (n * k)) ks

/-- The seconds of a lifetime that is a number of units of `factors` seconds. -/
def lifetime (n : Int64) (factors : List Int) : Option Nat := (productI64 n.toInt factors).map asU64

/-! ### Times -/

/-- The range of `DateTime<Utc>`, and the longest `TimeDelta`, in seconds. -/
structure Chrono where
  minUtc : Int
  maxUtc : Int
  maxSeconds : Int
  span : maxUtc - minUtc ≤ maxSeconds
  fits : maxSeconds < 2 ^ 63

namespace Chrono

/-- `TimeDelta::from_std`. -/
def fromStd (lib : Chrono) (secs : Nat) : Option Int :=
  if (secs : Int) ≤ lib.maxSeconds then some secs else none

/-- A time that can be represented. -/
def dateTime (lib : Chrono) (t : Int) : Option Int :=
  if lib.minUtc ≤ t ∧ t ≤ lib.maxUtc then some t else none

/-- `now + TimeDelta::from_std(ttl)?`. -/
def after (lib : Chrono) (now : Int) (ttl : Nat) : Option Int := do
  lib.dateTime (now + (← lib.fromStd ttl))

/-- `now - TimeDelta::from_std(ttl)?`. -/
def before (lib : Chrono) (now : Int) (ttl : Nat) : Option Int := do
  lib.dateTime (now - (← lib.fromStd ttl))

end Chrono

namespace CliArgs
open Cli

/-! ### The helpers -/

def accessTokenTtl (c : CliArgs) : Option Nat := lifetime c.accessTokenMinutes [60]

def refreshTokenTtl (c : CliArgs) : Option Nat := lifetime c.refreshTokenDays [24, 60, 60]

def cacheTtl (c : CliArgs) : Nat := c.cacheTtlSeconds.toNat

def idempotencyTtl (c : CliArgs) : Nat := c.idempotencyTtlSeconds.toNat

def jobLease (c : CliArgs) : Nat := c.jobLeaseSeconds.toNat

def invitationTtl (c : CliArgs) : Option Nat := lifetime c.invitationTtlHours [60, 60]

def emailVerificationTtl (c : CliArgs) : Option Nat :=
  lifetime c.emailVerificationTtlHours [60, 60]

def passwordResetTtl (c : CliArgs) : Option Nat := lifetime c.passwordResetTtlMinutes [60]

def reminderDueSoonWindow (c : CliArgs) : Option Nat := lifetime c.reminderDueSoonHours [60, 60]

/-- `dedupe_window_seconds` of `enqueue_due_reminder_notifications`. -/
def dedupeWindowSeconds (c : CliArgs) : Option Int := productI64 c.reminderDedupeTtlHours.toInt [3600]

/-- `ttl_ms` of `rate_limit`. -/
def rateLimitTtl (capacity refillPerSec : UInt64) : Option Nat := do
  let capacityMilli ← u64? (capacity.toNat * 1000)
  let ttl ← u64? (capacityMilli / refillPerSec.toNat + 1000)
  return max ttl 1000

/-! ### Where the fields go -/

/-- The lifetimes that the helpers compute. -/
def lifetimes (c : CliArgs) : List (Option Nat) :=
  [c.accessTokenTtl, c.refreshTokenTtl, c.invitationTtl, c.emailVerificationTtl,
    c.passwordResetTtl, c.reminderDueSoonWindow]

/-- The lifetimes of the buckets of `auth_rate_limit_middleware` and `protected_middleware`. -/
def bucketTtls (c : CliArgs) : List (Option Nat) :=
  [rateLimitTtl c.authRateLimitCapacity c.authRateLimitRefillPerSec,
    rateLimitTtl c.appRateLimitCapacity c.appRateLimitRefillPerSec]

/-- The times at which tokens and invitations expire, and the cutoff of `requeue_stale_jobs`. -/
def dateTimes (lib : Chrono) (now : Int) (c : CliArgs) : List (Option Int) :=
  [c.accessTokenTtl.bind (lib.after now), c.refreshTokenTtl.bind (lib.after now),
    c.invitationTtl.bind (lib.after now), c.emailVerificationTtl.bind (lib.after now),
    c.passwordResetTtl.bind (lib.after now), lib.before now c.jobLease]

/-- What is sent with `SETEX`, by `set_json` and by `deny_access_token` for a token that is valid
for a while. -/
def setexTtls (remaining : Nat) (c : CliArgs) : List Nat :=
  [c.cacheTtl, c.idempotencyTtl, max remaining 1]

/-- What `claim_idempotency_key` sends with `EXPIRE`. -/
def expireTtl (c : CliArgs) : Int := asI64 c.idempotencyTtl

/-- The windows that a statement casts with `::int`. -/
def sqlWindows (c : CliArgs) : List Int64 :=
  [c.reminderDueSoonHours, c.retentionSweepIntervalHours, c.refreshTokenRetentionDays,
    c.jobRetentionDays, c.notificationRetentionDays, c.auditRetentionDays]

/-- The periods, in milliseconds, of the loops of the notifier, the dispatcher, the reaper, the
webhook dispatcher, the scheduler and the sampler. -/
def intervals (c : CliArgs) : List UInt64 :=
  [c.notifyDispatchIntervalMs, c.workerDispatchIntervalMs, c.workerDispatchIntervalMs,
    c.webhookDispatchIntervalMs, c.workerSchedulerIntervalMs, c.samplerIntervalMs]

/-- The configuration can run at a time. -/
structure CanRun (lib : Chrono) (now : Int) (c : CliArgs) : Prop where
  /-- No integer operation overflows. -/
  lifetimes : ∀ ttl ∈ c.lifetimes, ttl.isSome = true
  dedupe : c.dedupeWindowSeconds.isSome = true
  buckets : ∀ ttl ∈ c.bucketTtls, ttl.isSome = true
  /-- Each time can be represented. -/
  dateTimes : ∀ t ∈ c.dateTimes lib now, t.isSome = true
  /-- What is sent to Redis is one second at least. -/
  setex : ∀ remaining, ∀ ttl ∈ c.setexTtls remaining, 1 ≤ ttl
  expire : 1 ≤ c.expireTtl
  pexpire : ∀ ttl, some ttl ∈ c.bucketTtls → 1000 ≤ asI64 ttl
  /-- Each window is an `int`. -/
  windows : ∀ n ∈ c.sqlWindows, -2 ^ 31 ≤ n.toInt ∧ n.toInt < 2 ^ 31
  /-- `tokio::time::interval` panics on zero. -/
  intervals : ∀ period ∈ c.intervals, period ≠ 0

/-- The bucket of a rate limit can be written. -/
structure BucketBounded (capacity refillPerSec : UInt64) : Prop where
  milli : capacity.toNat * 1000 < 2 ^ 64
  expiry : capacity.toNat * 1000 / refillPerSec.toNat + 1000 < 2 ^ 63

/-- The bounds that `validate` leaves out. -/
structure Bounded (lib : Chrono) (now : Int) (c : CliArgs) : Prop where
  access : now + c.accessTokenMinutes.toInt * 60 ≤ lib.maxUtc
  refresh : now + c.refreshTokenDays.toInt * 86400 ≤ lib.maxUtc
  invitation : now + c.invitationTtlHours.toInt * 3600 ≤ lib.maxUtc
  email : now + c.emailVerificationTtlHours.toInt * 3600 ≤ lib.maxUtc
  reset : now + c.passwordResetTtlMinutes.toInt * 60 ≤ lib.maxUtc
  lease : lib.minUtc ≤ now - c.jobLeaseSeconds.toNat
  dedupe : c.reminderDedupeTtlHours.toInt * 3600 < 2 ^ 63
  authBucket : BucketBounded c.authRateLimitCapacity c.authRateLimitRefillPerSec
  appBucket : BucketBounded c.appRateLimitCapacity c.appRateLimitRefillPerSec
  cache : 1 ≤ c.cacheTtlSeconds.toNat
  idempotency : 1 ≤ c.idempotencyTtlSeconds.toNat ∧ c.idempotencyTtlSeconds.toNat < 2 ^ 63
  windows : ∀ n ∈ c.sqlWindows, n.toInt < 2 ^ 31
  dispatch : c.workerDispatchIntervalMs ≠ 0
  scheduler : c.workerSchedulerIntervalMs ≠ 0

/-! ### Products -/

section

variable {n : Int} {factors : List Int} {lib : Chrono} {now : Int} {k : Nat}

theorem prod_pos (h : ∀ k ∈ factors, 1 ≤ k) : 1 ≤ factors.prod := by
  induction factors with
  | nil => exact le_rfl
  | cons k factors ih =>
      rw [List.prod_cons]
      have hk := h k List.mem_cons_self
      have hrest := ih fun k hk => h k (List.mem_cons_of_mem _ hk)
      exact hk.trans (le_mul_of_one_le_right (by omega) hrest)

/-- A product overflows on the way only if it overflows in the end. -/
theorem productI64_eq (hn : 0 ≤ n) (hlt : n < 2 ^ 63) (h : ∀ k ∈ factors, 1 ≤ k) :
    productI64 n factors = if n * factors.prod < 2 ^ 63 then some (n * factors.prod) else none := by
  induction factors generalizing n with
  | nil =>
      rw [List.prod_nil, mul_one, if_pos hlt]
      rfl
  | cons k factors ih =>
      have hk := h k List.mem_cons_self
      have hrest : ∀ k ∈ factors, 1 ≤ k := fun k hk => h k (List.mem_cons_of_mem _ hk)
      have hnk : 0 ≤ n * k := mul_nonneg hn (by omega)
      rw [productI64, List.prod_cons, ← mul_assoc]
      by_cases hfits : n * k < 2 ^ 63
      · have hstep : i64? (n * k) = some (n * k) := if_pos ⟨by omega, hfits⟩
        rw [hstep]
        exact ih hnk hfits hrest
      · have hstep : i64? (n * k) = none := if_neg fun hboth => hfits hboth.2
        have hmore : n * k ≤ n * k * factors.prod := le_mul_of_one_le_right hnk (prod_pos hrest)
        rw [hstep, if_neg (by omega)]
        rfl

/-- A lifetime that is positive. -/
theorem lifetime_eq {n : Int64} (hn : 0 < n.toInt) (h : ∀ k ∈ factors, 1 ≤ k) :
    lifetime n factors =
      if n.toInt * factors.prod < 2 ^ 63 then some (n.toInt * factors.prod).toNat else none := by
  rw [lifetime, productI64_eq hn.le n.toInt_lt h]
  have hprod : 0 ≤ n.toInt * factors.prod := mul_nonneg hn.le (by have := prod_pos h; omega)
  split
  · rw [Option.map_some, asU64, if_pos hprod]
  · rfl

theorem dateTime_isSome {t : Int} :
    (lib.dateTime t).isSome = true ↔ lib.minUtc ≤ t ∧ t ≤ lib.maxUtc := by
  rw [Chrono.dateTime]
  split
  · exact iff_of_true rfl ‹_›
  · exact iff_of_false nofun ‹_›

theorem after_isSome {ttl : Nat} : (lib.after now ttl).isSome = true ↔
    (ttl : Int) ≤ lib.maxSeconds ∧ lib.minUtc ≤ now + ttl ∧ now + ttl ≤ lib.maxUtc := by
  rw [Chrono.after, Chrono.fromStd]
  split
  · rename_i hlong
    exact dateTime_isSome.trans (and_iff_right hlong).symm
  · exact iff_of_false nofun fun h => absurd h.1 ‹_›

theorem before_isSome {ttl : Nat} : (lib.before now ttl).isSome = true ↔
    (ttl : Int) ≤ lib.maxSeconds ∧ lib.minUtc ≤ now - ttl ∧ now - ttl ≤ lib.maxUtc := by
  rw [Chrono.before, Chrono.fromStd]
  split
  · rename_i hlong
    exact dateTime_isSome.trans (and_iff_right hlong).symm
  · exact iff_of_false nofun fun h => absurd h.1 ‹_›

/-- A time a lifetime from now can be represented if it is not too late. -/
theorem after_iff (hnow : lib.minUtc ≤ now) {n : Int64} (hn : 0 < n.toInt)
    (h : ∀ k ∈ factors, 1 ≤ k) :
    ((lifetime n factors).bind (lib.after now)).isSome = true ↔
      now + n.toInt * factors.prod ≤ lib.maxUtc := by
  have hprod : 0 ≤ n.toInt * factors.prod := mul_nonneg hn.le (by have := prod_pos h; omega)
  have hspan := lib.span
  have hfits := lib.fits
  rw [lifetime_eq hn h]
  generalize n.toInt * factors.prod = total at *
  split
  · rw [Option.bind_some, after_isSome]
    omega
  · refine iff_of_false nofun ?_
    omega

theorem asI64_eq (hk : k < 2 ^ 64) :
    asI64 k = if k < 2 ^ 63 then (k : Int) else (k : Int) - 2 ^ 64 := by
  unfold asI64 Int.bmod
  dsimp only
  split <;> split <;> omega

theorem rateLimitTtl_eq {capacity refillPerSec : UInt64} :
    rateLimitTtl capacity refillPerSec =
      if capacity.toNat * 1000 < 2 ^ 64 ∧
          capacity.toNat * 1000 / refillPerSec.toNat + 1000 < 2 ^ 64 then
        some (capacity.toNat * 1000 / refillPerSec.toNat + 1000)
      else none := by
  simp only [rateLimitTtl, u64?, Option.bind_eq_bind, Option.pure_def]
  by_cases hmilli : capacity.toNat * 1000 < 2 ^ 64
  · rw [if_pos hmilli, Option.bind_some]
    generalize capacity.toNat * 1000 / refillPerSec.toNat = q
    by_cases hsum : q + 1000 < 2 ^ 64
    · rw [if_pos hsum, if_pos ⟨hmilli, hsum⟩, Option.bind_some, Nat.max_eq_left (by omega)]
    · rw [if_neg hsum, if_neg fun h => hsum h.2, Option.bind_none]
  · rw [if_neg hmilli, if_neg fun h => hmilli h.1, Option.bind_none]

/-- Where nothing overflows, the lifetime is the one of `rateLimit`, whose numbers wrap around. -/
theorem rateLimitTtl_wraps {capacity refillPerSec : UInt64} {ttl : Nat}
    (h : rateLimitTtl capacity refillPerSec = some ttl) :
    ttl = max (wrapU64 (wrapU64 (capacity.toNat * 1000) / refillPerSec.toNat + 1000)) 1000 := by
  rw [rateLimitTtl_eq] at h
  split at h
  · rename_i hfits
    obtain rfl := Option.some.inj h
    rw [wrapU64, wrapU64, Nat.mod_eq_of_lt hfits.1, Nat.mod_eq_of_lt hfits.2,
      Nat.max_eq_left (Nat.le_add_left _ _)]
  · exact nomatch h

/-- The bucket's lifetime is computed, and is positive as an `i64`. -/
theorem bucket_iff {capacity refillPerSec : UInt64} :
    ((rateLimitTtl capacity refillPerSec).isSome = true ∧
      ∀ ttl, rateLimitTtl capacity refillPerSec = some ttl → 1000 ≤ asI64 ttl) ↔
      BucketBounded capacity refillPerSec := by
  rw [rateLimitTtl_eq]
  constructor
  · rintro ⟨hsome, hall⟩
    split at hsome
    · rename_i hfits
      rw [if_pos hfits] at hall
      have hsent := hall _ rfl
      rw [asI64_eq hfits.2] at hsent
      refine ⟨hfits.1, ?_⟩
      by_contra hn
      rw [if_neg hn] at hsent
      have hfits := hfits.2
      omega
    · exact nomatch hsome
  · rintro ⟨hmilli, hexpiry⟩
    rw [if_pos ⟨hmilli, by omega⟩]
    refine ⟨rfl, fun ttl httl => ?_⟩
    obtain rfl := Option.some.inj httl
    rw [asI64_eq (by omega), if_pos hexpiry]
    generalize capacity.toNat * 1000 / refillPerSec.toNat = q
    omega

end

/-! ### What has been checked -/

/-- What `validate` checks of the fields that the arithmetic reads. -/
structure Checked (c : CliArgs) : Prop where
  access : 0 < c.accessTokenMinutes.toInt
  refresh : 0 < c.refreshTokenDays.toInt
  invitation : 0 < c.invitationTtlHours.toInt
  email : 0 < c.emailVerificationTtlHours.toInt
  reset : 0 < c.passwordResetTtlMinutes.toInt
  dedupe : 0 < c.reminderDedupeTtlHours.toInt
  windows : ∀ n ∈ c.sqlWindows, 0 < n.toInt
  notify : c.notifyDispatchIntervalMs ≠ 0
  webhook : c.webhookDispatchIntervalMs ≠ 0
  sampler : c.samplerIntervalMs ≠ 0

theorem checked {c c' : CliArgs} (h : c.validate = .ok c') : Checked c := by
  have hpos : ∀ {x : Int64}, ¬ x ≤ 0 → 0 < x.toInt := by
    intro x hx
    rw [Int64.le_iff_toInt_le] at hx
    exact not_le.mp hx
  simp only [validate, bind_eq_ok, rejectIf_eq_ok, exists_const, Bool.or_eq_false_iff,
    decide_eq_false_iff_not] at h
  obtain ⟨-, -, htokens, -, -, -, hinvitation, -, _, -, hnotify, haccount, hreminder, -, -, hwebhook,
    hretention, hsampler, -⟩ := h
  refine ⟨hpos htokens.1, hpos htokens.2, hpos hinvitation, hpos haccount.1, hpos haccount.2,
    hpos hreminder.2, ?_, hnotify, hwebhook, hsampler⟩
  simp only [sqlWindows, List.forall_mem_cons]
  exact ⟨hpos hreminder.1, hpos hretention.1.1.1.1, hpos hretention.1.1.1.2, hpos hretention.1.1.2,
    hpos hretention.1.2, hpos hretention.2, nofun⟩

/-! ### The bounds -/

section

variable {c : CliArgs} {lib : Chrono} {now : Int}

theorem before_iff (hnow : now ≤ lib.maxUtc) {ttl : Nat} :
    (lib.before now ttl).isSome = true ↔ lib.minUtc ≤ now - ttl := by
  have hspan := lib.span
  rw [before_isSome]
  omega

/-- A lifetime that a time can be built with is computed without an overflow. -/
theorem isSome_of_bind {A B : Type} {o : Option A} {f : A → Option B}
    (h : (o.bind f).isSome = true) : o.isSome = true := by
  cases o with
  | none => exact nomatch h
  | some a => rfl

/-- Each of the bounds is needed. -/
theorem bounded (hc : Checked c) (hmin : lib.minUtc ≤ now) (hmax : now ≤ lib.maxUtc)
    (h : CanRun lib now c) : Bounded lib now c := by
  have htimes := h.dateTimes
  have hbuckets := h.buckets
  have hsetex := h.setex 0
  have hexpire := h.expire
  have hintervals := h.intervals
  simp only [CliArgs.dateTimes, bucketTtls, setexTtls, CliArgs.intervals, List.forall_mem_cons]
    at htimes hbuckets hsetex hintervals
  obtain ⟨haccess, hrefresh, hinvitation, hemail, hreset, hlease, -⟩ := htimes
  refine {
    access := (after_iff hmin hc.access (by decide)).mp haccess
    refresh := (after_iff hmin hc.refresh (by decide)).mp hrefresh
    invitation := (after_iff hmin hc.invitation (by decide)).mp hinvitation
    email := (after_iff hmin hc.email (by decide)).mp hemail
    reset := (after_iff hmin hc.reset (by decide)).mp hreset
    lease := (before_iff hmax).mp hlease
    dedupe := ?_
    authBucket := bucket_iff.mp ⟨hbuckets.1, fun ttl httl => h.pexpire ttl ?_⟩
    appBucket := bucket_iff.mp ⟨hbuckets.2.1, fun ttl httl => h.pexpire ttl ?_⟩
    cache := hsetex.1
    idempotency := ⟨hsetex.2.1, ?_⟩
    windows := fun n hn => (h.windows n hn).2
    dispatch := hintervals.2.1
    scheduler := hintervals.2.2.2.2.1 }
  · have hdedupe := h.dedupe
    rw [dedupeWindowSeconds, productI64_eq hc.dedupe.le c.reminderDedupeTtlHours.toInt_lt (by decide),
      List.prod_singleton] at hdedupe
    by_contra hn
    rw [if_neg hn] at hdedupe
    exact nomatch hdedupe
  · rw [← httl]
    exact List.mem_cons_self
  · rw [← httl]
    exact List.mem_cons_of_mem _ List.mem_cons_self
  · -- A larger number of seconds is negative as an `i64`.
    by_contra hn
    have hlt := c.idempotencyTtlSeconds.toNat_lt
    rw [expireTtl, idempotencyTtl, asI64_eq hlt, if_neg hn] at hexpire
    omega

/-- The bounds are enough. -/
theorem canRun (hc : Checked c) (hmin : lib.minUtc ≤ now) (hmax : now ≤ lib.maxUtc)
    (h : Bounded lib now c) : CanRun lib now c := by
  have haccess : (c.accessTokenTtl.bind (lib.after now)).isSome = true :=
    (after_iff hmin hc.access (by decide)).mpr h.access
  have hrefresh : (c.refreshTokenTtl.bind (lib.after now)).isSome = true :=
    (after_iff hmin hc.refresh (by decide)).mpr h.refresh
  have hinvitation : (c.invitationTtl.bind (lib.after now)).isSome = true :=
    (after_iff hmin hc.invitation (by decide)).mpr h.invitation
  have hemail : (c.emailVerificationTtl.bind (lib.after now)).isSome = true :=
    (after_iff hmin hc.email (by decide)).mpr h.email
  have hreset : (c.passwordResetTtl.bind (lib.after now)).isSome = true :=
    (after_iff hmin hc.reset (by decide)).mpr h.reset
  have hlease : (lib.before now c.jobLease).isSome = true := (before_iff hmax).mpr h.lease
  have hauth := bucket_iff.mpr h.authBucket
  have happ := bucket_iff.mpr h.appBucket
  have hdue : c.reminderDueSoonWindow.isSome = true := by
    have hpos := hc.windows _ List.mem_cons_self
    have hsmall := h.windows _ List.mem_cons_self
    have hprod : c.reminderDueSoonHours.toInt * [60, 60].prod < 2 ^ 63 := by
      change c.reminderDueSoonHours.toInt * 3600 < 2 ^ 63
      omega
    rw [reminderDueSoonWindow, lifetime_eq hpos (by decide), if_pos hprod]
    rfl
  have hdedupe : c.dedupeWindowSeconds.isSome = true := by
    rw [dedupeWindowSeconds, productI64_eq hc.dedupe.le c.reminderDedupeTtlHours.toInt_lt (by decide),
      List.prod_singleton, if_pos h.dedupe]
    rfl
  refine {
    lifetimes := ?_
    dedupe := hdedupe
    buckets := ?_
    dateTimes := ?_
    setex := fun remaining => ?_
    expire := ?_
    pexpire := fun ttl httl => ?_
    windows := fun n hn => ?_
    intervals := ?_ }
  · simp only [CliArgs.lifetimes, List.forall_mem_cons]
    exact ⟨isSome_of_bind haccess, isSome_of_bind hrefresh, isSome_of_bind hinvitation,
      isSome_of_bind hemail, isSome_of_bind hreset, hdue, nofun⟩
  · simp only [bucketTtls, List.forall_mem_cons]
    exact ⟨hauth.1, happ.1, nofun⟩
  · simp only [CliArgs.dateTimes, List.forall_mem_cons]
    exact ⟨haccess, hrefresh, hinvitation, hemail, hreset, hlease, nofun⟩
  · simp only [setexTtls, List.forall_mem_cons]
    exact ⟨h.cache, h.idempotency.1, Nat.le_max_right _ _, nofun⟩
  · rw [expireTtl, idempotencyTtl, asI64_eq c.idempotencyTtlSeconds.toNat_lt,
      if_pos h.idempotency.2]
    have hone := h.idempotency.1
    omega
  · rcases List.mem_cons.mp httl with hauthTtl | happTtl
    · exact hauth.2 ttl hauthTtl.symm
    · exact happ.2 ttl (List.mem_singleton.mp happTtl).symm
  · have hpos := hc.windows n hn
    exact ⟨by omega, h.windows n hn⟩
  · simp only [CliArgs.intervals, List.forall_mem_cons]
    exact ⟨hc.notify, h.dispatch, h.dispatch, hc.webhook, h.scheduler, hc.sampler, nofun⟩

end

end CliArgs

open CliArgs in
/-- **An accepted configuration can run** at a time if and only if its fields have the bounds that
the check leaves out. -/
theorem config_can_run (lib : Chrono) (now : Int) (hmin : lib.minUtc ≤ now)
    (hmax : now ≤ lib.maxUtc) (c : CliArgs) (hc : c.validate = .ok c) :
    CanRun lib now c ↔ Bounded lib now c :=
  ⟨bounded (checked hc) hmin hmax, canRun (checked hc) hmin hmax⟩

/-- The years from -262143 to 262142. -/
def chrono : Chrono where
  minUtc := -8334601228800
  maxUtc := 8210266876799
  maxSeconds := 9223372036854775
  span := by decide
  fits := by decide

/-- The defaults, with the secrets of the development setup. -/
def developmentArgs : CliArgs :=
  { jwtSecret := "local-development-secret-local-development"
    grpcAuthToken := "local-development-grpc-token-local-development" }

/-- The defaults, but for the dispatch interval. -/
def undispatched : CliArgs := { developmentArgs with workerDispatchIntervalMs := 0 }

theorem config_can_run_development :
    CliArgs.CanRun chrono 1750000000 developmentArgs ↔
      CliArgs.Bounded chrono 1750000000 developmentArgs :=
  config_can_run chrono 1750000000 (by decide) (by decide) developmentArgs rfl

/-- A period of zero is accepted, and the dispatcher and the reaper panic on it. -/
theorem accepted_config_panics :
    undispatched.validate = .ok undispatched ∧
      ¬ CliArgs.CanRun chrono 1750000000 undispatched :=
  ⟨rfl, fun h => h.intervals 0 (List.mem_cons_of_mem _ List.mem_cons_self) rfl⟩

end Fluxa
