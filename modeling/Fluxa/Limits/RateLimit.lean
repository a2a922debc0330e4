import Fluxa.Limits.TokenBucket
import Fluxa.State.AppState

/-!
# Limits — The rate limit

`rate_limit` of `cache.rs` and its Lua script.  The numbers of Lua are doubles and those of Rust wrap around; within the limits of `ExactLimit` both are exact, and the script is a call on a token bucket (`rateLimit_bucket`).

**The token-bucket bound** (`token_bucket_bound`).  What the key holds stays within the capacity, the calls allowed in a time interval are at most the capacity and what is refilled during it, and whether the key expires after the time to live that the script sets makes no difference to any decision.
-/

namespace Fluxa

/-! ### Machine numbers -/

/-- An unsigned product or sum of 64 bits. -/
def wrapU64 (n : Nat) : Nat := n % 2 ^ 64

/-- `as i64`. -/
def asI64 (n : Nat) : Int := Int.bmod n (2 ^ 64)

/-- The double next to a natural number, ties to even. -/
def doubleNat (n : Nat) : Nat :=
  if n < 2 ^ 53 then n
  else
    let ulp := 2 ^ (n.log2 - 52)
    let q := n / ulp
    let r := n % ulp
    (if 2 * r < ulp ∨ 2 * r = ulp ∧ q % 2 = 0 then q else q + 1) * ulp

/-- The double next to an integer. -/
def double (n : Int) : Int := n.sign * doubleNat n.natAbs

theorem doubleNat_of_lt {n : Nat} (h : n < 2 ^ 53) : doubleNat n = n := if_pos h

theorem le_doubleNat {n : Nat} (h : 2 ^ 53 ≤ n) : 2 ^ 53 ≤ doubleNat n := by
  have hn : n ≠ 0 := by omega
  have hlog : 53 ≤ n.log2 := (Nat.le_log2 hn).mpr h
  have hself : 2 ^ n.log2 ≤ n := Nat.log2_self_le hn
  have hsplit : 2 ^ n.log2 = 2 ^ 52 * 2 ^ (n.log2 - 52) := by
    rw [← Nat.pow_add]
    congr 1
    omega
  have hulp : 0 < 2 ^ (n.log2 - 52) := Nat.two_pow_pos _
  have hulp2 : 2 ≤ 2 ^ (n.log2 - 52) :=
    le_trans (by norm_num) (Nat.pow_le_pow_right (by norm_num) (show 1 ≤ n.log2 - 52 by omega))
  -- The quotient has 53 bits and the unit is at least two.
  have hq : 2 ^ 52 ≤ n / 2 ^ (n.log2 - 52) := by
    rw [Nat.le_div_iff_mul_le hulp, ← hsplit]
    exact hself
  have hround : ∀ q, 2 ^ 52 ≤ q → 2 ^ 53 ≤ q * 2 ^ (n.log2 - 52) := fun q hq =>
    calc 2 ^ 53 = 2 ^ 52 * 2 := by norm_num
      _ ≤ q * 2 ^ (n.log2 - 52) := Nat.mul_le_mul hq hulp2
  unfold doubleNat
  rw [if_neg (by omega)]
  dsimp only
  split
  · exact hround _ hq
  · exact hround _ (hq.trans (Nat.le_succ _))

theorem double_natCast (n : Nat) : double n = doubleNat n := by
  cases n with
  | zero => rfl
  | succ n =>
      unfold double
      rw [Int.sign_eq_one_of_pos (by omega), Int.one_mul, Int.natAbs_natCast]

theorem double_of_lt {n : Nat} (h : n < 2 ^ 53) : double n = n := by
  rw [double_natCast, doubleNat_of_lt h]

theorem asI64_of_lt {n : Nat} (h : n < 2 ^ 53) : asI64 n = n := by
  unfold asI64
  rw [Int.bmod_eq_of_le] <;> omega

theorem wrapU64_of_lt {n : Nat} (h : n < 2 ^ 53) : wrapU64 n = n := Nat.mod_eq_of_lt (by omega)

/-- An argument below `2 ^ 53` reaches the script as it is. -/
theorem double_asI64 {n : Nat} (h : n < 2 ^ 53) : double (asI64 n) = n := by
  rw [asI64_of_lt h, double_of_lt h]

theorem doubleNat_pos {n : Nat} (h : 0 < n) : 0 < doubleNat n := by
  by_cases hn : n < 2 ^ 53
  · rwa [doubleNat_of_lt hn]
  · have := le_doubleNat (not_lt.mp hn)
    omega

theorem double_pos {n : Int} (h : 0 < n) : 0 < double n := by
  obtain ⟨n, rfl⟩ := Int.eq_ofNat_of_zero_le h.le
  rw [double_natCast]
  exact_mod_cast doubleNat_pos (by exact_mod_cast h)

theorem double_nonpos {n : Int} (h : n ≤ 0) : double n ≤ 0 := by
  unfold double
  exact Int.mul_nonpos_of_nonpos_of_nonneg (Int.sign_nonpos_iff.mpr h) (Int.natCast_nonneg _)

/-- Rounding does not reach a small number from below. -/
theorem double_lt {n : Int} {m : Nat} (hm : m < 2 ^ 53) (hpos : 0 < m) (h : n < m) :
    double n < m := by
  by_cases hn : 0 ≤ n
  · obtain ⟨n, rfl⟩ := Int.eq_ofNat_of_zero_le hn
    rwa [double_of_lt (by omega)]
  · have := double_nonpos (n := n) (by omega)
    omega

/-- Nor from above. -/
theorem le_double {n m : Nat} (hm : m ≤ 2 ^ 53) (h : m ≤ n) : (m : Int) ≤ double n := by
  rw [double_natCast]
  by_cases hn : n < 2 ^ 53
  · rw [doubleNat_of_lt hn]
    exact_mod_cast h
  · have := le_doubleNat (not_lt.mp hn)
    omega

/-! ### The script -/

/-- The hash under the key of a bucket. -/
structure RateBucket where
  tokens : Int
  ts : Int
deriving DecidableEq, Repr

/-- `RATE_LIMIT_SCRIPT` on what `HMGET` finds: what it returns, and what `HMSET` leaves.  Its
quotient is rounded up exactly: the cost is far below what a double resolves. -/
def rateLimitScript (capacity refillPerMs nowMs cost : Int) (data : Option RateBucket) :
    (Int × Int × Int) × RateBucket :=
  let found := data.getD ⟨capacity, nowMs⟩
  let elapsed := max 0 (double (nowMs - found.ts))
  let tokens := min capacity (double (found.tokens + double (elapsed * refillPerMs)))
  if cost ≤ tokens then
    let tokens := double (tokens - cost)
    ((1, tokens, 0), ⟨tokens, nowMs⟩)
  else
    let retryAfterMs := -(-double (cost - tokens) / refillPerMs)
    ((0, tokens, retryAfterMs), ⟨tokens, nowMs⟩)

/-- `RateLimitDecision`. -/
structure RateLimitDecision where
  allowed : Bool
  remainingTokens : Nat
  /-- In milliseconds. -/
  retryAfter : Nat
deriving DecidableEq, Repr

/-- `rate_limit` at `now_millis`, on what the key holds, and what it holds then.  The script ends
with `PEXPIRE`; without it the key is there for ever. -/
def rateLimit (pexpire : Bool) (capacity refillPerSec cost nowMs : Nat)
    (key : Option (Entry RateBucket)) : RateLimitDecision × Option (Entry RateBucket) :=
  let capacityMilli := wrapU64 (capacity * 1000)
  let costMilli := wrapU64 (cost * 1000)
  let refillPerMs := refillPerSec
  let ttlMs := max (wrapU64 (capacityMilli / refillPerMs + 1000)) 1000
  let response := rateLimitScript (double (asI64 capacityMilli)) (double (asI64 refillPerMs))
    (double (asI64 nowMs)) (double (asI64 costMilli))
    ((key.filter fun entry => entry.live nowMs).map (·.value))
  (⟨response.1.1 = 1, response.1.2.1.toNat / 1000, response.1.2.2.toNat⟩,
    some ⟨response.2, if pexpire then some (nowMs + ttlMs) else none⟩)

/-- One call of a sequence of calls: when it is made, what it decides, and what the key holds
after it. -/
structure RateLimitCall where
  nowMs : Nat
  decision : RateLimitDecision
  held : Option (Entry RateBucket)

/-- The calls of cost 1 at the given times on one key. -/
def rateLimitCalls (pexpire : Bool) (capacity refillPerSec : Nat) :
    Option (Entry RateBucket) → List Nat → List RateLimitCall
  | _, [] => []
  | key, nowMs :: rest =>
    let response := rateLimit pexpire capacity refillPerSec 1 nowMs key
    ⟨nowMs, response.1, response.2⟩ :: rateLimitCalls pexpire capacity refillPerSec response.2 rest

/-- The calls that are allowed within the closed time interval from `s` to `t`. -/
def allowedWithin (s t : Nat) (calls : List RateLimitCall) : List RateLimitCall :=
  calls.filter fun c => c.decision.allowed && (decide (s ≤ c.nowMs) && decide (c.nowMs ≤ t))

/-- The capacity and the refill rate are positive, and as milli-tokens exact. -/
structure ExactLimit (capacity refillPerSec : Nat) : Prop where
  capacity_pos : 0 < capacity
  refill_pos : 0 < refillPerSec
  capacity_lt : capacity * 1000 < 2 ^ 53
  refill_lt : refillPerSec < 2 ^ 53

/-! ### The script as a token bucket -/

/-- The limit in milli-tokens and milliseconds. -/
def bucketLimit (capacity refillPerSec : Nat) : TokenBucket.Limit :=
  ⟨capacity * 1000, refillPerSec⟩

/-- The decision on a call at time `now`, from the bucket. -/
def bucketDecision (l : TokenBucket.Limit) (b : TokenBucket.Level) (now : Nat) :
    RateLimitDecision where
  allowed := l.admits 1000 b now
  remainingTokens := (l.take 1000 b now).tokens / 1000
  retryAfter := if l.admits 1000 b now then 0
    else (-(-((1000 - l.refilled b now : Nat) : Int) / l.rate)).toNat

/-- What the key holds stands for the bucket: an absent key for a full one, and a key is not to
expire before its bucket is full again. -/
def StandsFor (l : TokenBucket.Limit) (b : TokenBucket.Level) : Option (Entry RateBucket) → Prop
  | none => b.tokens = l.capacity
  | some entry => entry.value = ⟨b.tokens, b.time⟩ ∧
      ∀ t ∈ entry.expiresAt, ∀ now, t ≤ now → l.capacity ≤ (now - b.time) * l.rate

variable {capacity refillPerSec : Nat}

/-- The time to live covers the time to a full bucket. -/
theorem ttl_covers (h : ExactLimit capacity refillPerSec) :
    capacity * 1000 ≤ (capacity * 1000 / refillPerSec + 1000) * refillPerSec := by
  have hdiv := Nat.div_add_mod (capacity * 1000) refillPerSec
  have hmod := Nat.mod_lt (capacity * 1000) h.refill_pos
  rw [Nat.add_mul, Nat.mul_comm (_ / _)]
  omega

/-- In range, the script finds the tokens of the refilled bucket. -/
theorem script_tokens {cap refill tokens elapsed : Nat} (hcap : cap < 2 ^ 53)
    (htokens : tokens ≤ cap) :
    min (cap : Int) (double (tokens + double (elapsed * refill))) =
      (min cap (tokens + elapsed * refill) : Nat) := by
  have hnat : (double (tokens + double (elapsed * refill)) : Int) =
      (doubleNat (tokens + doubleNat (elapsed * refill)) : Nat) := by
    rw [← Nat.cast_mul, double_natCast, ← Nat.cast_add, double_natCast]
  rw [hnat]
  suffices min cap (doubleNat (tokens + doubleNat (elapsed * refill))) =
      min cap (tokens + elapsed * refill) by omega
  by_cases hmul : elapsed * refill < 2 ^ 53
  · rw [doubleNat_of_lt hmul]
    by_cases hadd : tokens + elapsed * refill < 2 ^ 53
    · rw [doubleNat_of_lt hadd]
    · have := le_doubleNat (not_lt.mp hadd)
      omega
  · -- An inexact refill is one that fills the bucket.
    have hbig := le_doubleNat (not_lt.mp hmul)
    have := le_doubleNat (n := tokens + doubleNat (elapsed * refill)) (by omega)
    omega

/-- What the script returns for a call on a bucket. -/
def bucketResponse (l : TokenBucket.Limit) (b : TokenBucket.Level) (nowMs : Nat) :
    (Int × Int × Int) × RateBucket :=
  ((if l.admits 1000 b nowMs then 1 else 0, (l.take 1000 b nowMs).tokens,
    if l.admits 1000 b nowMs then 0
    else -(-((1000 - l.refilled b nowMs : Nat) : Int) / l.rate)),
    ⟨(l.take 1000 b nowMs).tokens, nowMs⟩)

/-- In range, the script is a call on the bucket that it finds. -/
theorem rateLimitScript_eq {l : TokenBucket.Limit} {b : TokenBucket.Level} {nowMs : Nat}
    {data : Option RateBucket} (hcap : l.capacity < 2 ^ 53) (hnow : nowMs < 2 ^ 53)
    (htokens : b.tokens ≤ l.capacity)
    (hfound : data.getD ⟨l.capacity, nowMs⟩ = ⟨b.tokens, b.time⟩) :
    rateLimitScript l.capacity l.rate nowMs (1000 : Nat) data = bucketResponse l b nowMs := by
  have helapsed : max 0 (double ((nowMs : Int) - b.time)) = (nowMs - b.time : Nat) := by
    by_cases htime : b.time ≤ nowMs
    · rw [← Nat.cast_sub htime, double_of_lt (by omega)]
      omega
    · -- A clock that has gone back counts no time.
      have := double_nonpos (n := (nowMs : Int) - b.time) (by omega)
      omega
  have hrefilled : l.refilled b nowMs ≤ l.capacity := TokenBucket.Limit.refilled_le_capacity
  unfold rateLimitScript bucketResponse
  simp only [hfound, helapsed, script_tokens hcap htokens]
  rw [show min l.capacity (b.tokens + (nowMs - b.time) * l.rate) = l.refilled b nowMs from rfl]
  by_cases hadm : 1000 ≤ l.refilled b nowMs
  · have hpay : double ((l.refilled b nowMs : Int) - (1000 : Nat)) =
        (l.refilled b nowMs - 1000 : Nat) := by
      rw [← Nat.cast_sub hadm, double_of_lt (by omega)]
    have htrue : l.admits 1000 b nowMs = true := decide_eq_true hadm
    rw [if_pos (by exact_mod_cast hadm), hpay]
    simp only [htrue, ↓reduceIte, TokenBucket.Limit.take]
  · have hshort : double (((1000 : Nat) : Int) - l.refilled b nowMs) =
        (1000 - l.refilled b nowMs : Nat) := by
      rw [← Nat.cast_sub (by omega), double_of_lt (by omega)]
    have hfalse : l.admits 1000 b nowMs = false := decide_eq_false hadm
    rw [if_neg (by exact_mod_cast hadm), hshort]
    simp [hfalse, TokenBucket.Limit.take]

/-- The script sees nothing of a bucket but the tokens it finds. -/
theorem bucketResponse_congr {l : TokenBucket.Limit} {b b' : TokenBucket.Level} {nowMs : Nat}
    (h : l.refilled b nowMs = l.refilled b' nowMs) :
    bucketResponse l b nowMs = bucketResponse l b' nowMs := by
  unfold bucketResponse TokenBucket.Limit.take TokenBucket.Limit.admits
  rw [h]

/-- `StandsFor` at a time from which on the bucket is used. -/
structure Represents (l : TokenBucket.Limit) (b : TokenBucket.Level)
    (key : Option (Entry RateBucket)) (nowMs : Nat) : Prop where
  stands : StandsFor l b key
  tokens_le : b.tokens ≤ l.capacity
  time_le : b.time ≤ nowMs

/-- What the script finds is the bucket, or a full one where the bucket has filled up. -/
theorem Represents.found {l : TokenBucket.Limit} {b : TokenBucket.Level}
    {key : Option (Entry RateBucket)} {nowMs : Nat} (h : Represents l b key nowMs) :
    ∃ found : TokenBucket.Level,
      ((key.filter fun entry => entry.live nowMs).map (·.value)).getD ⟨l.capacity, nowMs⟩ =
        ⟨found.tokens, found.time⟩ ∧
      found.tokens ≤ l.capacity ∧ found.time ≤ nowMs ∧
      l.refilled found nowMs = l.refilled b nowMs := by
  obtain ⟨hstands, htokens, htime⟩ := h
  have hfull : l.refilled ⟨l.capacity, nowMs⟩ nowMs = l.capacity := by
    simp [TokenBucket.Limit.refilled]
  cases key with
  | none =>
      have hb : b.tokens = l.capacity := hstands
      refine ⟨⟨l.capacity, nowMs⟩, rfl, le_rfl, le_rfl, hfull.trans ?_⟩
      simp [TokenBucket.Limit.refilled, hb]
  | some entry =>
      obtain ⟨hvalue, hexpires⟩ := hstands
      by_cases hlive : entry.live nowMs = true
      · refine ⟨b, ?_, htokens, htime, rfl⟩
        simp [Option.filter, hlive, hvalue]
      · refine ⟨⟨l.capacity, nowMs⟩, ?_, le_rfl, le_rfl, hfull.trans ?_⟩
        · simp [Option.filter, hlive]
        · obtain ⟨value, _ | t⟩ := entry
          · exact absurd rfl hlive
          · have ht : t ≤ nowMs := by simpa [Entry.live] using hlive
            exact (TokenBucket.Limit.refilled_eq_capacity (hexpires t rfl nowMs ht)).symm

/-- A call of cost 1 whose arguments reach the script as they are. -/
def rateLimitExact (pexpire : Bool) (l : TokenBucket.Limit) (nowMs : Nat)
    (key : Option (Entry RateBucket)) : RateLimitDecision × Option (Entry RateBucket) :=
  let response := rateLimitScript l.capacity l.rate nowMs (1000 : Nat)
    ((key.filter fun entry => entry.live nowMs).map (·.value))
  (⟨response.1.1 = 1, response.1.2.1.toNat / 1000, response.1.2.2.toNat⟩,
    some ⟨response.2,
      if pexpire then some (nowMs + max (wrapU64 (l.capacity / l.rate + 1000)) 1000) else none⟩)

theorem rateLimit_exact {pexpire : Bool} {key : Option (Entry RateBucket)} {nowMs : Nat}
    (h : ExactLimit capacity refillPerSec) (hnow : nowMs < 2 ^ 53) :
    rateLimit pexpire capacity refillPerSec 1 nowMs key =
      rateLimitExact pexpire (bucketLimit capacity refillPerSec) nowMs key := by
  have hcost : double (asI64 (wrapU64 (1 * 1000))) = (1000 : Nat) := by decide +kernel
  unfold rateLimit rateLimitExact
  dsimp only
  rw [wrapU64_of_lt h.capacity_lt, double_asI64 h.capacity_lt, double_asI64 h.refill_lt,
    double_asI64 hnow, hcost]
  rfl

/-- **A call of `rate_limit` is a call on the bucket.** -/
theorem rateLimit_bucket {pexpire : Bool} {b : TokenBucket.Level} {key : Option (Entry RateBucket)}
    {nowMs : Nat} (h : ExactLimit capacity refillPerSec) (hnow : nowMs < 2 ^ 53)
    (hb : Represents (bucketLimit capacity refillPerSec) b key nowMs) :
    (rateLimit pexpire capacity refillPerSec 1 nowMs key).1 =
        bucketDecision (bucketLimit capacity refillPerSec) b nowMs ∧
      Represents (bucketLimit capacity refillPerSec)
        ((bucketLimit capacity refillPerSec).take 1000 b nowMs)
        (rateLimit pexpire capacity refillPerSec 1 nowMs key).2 nowMs := by
  have hcap := h.capacity_lt
  obtain ⟨found, hfound, hle, htime, hsame⟩ := hb.found
  have hscript := rateLimitScript_eq hcap hnow hle hfound
  rw [bucketResponse_congr hsame] at hscript
  have hdiv : capacity * 1000 / refillPerSec ≤ capacity * 1000 := Nat.div_le_self _ _
  rw [rateLimit_exact h hnow]
  unfold rateLimitExact
  rw [hscript]
  refine ⟨?_, ⟨rfl, fun t ht now hnow => ?_⟩, TokenBucket.Limit.take_tokens_le_capacity, le_rfl⟩
  · unfold bucketResponse bucketDecision
    by_cases hadm : (bucketLimit capacity refillPerSec).admits 1000 b nowMs = true
    · simp [hadm]
    · simp [hadm]
  · split at ht
    · obtain rfl : nowMs + max (wrapU64 (capacity * 1000 / refillPerSec + 1000)) 1000 = t :=
        Option.some.inj ht
      have hexact : wrapU64 (capacity * 1000 / refillPerSec + 1000) =
          capacity * 1000 / refillPerSec + 1000 := Nat.mod_eq_of_lt (by omega)
      have httl : capacity * 1000 / refillPerSec + 1000 ≤ now - nowMs := by
        have hmax : nowMs + max (wrapU64 (capacity * 1000 / refillPerSec + 1000)) 1000 ≤ now := hnow
        omega
      exact (ttl_covers h).trans (Nat.mul_le_mul_right _ httl)
    · cases ht

/-! ### Runs -/

theorem Represents.later {l : TokenBucket.Limit} {b : TokenBucket.Level}
    {key : Option (Entry RateBucket)} {nowMs laterMs : Nat} (h : Represents l b key nowMs)
    (hle : nowMs ≤ laterMs) : Represents l b key laterMs :=
  ⟨h.stands, h.tokens_le, h.time_le.trans hle⟩

/-- The milli-tokens that the key holds, if it does, lie between zero and the capacity. -/
def TokensInRange (capacity : Nat) (key : Option (Entry RateBucket)) : Prop :=
  ∀ entry ∈ key, 0 ≤ entry.value.tokens ∧ entry.value.tokens ≤ 1000 * capacity

theorem Represents.inRange {b : TokenBucket.Level} {key : Option (Entry RateBucket)} {nowMs : Nat}
    (h : Represents (bucketLimit capacity refillPerSec) b key nowMs) :
    TokensInRange capacity key := by
  rintro entry hentry
  obtain rfl : key = some entry := hentry
  have hle : b.tokens ≤ capacity * 1000 := h.tokens_le
  rw [h.stands.1]
  dsimp only
  omega

/-- Calls on a key that stands for a bucket: what it holds stays in range, and the allowed ones are
those that the bucket admits. -/
theorem calls_represent {pexpire : Bool} {times : List Nat} {b : TokenBucket.Level}
    {key : Option (Entry RateBucket)} (h : ExactLimit capacity refillPerSec)
    (hsorted : times.Pairwise (· ≤ ·)) (hlt : ∀ now ∈ times, now < 2 ^ 53)
    (hb : ∀ now ∈ times, Represents (bucketLimit capacity refillPerSec) b key now) :
    (∀ c ∈ rateLimitCalls pexpire capacity refillPerSec key times, TokensInRange capacity c.held) ∧
    ((rateLimitCalls pexpire capacity refillPerSec key times).filter (·.decision.allowed)).map
        (·.nowMs) = (bucketLimit capacity refillPerSec).admitted 1000 b times := by
  induction times generalizing b key with
  | nil => exact ⟨by simp [rateLimitCalls], rfl⟩
  | cons now rest ih =>
      obtain ⟨hlater, hrest⟩ := List.pairwise_cons.mp hsorted
      obtain ⟨hdecision, hrep⟩ := @rateLimit_bucket _ _ pexpire _ _ _ h
        (hlt now List.mem_cons_self) (hb now List.mem_cons_self)
      obtain ⟨hrange, hadmitted⟩ := ih hrest (fun x hx => hlt x (List.mem_cons_of_mem _ hx))
        fun x hx => hrep.later (hlater x hx)
      constructor
      · intro c hc
        rcases List.mem_cons.mp hc with rfl | hc
        · exact hrep.inRange
        · exact hrange c hc
      · rw [TokenBucket.Limit.admitted_cons, ← hadmitted]
        simp only [rateLimitCalls, List.filter_cons, hdecision, bucketDecision]
        split
        · rfl
        · rfl

/-- Two keys that stand for the same bucket are not told apart. -/
theorem decisions_eq {times : List Nat} {b : TokenBucket.Level}
    {key key' : Option (Entry RateBucket)} {pexpire pexpire' : Bool}
    (h : ExactLimit capacity refillPerSec)
    (hsorted : times.Pairwise (· ≤ ·)) (hlt : ∀ now ∈ times, now < 2 ^ 53)
    (hb : ∀ now ∈ times, Represents (bucketLimit capacity refillPerSec) b key now)
    (hb' : ∀ now ∈ times, Represents (bucketLimit capacity refillPerSec) b key' now) :
    (rateLimitCalls pexpire capacity refillPerSec key times).map (·.decision) =
      (rateLimitCalls pexpire' capacity refillPerSec key' times).map (·.decision) := by
  induction times generalizing b key key' with
  | nil => rfl
  | cons now rest ih =>
      obtain ⟨hlater, hrest⟩ := List.pairwise_cons.mp hsorted
      have hnow := hlt now List.mem_cons_self
      obtain ⟨hdecision, hrep⟩ := @rateLimit_bucket _ _ pexpire _ _ _ h hnow
        (hb now List.mem_cons_self)
      obtain ⟨hdecision', hrep'⟩ := @rateLimit_bucket _ _ pexpire' _ _ _ h hnow
        (hb' now List.mem_cons_self)
      have hrest := ih hrest (fun x hx => hlt x (List.mem_cons_of_mem _ hx))
        (fun x hx => hrep.later (hlater x hx)) fun x hx => hrep'.later (hlater x hx)
      simp only [rateLimitCalls, List.map_cons, hdecision, hdecision', hrest]

/-- The first call finds a full bucket. -/
theorem represents_none {now : Nat} (l : TokenBucket.Limit) :
    Represents l ⟨l.capacity, 0⟩ none now :=
  ⟨rfl, le_rfl, Nat.zero_le _⟩

/-- The allowed calls of an interval, by their times. -/
theorem allowedWithin_length (s t : Nat) (calls : List RateLimitCall) :
    (allowedWithin s t calls).length =
      (TokenBucket.Limit.within s t
        ((calls.filter (·.decision.allowed)).map (·.nowMs))).length := by
  unfold allowedWithin TokenBucket.Limit.within
  rw [List.filter_map, List.length_map, List.filter_filter]
  congr 1
  refine List.filter_congr fun c _ => ?_
  simp [Bool.and_comm]

/-- **The token-bucket bound.** -/
theorem token_bucket_bound (h : ExactLimit capacity refillPerSec) {times : List Nat}
    (hsorted : times.Pairwise (· ≤ ·)) (hlt : ∀ now ∈ times, now < 2 ^ 53) :
    (∀ c ∈ rateLimitCalls true capacity refillPerSec none times, TokensInRange capacity c.held) ∧
    (∀ s t, (allowedWithin s t (rateLimitCalls true capacity refillPerSec none times)).length ≤
      capacity + refillPerSec * (t - s) / 1000) ∧
    (rateLimitCalls true capacity refillPerSec none times).map (·.decision) =
      (rateLimitCalls false capacity refillPerSec none times).map (·.decision) := by
  have hfull : ∀ now ∈ times,
      Represents (bucketLimit capacity refillPerSec) ⟨capacity * 1000, 0⟩ none now :=
    fun _ _ => represents_none _
  obtain ⟨hrange, hadmitted⟩ := @calls_represent _ _ true _ _ _ h hsorted hlt hfull
  refine ⟨hrange, fun s t => ?_, decisions_eq h hsorted hlt hfull hfull⟩
  have hbound := @TokenBucket.Limit.admitted_within (bucketLimit capacity refillPerSec) 1000
    ⟨capacity * 1000, 0⟩ s t _ hsorted le_rfl
    fun _ _ => Nat.zero_le _
  rw [← hadmitted, ← allowedWithin_length] at hbound
  have hlimit : (bucketLimit capacity refillPerSec).capacity +
      (t - s) * (bucketLimit capacity refillPerSec).rate =
      capacity * 1000 + refillPerSec * (t - s) := by
    rw [Nat.mul_comm (t - s)]
    rfl
  omega

/-- Three calls at once, one of which is turned away, and two that the refill allows. -/
theorem token_bucket_bound_burst :
    (allowedWithin 0 1000 (rateLimitCalls true 2 1 none [0, 0, 0, 1000, 9000])).length ≤
      2 + 1 * (1000 - 0) / 1000 :=
  (@token_bucket_bound 2 1
    ⟨by decide, by decide, by decide, by decide⟩ _ (by decide) (by decide)).2.1 0 1000

end Fluxa
