import Mathlib.Data.List.Induction
import Mathlib.Data.List.MinMax
import Fluxa.Limits.RateLimit

/-!
# Limits — Clocks that disagree

`now_ms` comes from the clock of the server that makes the call, while it is Redis that expires the key.  The script counts no time when a reading is before the stored one (`math.max(0, now_ms - ts)`), but it stores the reading all the same: what a later call counts from it may have been counted before.

**When a skewed clock makes no tokens** (`skew_makes_no_tokens`).  In every sequence of calls each of which counts time from the highest reading so far, if it counts any, an older call that is inserted turns no rejection into an admission, and the allowed calls stay within the capacity and the refill between the least and the greatest reading.
-/

namespace Fluxa

/-! ### Calls with two clocks -/

/-- The time to live that the script sets. -/
def rateLimitTtlMs (capacity refillPerSec : Nat) : Nat :=
  max (wrapU64 (wrapU64 (capacity * 1000) / refillPerSec + 1000)) 1000

/-- `rate_limit` where the clock of the server reads `nowMs` and that of Redis `redisMs`. -/
def rateLimitAt (capacity refillPerSec cost redisMs nowMs : Nat)
    (key : Option (Entry RateBucket)) : RateLimitDecision × Option (Entry RateBucket) :=
  let response := rateLimitScript (double (asI64 (wrapU64 (capacity * 1000))))
    (double (asI64 refillPerSec)) (double (asI64 nowMs)) (double (asI64 (wrapU64 (cost * 1000))))
    ((key.filter fun entry => entry.live redisMs).map (·.value))
  (⟨response.1.1 = 1, response.1.2.1.toNat / 1000, response.1.2.2.toNat⟩,
    some ⟨response.2, some (redisMs + rateLimitTtlMs capacity refillPerSec)⟩)

/-- With one clock it is `rateLimit`. -/
theorem rateLimitAt_self (capacity refillPerSec cost nowMs : Nat) (key : Option (Entry RateBucket)) :
    rateLimitAt capacity refillPerSec cost nowMs nowMs key =
      rateLimit true capacity refillPerSec cost nowMs key := rfl

/-- A call, by the readings of the two clocks. -/
structure ClockedCall where
  redisMs : Nat
  nowMs : Nat
deriving DecidableEq, Repr

/-- The calls of cost 1 on one key, in the order in which Redis executes them. -/
def clockedCalls (capacity refillPerSec : Nat) :
    Option (Entry RateBucket) → List ClockedCall → List RateLimitCall
  | _, [] => []
  | key, call :: rest =>
    let response := rateLimitAt capacity refillPerSec 1 call.redisMs call.nowMs key
    ⟨call.nowMs, response.1, response.2⟩ :: clockedCalls capacity refillPerSec response.2 rest

/-- What the key holds after the calls. -/
def heldAfter (capacity refillPerSec : Nat) (key : Option (Entry RateBucket))
    (calls : List ClockedCall) : Option (Entry RateBucket) :=
  calls.foldl (fun key call => (rateLimitAt capacity refillPerSec 1 call.redisMs call.nowMs key).2)
    key

/-- No tokens come of clocks that disagree: an inserted call that is older than an earlier one has
no later call allowed that is rejected without it, and the bound of the bucket holds for the
readings. -/
structure NoTokensOfSkew (capacity refillPerSec : Nat) (calls : List ClockedCall) : Prop where
  inserted : ∀ pre call post, calls = pre ++ call :: post →
    (∃ earlier ∈ pre, call.nowMs < earlier.nowMs) →
    List.Forall₂ (fun c c' => c.decision.allowed = true → c'.decision.allowed = true)
      ((clockedCalls capacity refillPerSec none calls).drop (pre.length + 1))
      ((clockedCalls capacity refillPerSec none (pre ++ post)).drop pre.length)
  bounded : ∀ lo hi, (∀ call ∈ calls, lo ≤ call.nowMs ∧ call.nowMs ≤ hi) →
    ((clockedCalls capacity refillPerSec none calls).filter (·.decision.allowed)).length ≤
      capacity + refillPerSec * (hi - lo) / 1000

/-- No time is counted twice: a call that finds the key counts time only from the highest reading so
far, and one that finds it expired reads a clock by which the bucket has filled up since. -/
def CountedOnce (capacity refillPerSec : Nat) (calls : List ClockedCall) : Prop :=
  ∀ pre last call post, calls = pre ++ last :: call :: post →
    (call.redisMs < last.redisMs + rateLimitTtlMs capacity refillPerSec →
      last.nowMs < call.nowMs → ∀ earlier ∈ pre, earlier.nowMs ≤ last.nowMs) ∧
    (last.redisMs + rateLimitTtlMs capacity refillPerSec ≤ call.redisMs →
      ∀ earlier ∈ pre ++ [last], capacity * 1000 ≤ (call.nowMs - earlier.nowMs) * refillPerSec)

/-! ### The key as a bucket -/

variable {capacity refillPerSec redisMs nowMs : Nat} {key : Option (Entry RateBucket)}

/-- The key that holds the bucket until `expiresMs`. -/
def heldBucket (b : TokenBucket.Level) (expiresMs : Nat) : Option (Entry RateBucket) :=
  some ⟨⟨b.tokens, b.time⟩, some expiresMs⟩

/-- What a call finds: the bucket, or a full one. -/
def foundBucket (l : TokenBucket.Limit) (b : TokenBucket.Level) (expiresMs redisMs nowMs : Nat) :
    TokenBucket.Level :=
  if redisMs < expiresMs then b else ⟨l.capacity, nowMs⟩

/-- A call whose arguments are exact is a call on the bucket that it finds. -/
theorem rateLimitAt_eq {b : TokenBucket.Level} (h : ExactLimit capacity refillPerSec)
    (hnow : nowMs < 2 ^ 53) (htokens : b.tokens ≤ (bucketLimit capacity refillPerSec).capacity)
    (hfound : ((key.filter fun entry => entry.live redisMs).map (·.value)).getD
      ⟨(capacity * 1000 : Nat), nowMs⟩ = ⟨b.tokens, b.time⟩) :
    rateLimitAt capacity refillPerSec 1 redisMs nowMs key =
      (bucketDecision (bucketLimit capacity refillPerSec) b nowMs,
        heldBucket ((bucketLimit capacity refillPerSec).take 1000 b nowMs)
          (redisMs + rateLimitTtlMs capacity refillPerSec)) := by
  have hcost : double (asI64 (wrapU64 (1 * 1000))) = (1000 : Nat) := by decide +kernel
  have hscript : rateLimitScript (capacity * 1000 : Nat) refillPerSec nowMs (1000 : Nat) _ = _ :=
    rateLimitScript_eq (l := bucketLimit capacity refillPerSec) h.capacity_lt hnow htokens hfound
  unfold rateLimitAt
  dsimp only
  rw [wrapU64_of_lt h.capacity_lt, double_asI64 h.capacity_lt, double_asI64 h.refill_lt,
    double_asI64 hnow, hcost, hscript]
  unfold bucketResponse bucketDecision heldBucket
  by_cases hadm : (bucketLimit capacity refillPerSec).admits 1000 b nowMs = true
  · simp [hadm]
  · simp [hadm]

theorem rateLimitAt_none (h : ExactLimit capacity refillPerSec) (hnow : nowMs < 2 ^ 53) :
    rateLimitAt capacity refillPerSec 1 redisMs nowMs none =
      (bucketDecision (bucketLimit capacity refillPerSec) ⟨capacity * 1000, nowMs⟩ nowMs,
        heldBucket ((bucketLimit capacity refillPerSec).take 1000 ⟨capacity * 1000, nowMs⟩ nowMs)
          (redisMs + rateLimitTtlMs capacity refillPerSec)) :=
  rateLimitAt_eq h hnow le_rfl rfl

theorem rateLimitAt_held {b : TokenBucket.Level} {expiresMs : Nat}
    (h : ExactLimit capacity refillPerSec) (hnow : nowMs < 2 ^ 53)
    (htokens : b.tokens ≤ (bucketLimit capacity refillPerSec).capacity) :
    rateLimitAt capacity refillPerSec 1 redisMs nowMs (heldBucket b expiresMs) =
      (bucketDecision (bucketLimit capacity refillPerSec)
          (foundBucket (bucketLimit capacity refillPerSec) b expiresMs redisMs nowMs) nowMs,
        heldBucket ((bucketLimit capacity refillPerSec).take 1000
          (foundBucket (bucketLimit capacity refillPerSec) b expiresMs redisMs nowMs) nowMs)
          (redisMs + rateLimitTtlMs capacity refillPerSec)) := by
  unfold foundBucket
  by_cases hlive : redisMs < expiresMs
  · have hkey : (Entry.mk (RateBucket.mk b.tokens b.time) (some expiresMs)).live redisMs = true :=
      decide_eq_true hlive
    rw [if_pos hlive]
    refine rateLimitAt_eq h hnow htokens ?_
    simp [heldBucket, Option.filter, hkey]
  · have hkey : (Entry.mk (RateBucket.mk b.tokens b.time) (some expiresMs)).live redisMs = false :=
      decide_eq_false hlive
    rw [if_neg hlive]
    refine rateLimitAt_eq h hnow le_rfl ?_
    simp [heldBucket, Option.filter, hkey, bucketLimit]

/-! ### Runs -/

theorem heldAfter_singleton {call : ClockedCall} :
    heldAfter capacity refillPerSec key [call] =
      (rateLimitAt capacity refillPerSec 1 call.redisMs call.nowMs key).2 := rfl

theorem heldAfter_append {xs ys : List ClockedCall} :
    heldAfter capacity refillPerSec key (xs ++ ys) =
      heldAfter capacity refillPerSec (heldAfter capacity refillPerSec key xs) ys :=
  List.foldl_append

theorem clockedCalls_append {xs ys : List ClockedCall} :
    clockedCalls capacity refillPerSec key (xs ++ ys) =
      clockedCalls capacity refillPerSec key xs ++
        clockedCalls capacity refillPerSec (heldAfter capacity refillPerSec key xs) ys := by
  induction xs generalizing key with
  | nil => rfl
  | cons call rest ih => simp only [List.cons_append, clockedCalls, ih, heldAfter, List.foldl_cons]

theorem clockedCalls_length {calls : List ClockedCall} :
    (clockedCalls capacity refillPerSec key calls).length = calls.length := by
  induction calls generalizing key with
  | nil => rfl
  | cons call rest ih => simp only [clockedCalls, List.length_cons, ih]

/-- After the last call the key holds a bucket that is as of its reading. -/
theorem heldAfter_snoc {pre : List ClockedCall} {last : ClockedCall}
    (h : ExactLimit capacity refillPerSec) (hlt : ∀ call ∈ pre ++ [last], call.nowMs < 2 ^ 53) :
    ∃ b : TokenBucket.Level, b.tokens ≤ (bucketLimit capacity refillPerSec).capacity ∧ b.time = last.nowMs ∧
      heldAfter capacity refillPerSec none (pre ++ [last]) =
        heldBucket b (last.redisMs + rateLimitTtlMs capacity refillPerSec) := by
  induction pre using List.reverseRecOn generalizing last with
  | nil =>
      refine ⟨(bucketLimit capacity refillPerSec).take 1000 ⟨capacity * 1000, last.nowMs⟩
        last.nowMs, TokenBucket.Limit.take_tokens_le_capacity, rfl, ?_⟩
      rw [List.nil_append, heldAfter_singleton, rateLimitAt_none h (hlt last (by simp))]
  | append_singleton pre before ih =>
      obtain ⟨b, htokens, -, hheld⟩ := @ih before fun call hcall =>
        hlt call (List.mem_append_left _ hcall)
      refine ⟨(bucketLimit capacity refillPerSec).take 1000
        (foundBucket (bucketLimit capacity refillPerSec) b
          (before.redisMs + rateLimitTtlMs capacity refillPerSec) last.redisMs last.nowMs)
        last.nowMs, TokenBucket.Limit.take_tokens_le_capacity, rfl, ?_⟩
      rw [heldAfter_append, hheld, heldAfter_singleton,
        rateLimitAt_held h (hlt last (by simp)) htokens]

theorem CountedOnce.of_append {xs ys : List ClockedCall}
    (h : CountedOnce capacity refillPerSec (xs ++ ys)) : CountedOnce capacity refillPerSec xs := by
  intro pre last call post hsplit
  have hwhole : xs ++ ys = pre ++ last :: call :: (post ++ ys) := by
    rw [hsplit, List.append_assoc, List.cons_append, List.cons_append]
  exact h pre last call (post ++ ys) hwhole

/-- The number of the calls that are allowed. -/
def allowedCalls (calls : List RateLimitCall) : Nat := (calls.filter (·.decision.allowed)).length

theorem allowedCalls_append {xs ys : List RateLimitCall} :
    allowedCalls (xs ++ ys) = allowedCalls xs + allowedCalls ys := by
  unfold allowedCalls
  rw [List.filter_append, List.length_append]

theorem allowedCalls_singleton {call : RateLimitCall} :
    allowedCalls [call] = if call.decision.allowed then 1 else 0 := by
  unfold allowedCalls
  cases h : call.decision.allowed <;> simp [h]

/-- A call on a bucket pays for its admission. -/
theorem take_pays {l : TokenBucket.Limit} {b : TokenBucket.Level} :
    (l.take 1000 b nowMs).tokens + 1000 * (if (bucketDecision l b nowMs).allowed then 1 else 0) =
      l.refilled b nowMs := by
  unfold bucketDecision
  by_cases hadm : l.admits 1000 b nowMs = true
  · rw [if_pos hadm]
    exact TokenBucket.Limit.take_tokens_add hadm
  · rw [if_neg hadm, TokenBucket.Limit.take, if_neg hadm]
    rfl

theorem heldBucket_tokens {b b' : TokenBucket.Level} {expiresMs expiresMs' : Nat}
    (h : heldBucket b expiresMs = heldBucket b' expiresMs') : b.tokens = b'.tokens := by
  have hvalue : (b.tokens : Int) = b'.tokens :=
    congrArg (fun entry : Entry RateBucket => entry.value.tokens) (Option.some.inj h)
  exact_mod_cast hvalue

/-- One of the calls has the highest reading. -/
theorem exists_highest (pre : List ClockedCall) (last : ClockedCall) :
    ∃ top ∈ pre ++ [last], ∀ call ∈ pre ++ [last], call.nowMs ≤ top.nowMs := by
  cases htop : (pre ++ [last]).argmax ClockedCall.nowMs with
  | none => exact absurd (List.argmax_eq_none.mp htop) (by simp)
  | some top =>
      exact ⟨top, List.argmax_mem htop, fun call hcall => List.le_of_mem_argmax hcall htop⟩

/-- What a call finds, when no time is counted twice: the bucket of a time up to which the run has
been paid for, and what has been refilled since. -/
theorem CountedOnce.found {pre : List ClockedCall} {last call : ClockedCall} {lo hi spent : Nat}
    {b : TokenBucket.Level}
    (hcounted : CountedOnce capacity refillPerSec (pre ++ [last] ++ [call]))
    (hrange : ∀ c ∈ pre ++ [last] ++ [call], lo ≤ c.nowMs ∧ c.nowMs ≤ hi)
    (htime : b.time = last.nowMs)
    (hspent : ∀ hi, (∀ c ∈ pre ++ [last], lo ≤ c.nowMs ∧ c.nowMs ≤ hi) →
      b.tokens + spent ≤ capacity * 1000 + (hi - lo) * refillPerSec) :
    (bucketLimit capacity refillPerSec).refilled
        (foundBucket (bucketLimit capacity refillPerSec) b
          (last.redisMs + rateLimitTtlMs capacity refillPerSec) call.redisMs call.nowMs)
        call.nowMs + spent ≤
      capacity * 1000 + (hi - lo) * refillPerSec := by
  have hpre : ∀ c ∈ pre ++ [last], lo ≤ c.nowMs ∧ c.nowMs ≤ hi := fun c hc =>
    hrange c (List.mem_append_left _ hc)
  have hcall := hrange call (by simp)
  obtain ⟨hlive, hexpired⟩ := hcounted pre last call [] (by simp)
  by_cases hkey : call.redisMs < last.redisMs + rateLimitTtlMs capacity refillPerSec
  · rw [foundBucket, if_pos hkey]
    have hle := @TokenBucket.Limit.refilled_le (bucketLimit capacity refillPerSec) b call.nowMs
    by_cases hback : call.nowMs ≤ last.nowMs
    · -- No time is counted.
      have hnone : call.nowMs - b.time = 0 := by omega
      rw [hnone, Nat.zero_mul] at hle
      have := hspent hi hpre
      omega
    · -- The time since the highest reading is counted.
      have hlast := hpre last (by simp)
      have htop : ∀ c ∈ pre ++ [last], lo ≤ c.nowMs ∧ c.nowMs ≤ last.nowMs := by
        intro c hc
        refine ⟨(hpre c hc).1, ?_⟩
        rcases List.mem_append.mp hc with hc | hc
        · exact hlive hkey (not_le.mp hback) c hc
        · rw [List.mem_singleton.mp hc]
      have hbefore := hspent last.nowMs htop
      have hsplit : (call.nowMs - lo) * refillPerSec =
          (call.nowMs - last.nowMs) * refillPerSec + (last.nowMs - lo) * refillPerSec := by
        rw [← Nat.add_mul]
        congr 1
        omega
      have hmore : (call.nowMs - lo) * refillPerSec ≤ (hi - lo) * refillPerSec :=
        Nat.mul_le_mul_right _ (Nat.sub_le_sub_right hcall.2 lo)
      rw [htime] at hle
      have hrate : (bucketLimit capacity refillPerSec).rate = refillPerSec := rfl
      rw [hrate] at hle
      omega
  · -- A full bucket is what has been refilled since the highest reading.
    rw [foundBucket, if_neg hkey]
    obtain ⟨top, htop, hhighest⟩ := exists_highest pre last
    have hfill := hexpired (not_lt.mp hkey) top htop
    have hbefore := hspent top.nowMs fun c hc => ⟨(hpre c hc).1, hhighest c hc⟩
    have hfull : (bucketLimit capacity refillPerSec).refilled
        ⟨(bucketLimit capacity refillPerSec).capacity, call.nowMs⟩ call.nowMs ≤ capacity * 1000 :=
      TokenBucket.Limit.refilled_le_capacity
    have hsplit : (call.nowMs - top.nowMs) * refillPerSec + (top.nowMs - lo) * refillPerSec ≤
        (hi - lo) * refillPerSec := by
      rw [← Nat.add_mul]
      refine Nat.mul_le_mul_right _ ?_
      by_cases hlater : top.nowMs ≤ call.nowMs
      · have := hpre top htop
        omega
      · have := hpre top htop
        omega
    omega

/-- What the calls have taken and what the bucket holds is the capacity and the refill since the
least reading. -/
theorem spent_le {pre : List ClockedCall} {last : ClockedCall} {lo hi : Nat}
    {b : TokenBucket.Level} {expiresMs : Nat} (h : ExactLimit capacity refillPerSec)
    (hlt : ∀ call ∈ pre ++ [last], call.nowMs < 2 ^ 53)
    (hcounted : CountedOnce capacity refillPerSec (pre ++ [last]))
    (hrange : ∀ call ∈ pre ++ [last], lo ≤ call.nowMs ∧ call.nowMs ≤ hi)
    (hheld : heldAfter capacity refillPerSec none (pre ++ [last]) = heldBucket b expiresMs) :
    b.tokens + 1000 * allowedCalls (clockedCalls capacity refillPerSec none (pre ++ [last])) ≤
      capacity * 1000 + (hi - lo) * refillPerSec := by
  induction pre using List.reverseRecOn generalizing last b hi expiresMs with
  | nil =>
      have hnow := hlt last (by simp)
      rw [List.nil_append] at hheld ⊢
      rw [heldAfter_singleton, rateLimitAt_none h hnow] at hheld
      rw [← heldBucket_tokens hheld]
      have hpays := @take_pays last.nowMs (bucketLimit capacity refillPerSec)
        ⟨capacity * 1000, last.nowMs⟩
      simp only [clockedCalls, allowedCalls_singleton, rateLimitAt_none h hnow]
      have hfull : (bucketLimit capacity refillPerSec).refilled ⟨capacity * 1000, last.nowMs⟩
          last.nowMs ≤ capacity * 1000 := TokenBucket.Limit.refilled_le_capacity
      omega
  | append_singleton pre before ih =>
      have hlt' : ∀ call ∈ pre ++ [before], call.nowMs < 2 ^ 53 := fun call hcall =>
        hlt call (List.mem_append_left _ hcall)
      obtain ⟨b', htokens, htime, hheld'⟩ := heldAfter_snoc h hlt'
      have hnow := hlt last (by simp)
      -- The bound is needed for the window up to any reading, so it is generalized over it.
      have hspent := fun hi hrange => @ih _ hi _ _ hlt' hcounted.of_append hrange hheld'
      have hfound := hcounted.found hrange htime hspent
      rw [heldAfter_append, hheld', heldAfter_singleton, rateLimitAt_held h hnow htokens] at hheld
      rw [clockedCalls_append, allowedCalls_append, hheld', ← heldBucket_tokens hheld]
      have hpays := @take_pays last.nowMs (bucketLimit capacity refillPerSec)
        (foundBucket (bucketLimit capacity refillPerSec) b'
          (before.redisMs + rateLimitTtlMs capacity refillPerSec) last.redisMs last.nowMs)
      simp only [clockedCalls, allowedCalls_singleton, rateLimitAt_held h hnow htokens]
      omega

/-! ### An inserted call -/

/-- A call that is not after the bucket's reading counts no time. -/
theorem refilled_behind {l : TokenBucket.Limit} {b : TokenBucket.Level} (hback : nowMs ≤ b.time)
    (htokens : b.tokens ≤ l.capacity) : l.refilled b nowMs = b.tokens := by
  rw [TokenBucket.Limit.refilled, Nat.sub_eq_zero_of_le hback, Nat.zero_mul, Nat.add_zero,
    min_eq_right htokens]

/-- Each call that is allowed is allowed in the other run as well. -/
def AllowsLess (calls calls' : List RateLimitCall) : Prop :=
  List.Forall₂ (fun c c' => c.decision.allowed = true → c'.decision.allowed = true) calls calls'

theorem AllowsLess.refl (calls : List RateLimitCall) : AllowsLess calls calls :=
  List.forall₂_same.mpr fun _ _ h => h

/-- From a reading that is behind, no time is counted any more: the calls run on what the bucket
holds, and once that is too little they are rejected. -/
theorem behind_allows_less {past post : List ClockedCall} {last : ClockedCall}
    {b b' : TokenBucket.Level} {expiresMs' : Nat} (h : ExactLimit capacity refillPerSec)
    (hlt : ∀ call ∈ post, call.nowMs < 2 ^ 53)
    (hcounted : CountedOnce capacity refillPerSec (past ++ last :: post))
    (hbehind : ∃ earlier ∈ past, last.nowMs < earlier.nowMs) (htime : b.time = last.nowMs)
    (htokens : b.tokens ≤ (bucketLimit capacity refillPerSec).capacity)
    (htokens' : b'.tokens ≤ (bucketLimit capacity refillPerSec).capacity)
    (hexpires : expiresMs' ≤ last.redisMs + rateLimitTtlMs capacity refillPerSec)
    (hless : 1000 ≤ b.tokens → b.tokens ≤ b'.tokens) :
    AllowsLess
      (clockedCalls capacity refillPerSec
        (heldBucket b (last.redisMs + rateLimitTtlMs capacity refillPerSec)) post)
      (clockedCalls capacity refillPerSec (heldBucket b' expiresMs') post) := by
  induction post generalizing past last b b' expiresMs' with
  | nil => exact .nil
  | cons call rest ih =>
      have hnow := hlt call List.mem_cons_self
      obtain ⟨earlier, hearlier, hlater⟩ := hbehind
      by_cases hkey : call.redisMs < last.redisMs + rateLimitTtlMs capacity refillPerSec
      · -- The call is behind as well: no earlier reading but the last is counted from.
        have hback : call.nowMs ≤ last.nowMs := by
          by_contra hforward
          have := (hcounted past last call rest rfl).1 hkey (not_le.mp hforward) earlier hearlier
          omega
        have hsame : (bucketLimit capacity refillPerSec).refilled b call.nowMs = b.tokens :=
          refilled_behind (hback.trans htime.ge) htokens
        have hmore : b'.tokens ≤ (bucketLimit capacity refillPerSec).refilled
            (foundBucket (bucketLimit capacity refillPerSec) b' expiresMs' call.redisMs call.nowMs)
            call.nowMs := by
          unfold foundBucket
          split
          · exact le_min htokens' (Nat.le_add_right _ _)
          · exact le_min htokens' (htokens'.trans (Nat.le_add_right _ _))
        have hpays := @take_pays call.nowMs (bucketLimit capacity refillPerSec) b
        have hpays' := @take_pays call.nowMs (bucketLimit capacity refillPerSec)
          (foundBucket (bucketLimit capacity refillPerSec) b' expiresMs' call.redisMs call.nowMs)
        have hadm : (bucketDecision (bucketLimit capacity refillPerSec) b call.nowMs).allowed =
            true ↔ 1000 ≤ b.tokens := by
          rw [← hsame]
          exact decide_eq_true_iff
        have hadm' : 1000 ≤ b'.tokens → (bucketDecision (bucketLimit capacity refillPerSec)
            (foundBucket (bucketLimit capacity refillPerSec) b' expiresMs' call.redisMs call.nowMs)
            call.nowMs).allowed = true := fun hle => decide_eq_true (hle.trans hmore)
        simp only [clockedCalls]
        rw [rateLimitAt_held h hnow htokens, rateLimitAt_held h hnow htokens', foundBucket,
          if_pos hkey]
        refine .cons (fun hallowed => ?_) (@ih (past ++ [last]) _ _ _ _
          (fun c hc => hlt c (List.mem_cons_of_mem _ hc)) (by simpa using hcounted)
          ⟨earlier, List.mem_append_left _ hearlier, by omega⟩ rfl
          TokenBucket.Limit.take_tokens_le_capacity TokenBucket.Limit.take_tokens_le_capacity
          le_rfl fun hleft => ?_)
        · have henough := hadm.mp hallowed
          exact hadm' (henough.trans (hless henough))
        · by_cases henough : 1000 ≤ b.tokens
          · have hle := hless henough
            rw [if_pos (hadm.mpr henough)] at hpays
            rw [if_pos (hadm' (henough.trans hle))] at hpays'
            omega
          · omega
      · -- The key has expired in both runs, which are one from here.
        have hkey' : ¬ call.redisMs < expiresMs' := by omega
        simp only [clockedCalls]
        rw [rateLimitAt_held h hnow htokens, rateLimitAt_held h hnow htokens', foundBucket,
          foundBucket, if_neg hkey, if_neg hkey']
        exact .refl (_ :: _)

/-- What the key holds is what matters for the calls to come. -/
theorem clockedCalls_drop {xs ys : List ClockedCall} :
    (clockedCalls capacity refillPerSec none (xs ++ ys)).drop xs.length =
      clockedCalls capacity refillPerSec (heldAfter capacity refillPerSec none xs) ys := by
  rw [clockedCalls_append, List.drop_left' clockedCalls_length]

/-- An older call is itself behind, and so are all after it that find the key. -/
theorem inserted_allows_less {pre post : List ClockedCall} {call : ClockedCall}
    (h : ExactLimit capacity refillPerSec)
    (hlt : ∀ c ∈ pre ++ call :: post, c.nowMs < 2 ^ 53)
    (hredis : (pre ++ call :: post).Pairwise fun c c' => c.redisMs ≤ c'.redisMs)
    (hcounted : CountedOnce capacity refillPerSec (pre ++ call :: post))
    (holder : ∃ earlier ∈ pre, call.nowMs < earlier.nowMs) :
    AllowsLess
      (clockedCalls capacity refillPerSec (heldAfter capacity refillPerSec none (pre ++ [call])) post)
      (clockedCalls capacity refillPerSec (heldAfter capacity refillPerSec none pre) post) := by
  obtain ⟨earlier, hearlier, hlater⟩ := holder
  have hnow := hlt call (by simp)
  rcases List.eq_nil_or_concat' pre with rfl | ⟨before, last, rfl⟩
  · exact absurd hearlier List.not_mem_nil
  · obtain ⟨b, htokens, htime, hheld⟩ := @heldAfter_snoc _ _ before last h
      fun c hc => hlt c (List.mem_append_left _ hc)
    obtain ⟨hlive, hexpired⟩ := hcounted before last call post (by simp)
    have hkey : call.redisMs < last.redisMs + rateLimitTtlMs capacity refillPerSec := by
      by_contra hgone
      have hfill := hexpired (not_lt.mp hgone) earlier hearlier
      rw [Nat.sub_eq_zero_of_le hlater.le, Nat.zero_mul] at hfill
      have := h.capacity_pos
      omega
    have hback : call.nowMs ≤ last.nowMs := by
      by_contra hforward
      rcases List.mem_append.mp hearlier with hmem | hmem
      · have := hlive hkey (not_le.mp hforward) earlier hmem
        omega
      · obtain rfl := List.mem_singleton.mp hmem
        omega
    have horder : last.redisMs ≤ call.redisMs :=
      (List.pairwise_append.mp hredis).2.2 last (by simp) call List.mem_cons_self
    have hsame : (bucketLimit capacity refillPerSec).refilled b call.nowMs = b.tokens :=
      refilled_behind (hback.trans htime.ge) htokens
    rw [heldAfter_append, hheld, heldAfter_singleton, rateLimitAt_held h hnow htokens, foundBucket,
      if_pos hkey]
    exact behind_allows_less h (fun c hc => hlt c (by simp [hc])) hcounted
      ⟨earlier, hearlier, hlater⟩ rfl TokenBucket.Limit.take_tokens_le_capacity htokens
      (Nat.add_le_add_right horder _) fun _ => TokenBucket.Limit.take_tokens_le.trans hsame.le

/-- **When a skewed clock makes no tokens.** -/
theorem skew_makes_no_tokens (h : ExactLimit capacity refillPerSec) {calls : List ClockedCall}
    (hlt : ∀ call ∈ calls, call.nowMs < 2 ^ 53)
    (hredis : calls.Pairwise fun call call' => call.redisMs ≤ call'.redisMs)
    (hcounted : CountedOnce capacity refillPerSec calls) :
    NoTokensOfSkew capacity refillPerSec calls := by
  constructor
  · rintro pre call post rfl holder
    have hinserted := @clockedCalls_drop capacity refillPerSec (pre ++ [call]) post
    rw [List.append_assoc, List.singleton_append, List.length_append, List.length_singleton]
      at hinserted
    rw [hinserted, clockedCalls_drop]
    exact inserted_allows_less h hlt hredis hcounted holder
  · intro lo hi hrange
    rcases List.eq_nil_or_concat' calls with rfl | ⟨pre, last, rfl⟩
    · exact Nat.zero_le _
    · obtain ⟨b, -, -, hheld⟩ := @heldAfter_snoc _ _ pre last h hlt
      have hspent := spent_le h hlt hcounted hrange hheld
      rw [Nat.mul_comm (hi - lo)] at hspent
      unfold allowedCalls at hspent
      omega

/-- Two servers, one of which is 400 ms behind: the older call takes from what is left. -/
theorem skew_makes_no_tokens_behind :
    NoTokensOfSkew 2 1 [⟨100, 1000⟩, ⟨200, 1100⟩, ⟨300, 700⟩, ⟨400, 600⟩] :=
  skew_makes_no_tokens ⟨by decide, by decide, by decide, by decide⟩ (by decide) (by decide) (by
    intro pre last call post hsplit
    have httl : rateLimitTtlMs 2 1 = 3000 := by decide +kernel
    rcases pre with _ | ⟨first, _ | ⟨second, _ | ⟨third, pre⟩⟩⟩ <;>
      simp only [List.nil_append, List.cons_append, List.cons.injEq] at hsplit
    · obtain ⟨rfl, rfl, -⟩ := hsplit
      exact ⟨by simp, by simp [httl]⟩
    · obtain ⟨rfl, rfl, rfl, -⟩ := hsplit
      exact ⟨by simp, by simp [httl]⟩
    · obtain ⟨rfl, rfl, rfl, rfl, -⟩ := hsplit
      exact ⟨by simp, by simp [httl]⟩
    · have hlength := congrArg List.length hsplit.2.2.2
      simp only [List.length_append, List.length_cons, List.length_nil] at hlength
      omega)

/-- Readings that go back and forth by a millisecond, at a refill of one token in each. -/
theorem skew_makes_tokens :
    ¬ NoTokensOfSkew 1 1000 [⟨0, 1⟩, ⟨0, 0⟩, ⟨0, 1⟩, ⟨0, 0⟩, ⟨0, 1⟩] ∧
    (clockedCalls 1 1000 none [⟨0, 1⟩, ⟨0, 0⟩, ⟨0, 1⟩]).map (·.decision.allowed) =
      [true, false, true] ∧
    (clockedCalls 1 1000 none [⟨0, 1⟩, ⟨0, 1⟩]).map (·.decision.allowed) = [true, false] := by
  refine ⟨fun hsafe => ?_, by decide +kernel, by decide +kernel⟩
  have hbound := hsafe.bounded 0 1 (by decide)
  exact absurd hbound (by decide +kernel)

end Fluxa
