import Fluxa.Limits.RateLimit

/-!
# Limits — The retry-after header

A rejected client is told how long to wait: the script computes milliseconds, rounded up, and `attach_rate_limit_headers` prints whole seconds, rounded down.

**When the header is enough** (`retry_after_sufficient`).  The script's own number is the least wait, whenever there is one.  A refill of at least one milli-token in a millisecond makes it at most a second, so the header prints 0 unless the wait is the whole second: the bucket is empty, no time counts since its last call, and one token is refilled in a second.
-/

namespace Fluxa

/-! ### The headers -/

/-- The headers of `attach_rate_limit_headers`, by the numbers that they print. -/
structure RateLimitHeaders where
  /-- `x-ratelimit-remaining`. -/
  remaining : Nat
  /-- `retry-after`, in seconds. -/
  retryAfter : Nat
deriving DecidableEq, Repr

/-- `attach_rate_limit_headers`.  `as_secs` drops the fraction of a second. -/
def attachRateLimitHeaders (decision : RateLimitDecision) : RateLimitHeaders :=
  ⟨decision.remainingTokens, decision.retryAfter / 1000⟩

/-- The decision on a client's next request, `wait` milliseconds after one at `nowMs` and with no
other traffic on its bucket. -/
def nextDecision (capacity refillPerSec nowMs wait : Nat) (key : Option (Entry RateBucket)) :
    RateLimitDecision :=
  (rateLimit true capacity refillPerSec 1 (nowMs + wait)
    (rateLimit true capacity refillPerSec 1 nowMs key).2).1

/-! ### The least wait -/

/-- The tokens that the script finds. -/
def foundTokens (capacity refillPerMs nowMs : Int) (data : Option RateBucket) : Int :=
  min capacity (double ((data.getD ⟨capacity, nowMs⟩).tokens +
    double (max 0 (double (nowMs - (data.getD ⟨capacity, nowMs⟩).ts)) * refillPerMs)))

theorem rateLimitScript_rejects {capacity refillPerMs nowMs cost : Int} {data : Option RateBucket}
    (h : foundTokens capacity refillPerMs nowMs data < cost) :
    rateLimitScript capacity refillPerMs nowMs cost data =
      ((0, foundTokens capacity refillPerMs nowMs data,
        -(-double (cost - foundTokens capacity refillPerMs nowMs data) / refillPerMs)),
        ⟨foundTokens capacity refillPerMs nowMs data, nowMs⟩) :=
  if_neg (not_le.mpr h)

theorem rateLimitScript_allows {capacity refillPerMs nowMs cost : Int} {data : Option RateBucket} :
    (rateLimitScript capacity refillPerMs nowMs cost data).1.1 = 1 ↔
      cost ≤ foundTokens capacity refillPerMs nowMs data := by
  by_cases h : cost ≤ foundTokens capacity refillPerMs nowMs data
  · have hrun : rateLimitScript capacity refillPerMs nowMs cost data = _ := if_pos h
    simp [hrun, h]
  · rw [rateLimitScript_rejects (not_le.mp h)]
    simp [h]

/-- `capacity_milli` as the script receives it. -/
def scriptCapacity (capacity : Nat) : Int := double (asI64 (wrapU64 (capacity * 1000)))

/-- `refill_per_ms` as the script receives it. -/
def scriptRefill (refillPerSec : Nat) : Int := double (asI64 refillPerSec)

theorem le_scriptCapacity {capacity : Nat} :
    1000 ≤ scriptCapacity capacity ↔ 1000 ≤ asI64 (wrapU64 (capacity * 1000)) := by
  constructor
  · intro h
    by_contra hlt
    have := double_lt (m := 1000) (by omega) (by omega) (not_le.mp hlt)
    exact absurd h (not_le.mpr this)
  · intro h
    obtain ⟨n, hn⟩ := Int.eq_ofNat_of_zero_le ((by norm_num : (0 : Int) ≤ 1000).trans h)
    unfold scriptCapacity
    rw [hn]
    exact le_double (m := 1000) (by omega) (by omega)

variable {capacity refillPerSec nowMs : Nat} {key : Option (Entry RateBucket)}

/-- The bucket that the script reads under the key. -/
def liveBucket (nowMs : Nat) (key : Option (Entry RateBucket)) : Option RateBucket :=
  (key.filter fun entry => entry.live nowMs).map (·.value)

/-- The milli-tokens that a call of `rate_limit` finds. -/
def callTokens (capacity refillPerSec nowMs : Nat) (key : Option (Entry RateBucket)) : Int :=
  foundTokens (scriptCapacity capacity) (scriptRefill refillPerSec) nowMs (liveBucket nowMs key)

theorem rateLimit_allows {pexpire : Bool} (hnow : nowMs < 2 ^ 53) :
    (rateLimit pexpire capacity refillPerSec 1 nowMs key).1.allowed = true ↔
      1000 ≤ callTokens capacity refillPerSec nowMs key := by
  have hcost : double (asI64 (wrapU64 (1 * 1000))) = 1000 := by decide +kernel
  unfold rateLimit
  dsimp only
  rw [decide_eq_true_iff, hcost, double_asI64 hnow]
  exact rateLimitScript_allows

/-- What a rejected call tells, and what it leaves under the key. -/
theorem rateLimit_rejects (hnow : nowMs < 2 ^ 53)
    (h : callTokens capacity refillPerSec nowMs key < 1000) :
    (rateLimit true capacity refillPerSec 1 nowMs key).1.retryAfter =
        (-(-double (1000 - callTokens capacity refillPerSec nowMs key) /
          scriptRefill refillPerSec)).toNat ∧
      ∃ ttlMs, 1000 ≤ ttlMs ∧ (rateLimit true capacity refillPerSec 1 nowMs key).2 =
        some ⟨⟨callTokens capacity refillPerSec nowMs key, nowMs⟩, some (nowMs + ttlMs)⟩ := by
  have hcost : double (asI64 (wrapU64 (1 * 1000))) = 1000 := by decide +kernel
  have hscript := rateLimitScript_rejects h
  unfold rateLimit
  dsimp only
  rw [hcost, double_asI64 hnow]
  unfold callTokens liveBucket scriptCapacity scriptRefill at hscript ⊢
  rw [hscript]
  exact ⟨rfl, _, le_max_right _ _, rfl⟩

/-- What the next call finds, while the key lives. -/
theorem callTokens_live {tokens : Int} {wait ttlMs : Nat} (hwait : wait < ttlMs)
    (hexact : wait < 2 ^ 53) :
    callTokens capacity refillPerSec (nowMs + wait) (some ⟨⟨tokens, nowMs⟩, some (nowMs + ttlMs)⟩) =
      min (scriptCapacity capacity)
        (double (tokens + double (wait * scriptRefill refillPerSec))) := by
  have hlive : liveBucket (nowMs + wait) (some ⟨⟨tokens, nowMs⟩, some (nowMs + ttlMs)⟩) =
      some ⟨tokens, nowMs⟩ := by
    have : (Entry.mk (RateBucket.mk tokens nowMs) (some (nowMs + ttlMs))).live (nowMs + wait) =
        true := decide_eq_true (by exact Nat.add_lt_add_left hwait _)
    simp [liveBucket, Option.filter, this]
  have helapsed : max 0 (double (((nowMs + wait : Nat) : Int) - nowMs)) = wait := by
    rw [show ((nowMs + wait : Nat) : Int) - nowMs = (wait : Nat) by push_cast; ring,
      double_of_lt hexact]
    exact max_eq_right (Int.natCast_nonneg _)
  unfold callTokens foundTokens
  rw [hlive]
  dsimp only [Option.getD_some]
  rw [helapsed]

/-- A key that has expired is a full bucket. -/
theorem callTokens_absent {now : Nat} (h : liveBucket now key = none)
    (hcapacity : 1000 ≤ scriptCapacity capacity) :
    1000 ≤ callTokens capacity refillPerSec now key := by
  unfold callTokens foundTokens
  rw [h]
  dsimp only [Option.getD_none]
  rw [sub_self, show max 0 (double 0) = 0 from rfl, Int.zero_mul, show double 0 = 0 from rfl,
    Int.add_zero]
  obtain ⟨n, hn⟩ := Int.eq_ofNat_of_zero_le ((by norm_num : (0 : Int) ≤ 1000).trans hcapacity)
  refine le_min hcapacity ?_
  rw [hn] at hcapacity ⊢
  exact le_double (m := 1000) (by omega) (by omega)

/-! ### The rounding directions -/

/-- Rounded up, the quotient is the least count of refills that makes up what is missing. -/
theorem ceil_le_iff {missing : Int} {rate wait : Nat} (hrate : 0 < rate) :
    -(-missing / (rate : Int)) ≤ wait ↔ missing ≤ wait * rate := by
  have hpos : (0 : Int) < rate := by exact_mod_cast hrate
  rw [neg_le, Int.le_ediv_iff_mul_le hpos, Int.neg_mul, neg_le_neg_iff]

/-- A wait of at most a second that is a whole number of seconds. -/
theorem whole_second {wait : Nat} (hpos : 0 < wait) (hle : wait ≤ 1000) :
    wait ≤ 1000 * (wait / 1000) ↔ wait = 1000 := by
  omega

/-- A rejected call on a bucket that can be refilled: what is missing comes in at most a second. -/
structure TurnedAway (capacity refillPerSec nowMs : Nat) (key : Option (Entry RateBucket))
    (tokens rate : Nat) : Prop where
  capacity_le : 1000 ≤ scriptCapacity capacity
  tokens_eq : callTokens capacity refillPerSec nowMs key = tokens
  tokens_lt : tokens < 1000
  rate_eq : scriptRefill refillPerSec = rate
  rate_pos : 0 < rate

/-- Within a second, the next call is allowed as soon as the refill makes up what is missing. -/
theorem TurnedAway.next_allows {tokens rate wait : Nat}
    (h : TurnedAway capacity refillPerSec nowMs key tokens rate) (hnow : nowMs + 1000 < 2 ^ 53)
    (hwait : wait ≤ 1000) :
    (nextDecision capacity refillPerSec nowMs wait key).allowed = true ↔
      1000 ≤ tokens + wait * rate := by
  have htokens : callTokens capacity refillPerSec nowMs key < 1000 := by
    rw [h.tokens_eq]
    exact_mod_cast h.tokens_lt
  obtain ⟨-, ttlMs, httl, hkey⟩ := rateLimit_rejects (by omega) htokens
  unfold nextDecision
  rw [rateLimit_allows (by omega), hkey]
  by_cases hlive : wait < ttlMs
  · rw [callTokens_live hlive (by omega), h.tokens_eq, h.rate_eq, ← Nat.cast_mul, double_natCast,
      ← Nat.cast_add]
    constructor
    · intro hadm
      have hle := hadm.trans (min_le_right _ _)
      by_contra hlt
      have hmul : wait * rate < 2 ^ 53 := by omega
      rw [doubleNat_of_lt hmul] at hle
      have := double_lt (n := ((tokens + wait * rate : Nat) : Int)) (m := 1000) (by omega)
        (by omega) (by exact_mod_cast not_le.mp hlt)
      omega
    · intro hadm
      refine le_min h.capacity_le (le_double (m := 1000) (by omega) ?_)
      by_cases hmul : wait * rate < 2 ^ 53
      · rwa [doubleNat_of_lt hmul]
      · have := le_doubleNat (not_lt.mp hmul)
        omega
  · -- The key has lived for a second, in which the refill is a whole token.
    have hrate := h.rate_pos
    have habsent : liveBucket (nowMs + wait) (some ⟨⟨callTokens capacity refillPerSec nowMs key,
        nowMs⟩, some (nowMs + ttlMs)⟩) = none := by
      have : (Entry.mk (RateBucket.mk (callTokens capacity refillPerSec nowMs key) nowMs)
          (some (nowMs + ttlMs))).live (nowMs + wait) = false :=
        decide_eq_false (by exact not_lt.mpr (Nat.add_le_add_left (not_lt.mp hlive) _))
      simp [liveBucket, Option.filter, this]
    have hfull := @callTokens_absent _ refillPerSec _ _ habsent h.capacity_le
    have hsecond : 1000 ≤ wait * rate := by
      have : wait = 1000 := le_antisymm hwait (httl.trans (not_lt.mp hlive))
      rw [this]
      omega
    exact ⟨fun _ => hsecond.trans (Nat.le_add_left _ _), fun _ => hfull⟩

/-- The wait that the script computes. -/
theorem TurnedAway.retryAfter {tokens rate : Nat}
    (h : TurnedAway capacity refillPerSec nowMs key tokens rate) (hnow : nowMs + 1000 < 2 ^ 53)
    (wait : Nat) :
    (rateLimit true capacity refillPerSec 1 nowMs key).1.retryAfter ≤ wait ↔
      1000 ≤ tokens + wait * rate := by
  have htokens : callTokens capacity refillPerSec nowMs key < 1000 := by
    rw [h.tokens_eq]
    exact_mod_cast h.tokens_lt
  have hlt := h.tokens_lt
  rw [(rateLimit_rejects (by omega) htokens).1, Int.toNat_le, h.tokens_eq, h.rate_eq,
    show (1000 : Int) - tokens = (1000 - tokens : Nat) by omega, double_of_lt (by omega),
    ceil_le_iff h.rate_pos]
  constructor
  · intro hle
    have : 1000 - tokens ≤ wait * rate := by exact_mod_cast hle
    omega
  · intro hle
    have : 1000 - tokens ≤ wait * rate := by omega
    exact_mod_cast this

/-- The least wait, and when it is a whole number of seconds. -/
theorem TurnedAway.retryAfter_least {tokens rate : Nat}
    (h : TurnedAway capacity refillPerSec nowMs key tokens rate) (hnow : nowMs + 1000 < 2 ^ 53) :
    IsLeast {wait | (nextDecision capacity refillPerSec nowMs wait key).allowed = true}
      (rateLimit true capacity refillPerSec 1 nowMs key).1.retryAfter := by
  have hsecond : (rateLimit true capacity refillPerSec 1 nowMs key).1.retryAfter ≤ 1000 :=
    (h.retryAfter hnow 1000).mpr (by have := h.rate_pos; omega)
  constructor
  · exact (h.next_allows hnow hsecond).mpr ((h.retryAfter hnow _).mp le_rfl)
  · intro wait hwait
    by_contra hlt
    have hshort : wait ≤ 1000 := (not_le.mp hlt).le.trans hsecond
    exact hlt ((h.retryAfter hnow wait).mpr ((h.next_allows hnow hshort).mp hwait))

theorem TurnedAway.header_iff {tokens rate : Nat}
    (h : TurnedAway capacity refillPerSec nowMs key tokens rate) (hnow : nowMs + 1000 < 2 ^ 53) :
    (nextDecision capacity refillPerSec nowMs (1000 * (attachRateLimitHeaders
        (rateLimit true capacity refillPerSec 1 nowMs key).1).retryAfter) key).allowed = true ↔
      rate = 1 ∧ tokens = 0 := by
  have hlt := h.tokens_lt
  have hrate := h.rate_pos
  have hwait := h.retryAfter hnow
  unfold attachRateLimitHeaders
  generalize (rateLimit true capacity refillPerSec 1 nowMs key).1.retryAfter = retryAfter at hwait ⊢
  have hsecond : retryAfter ≤ 1000 := (hwait 1000).mpr (by omega)
  dsimp only
  have hpos : 0 < retryAfter := by
    by_contra hzero
    have := (hwait 0).mp (not_lt.mp hzero)
    omega
  rw [h.next_allows hnow (by omega), ← hwait, whole_second hpos hsecond]
  constructor
  · intro hwhole
    -- A wait of a whole second is one of 1000 ms, and 999 are not enough.
    have hshort := mt (hwait 999).mpr (by omega)
    omega
  · rintro ⟨rfl, rfl⟩
    have := (hwait retryAfter).mp le_rfl
    omega

/-! ### When the header is enough -/

/-- What the key holds is a bucket that the script has left: no tokens are owed. -/
def NothingOwed (key : Option (Entry RateBucket)) : Prop := ∀ entry ∈ key, 0 ≤ entry.value.tokens

theorem liveBucket_eq_some {bucket : RateBucket} (h : liveBucket nowMs key = some bucket) :
    ∃ entry ∈ key, entry.live nowMs = true ∧ entry.value = bucket := by
  obtain ⟨entry, hentry, hvalue⟩ := Option.map_eq_some_iff.mp h
  obtain ⟨hkey, hlive⟩ := Option.filter_eq_some_iff.mp hentry
  exact ⟨entry, hkey, hlive, hvalue⟩

/-- An integer that is not negative, and its double. -/
theorem elapsed_eq (n : Int) : ∃ elapsed : Nat, max 0 (double n) = elapsed ∧ (elapsed = 0 ↔ n ≤ 0) := by
  refine ⟨(max 0 (double n)).toNat, by omega, ?_⟩
  constructor
  · intro hzero
    by_contra hpos
    have := double_pos (not_le.mp hpos)
    omega
  · intro hle
    have := double_nonpos hle
    omega

/-- A rejected call has found a key. -/
theorem rejected_finds (hcapacity : 1000 ≤ scriptCapacity capacity)
    (h : callTokens capacity refillPerSec nowMs key < 1000) :
    ∃ entry ∈ key, entry.live nowMs = true ∧ liveBucket nowMs key = some entry.value := by
  cases hbucket : liveBucket nowMs key with
  | none => exact absurd h (not_lt.mpr (callTokens_absent hbucket hcapacity))
  | some bucket =>
      obtain ⟨entry, hentry, hlive, hvalue⟩ := liveBucket_eq_some hbucket
      exact ⟨entry, hentry, hlive, congrArg some hvalue.symm⟩

/-- The tokens of a rejected call, and when they are none. -/
theorem rejected_tokens {rate : Nat} (howed : NothingOwed key)
    (hcapacity : 1000 ≤ scriptCapacity capacity) (hrate : scriptRefill refillPerSec = rate)
    (hpos : 0 < rate) (h : callTokens capacity refillPerSec nowMs key < 1000) :
    ∃ tokens, TurnedAway capacity refillPerSec nowMs key tokens rate ∧
      (tokens = 0 ↔ ∃ entry ∈ key, entry.live nowMs = true ∧ entry.value.tokens = 0 ∧
        (nowMs : Int) ≤ entry.value.ts) := by
  obtain ⟨entry, hentry, hlive, hbucket⟩ := rejected_finds hcapacity h
  obtain ⟨held, hheld⟩ := Int.eq_ofNat_of_zero_le (howed entry hentry)
  obtain ⟨elapsed, helapsed, hzero⟩ := elapsed_eq (nowMs - entry.value.ts)
  have htokens : callTokens capacity refillPerSec nowMs key =
      min (scriptCapacity capacity) (doubleNat (held + doubleNat (elapsed * rate)) : Nat) := by
    unfold callTokens foundTokens
    rw [hbucket, hrate]
    dsimp only [Option.getD_some]
    rw [helapsed, hheld, ← Nat.cast_mul, double_natCast, ← Nat.cast_add, double_natCast]
  have hshort : callTokens capacity refillPerSec nowMs key =
      (doubleNat (held + doubleNat (elapsed * rate)) : Nat) := by omega
  refine ⟨_, ⟨hcapacity, hshort, by omega, hrate, hpos⟩, ?_⟩
  have hnone : doubleNat (held + doubleNat (elapsed * rate)) = 0 ↔ held = 0 ∧ elapsed = 0 := by
    constructor
    · intro h0
      have hsum : held + doubleNat (elapsed * rate) = 0 := by
        by_contra hne
        have := doubleNat_pos (Nat.pos_of_ne_zero hne)
        omega
      refine ⟨by omega, ?_⟩
      by_contra hne
      have := doubleNat_pos (Nat.mul_pos (Nat.pos_of_ne_zero hne) hpos)
      omega
    · rintro ⟨rfl, rfl⟩
      rw [Nat.zero_mul]
      rfl
  rw [hnone, hzero]
  constructor
  · rintro ⟨hheld0, htime⟩
    exact ⟨entry, hentry, hlive, by rw [hheld, hheld0]; rfl, by omega⟩
  · rintro ⟨other, hother, -, htokens0, htime⟩
    obtain rfl : entry = other := Option.some.inj (hentry.symm.trans hother)
    omega

theorem rateLimit_capacity {pexpire : Bool}
    (h : (rateLimit pexpire capacity refillPerSec 1 nowMs key).1.allowed = true) :
    1000 ≤ scriptCapacity capacity := by
  have hcost : double (asI64 (wrapU64 (1 * 1000))) = 1000 := by decide +kernel
  unfold rateLimit at h
  dsimp only at h
  rw [decide_eq_true_iff, hcost, rateLimitScript_allows] at h
  exact h.trans (min_le_left _ _)

theorem scriptRefill_eq_one (hrefill : refillPerSec < 2 ^ 64) :
    scriptRefill refillPerSec = 1 ↔ refillPerSec = 1 := by
  constructor
  · intro h
    have hpos : 0 < asI64 refillPerSec := by
      by_contra hle
      have := double_nonpos (not_lt.mp hle)
      unfold scriptRefill at h
      omega
    obtain ⟨n, hn⟩ := Int.eq_ofNat_of_zero_le hpos.le
    have hone : n = 1 := by
      unfold scriptRefill at h
      rw [hn, double_natCast] at h
      by_cases hlt : n < 2 ^ 53
      · rw [doubleNat_of_lt hlt] at h
        exact_mod_cast h
      · have := le_doubleNat (not_lt.mp hlt)
        omega
    unfold asI64 Int.bmod at hn
    dsimp only at hn
    split at hn <;> omega
  · rintro rfl
    decide +kernel

/-- A refill that reaches the script as a negative number: the header prints 0, and nothing comes. -/
theorem no_refill_rejects (hnow : nowMs < 2 ^ 53)
    (h : callTokens capacity refillPerSec nowMs key < 1000)
    (hrefill : scriptRefill refillPerSec ≤ 0) :
    ¬ (nextDecision capacity refillPerSec nowMs (1000 * (attachRateLimitHeaders
      (rateLimit true capacity refillPerSec 1 nowMs key).1).retryAfter) key).allowed = true := by
  obtain ⟨hretry, ttlMs, httl, hkey⟩ := rateLimit_rejects hnow h
  have hmissing := double_pos (n := 1000 - callTokens capacity refillPerSec nowMs key) (by omega)
  have hquotient := Int.ediv_nonneg_of_nonpos_of_nonpos (Int.neg_nonpos_of_nonneg hmissing.le)
    hrefill
  have hzero : (rateLimit true capacity refillPerSec 1 nowMs key).1.retryAfter = 0 := by
    rw [hretry]
    omega
  have hheader : (attachRateLimitHeaders
      (rateLimit true capacity refillPerSec 1 nowMs key).1).retryAfter = 0 := by
    unfold attachRateLimitHeaders
    dsimp only
    rw [hzero]
  have hlive := @callTokens_live capacity refillPerSec nowMs
    (callTokens capacity refillPerSec nowMs key) 0 ttlMs (lt_of_lt_of_le (by norm_num) httl) (by norm_num)
  have hsame : double (callTokens capacity refillPerSec nowMs key + double 0) < 1000 := by
    rw [show double 0 = 0 from rfl, Int.add_zero]
    exact double_lt (m := 1000) (by omega) (by omega) h
  unfold nextDecision
  rw [hheader, Nat.mul_zero, rateLimit_allows (by exact hnow), hkey, hlive]
  rw [Nat.cast_zero, Int.zero_mul]
  exact not_le.mpr ((min_le_right _ _).trans_lt hsame)

/-- **When the header is enough**: exactly when the wait that the script computes is a whole
second. -/
theorem retry_after_sufficient (hrefill : refillPerSec < 2 ^ 64) (hnow : nowMs + 1000 < 2 ^ 53)
    (howed : NothingOwed key)
    (hrejected : (rateLimit true capacity refillPerSec 1 nowMs key).1.allowed = false) :
    ((nextDecision capacity refillPerSec nowMs (1000 * (attachRateLimitHeaders
        (rateLimit true capacity refillPerSec 1 nowMs key).1).retryAfter) key).allowed = true ∧
      IsLeast {wait | (nextDecision capacity refillPerSec nowMs wait key).allowed = true}
        (rateLimit true capacity refillPerSec 1 nowMs key).1.retryAfter) ↔
    refillPerSec = 1 ∧ 1000 ≤ asI64 (wrapU64 (capacity * 1000)) ∧
      ∃ entry ∈ key, entry.live nowMs = true ∧ entry.value.tokens = 0 ∧
        (nowMs : Int) ≤ entry.value.ts := by
  have htokens : callTokens capacity refillPerSec nowMs key < 1000 := by
    rw [← not_le, ← @rateLimit_allows _ _ _ _ true (by omega), hrejected]
    exact Bool.false_ne_true
  rw [← le_scriptCapacity]
  by_cases hcapacity : 1000 ≤ scriptCapacity capacity
  · by_cases hpos : 0 < scriptRefill refillPerSec
    · obtain ⟨rate, hrate⟩ := Int.eq_ofNat_of_zero_le hpos.le
      obtain ⟨tokens, hrej, hzero⟩ := rejected_tokens howed hcapacity hrate (by omega) htokens
      rw [hrej.header_iff hnow, ← hzero, ← scriptRefill_eq_one hrefill, hrate]
      constructor
      · rintro ⟨⟨rfl, htokens0⟩, -⟩
        exact ⟨rfl, hcapacity, htokens0⟩
      · rintro ⟨hone, -, htokens0⟩
        exact ⟨⟨by exact_mod_cast hone, htokens0⟩, hrej.retryAfter_least hnow⟩
    · constructor
      · intro h
        exact absurd h.1 (no_refill_rejects (by omega) htokens (not_lt.mp hpos))
      · rintro ⟨rfl, -⟩
        exact absurd (by decide +kernel) hpos
  · constructor
    · intro h
      exact absurd (rateLimit_capacity h.1) hcapacity
    · intro h
      exact absurd h.2.1 hcapacity

/-- An empty bucket that is refilled by a token in a second: the header prints the second. -/
theorem retry_after_sufficient_empty :
    (nextDecision 1 1 5000 (1000 * (attachRateLimitHeaders
      (rateLimit true 1 1 1 5000 (some ⟨⟨0, 5000⟩, some 7000⟩)).1).retryAfter)
        (some ⟨⟨0, 5000⟩, some 7000⟩)).allowed = true :=
  ((retry_after_sufficient (by decide) (by decide)
    (by rintro _ ⟨⟩; exact le_rfl) (by decide +kernel)).mpr
      ⟨rfl, by decide +kernel, _, rfl, by decide +kernel, rfl, le_rfl⟩).1

/-- Half a second after its last token was taken, the client is told to wait for 0 seconds, and is
rejected again. -/
theorem retry_after_zero :
    (rateLimit true 1 1 1 5500 (some ⟨⟨0, 5000⟩, some 7000⟩)).1 = ⟨false, 0, 500⟩ ∧
    (attachRateLimitHeaders
      (rateLimit true 1 1 1 5500 (some ⟨⟨0, 5000⟩, some 7000⟩)).1).retryAfter = 0 ∧
    (nextDecision 1 1 5500 (1000 * (attachRateLimitHeaders
      (rateLimit true 1 1 1 5500 (some ⟨⟨0, 5000⟩, some 7000⟩)).1).retryAfter)
        (some ⟨⟨0, 5000⟩, some 7000⟩)).allowed = false := by
  decide +kernel

end Fluxa
