import Mathlib.Data.List.Basic
import Mathlib.Tactic.Ring

/-!
# Limits — Token buckets

A bucket holds tokens up to its capacity and is refilled at a constant rate; a call takes its cost or is turned away.  Tokens, rate and time are natural numbers, in whatever units the user of the library scales them to.

**The bound** (`admitted_within`): what the calls admitted in a time interval take is at most the capacity and what is refilled during the interval.  The potential is the tokens held: before the interval they are worth at most the capacity, within it they only grow by the refill.
-/

namespace TokenBucket

/-- The limit that a bucket enforces. -/
structure Limit where
  capacity : Nat
  rate : Nat

/-- The tokens of a bucket when it was last touched. -/
structure Level where
  tokens : Nat
  time : Nat
deriving DecidableEq

namespace Limit
variable (l : Limit) (cost : Nat)

/-- The tokens at time `now`. -/
def refilled (b : Level) (now : Nat) : Nat := min l.capacity (b.tokens + (now - b.time) * l.rate)

/-- A call at time `now` finds its cost in the bucket. -/
def admits (b : Level) (now : Nat) : Bool := cost ≤ l.refilled b now

/-- The bucket after a call at time `now`. -/
def take (b : Level) (now : Nat) : Level :=
  ⟨if l.admits cost b now then l.refilled b now - cost else l.refilled b now, now⟩

/-- The times of the calls that are admitted, of calls made at the given times. -/
def admitted : Level → List Nat → List Nat
  | _, [] => []
  | b, now :: rest =>
    if l.admits cost b now then now :: admitted (l.take cost b now) rest
    else admitted (l.take cost b now) rest

variable {l cost} {b : Level} {now s t : Nat} {times : List Nat}

theorem refilled_le_capacity : l.refilled b now ≤ l.capacity := min_le_left _ _

theorem refilled_le : l.refilled b now ≤ b.tokens + (now - b.time) * l.rate := min_le_right _ _

/-- A bucket that has had the time to fill up is full. -/
theorem refilled_eq_capacity (h : l.capacity ≤ (now - b.time) * l.rate) :
    l.refilled b now = l.capacity :=
  min_eq_left (h.trans (Nat.le_add_left _ _))

@[simp] theorem take_time : (l.take cost b now).time = now := rfl

theorem take_tokens_le : (l.take cost b now).tokens ≤ l.refilled b now := by
  unfold take
  dsimp only
  split
  · exact Nat.sub_le _ _
  · exact le_rfl

theorem take_tokens_le_capacity : (l.take cost b now).tokens ≤ l.capacity :=
  take_tokens_le.trans refilled_le_capacity

/-- An admitted call pays its cost. -/
theorem take_tokens_add (h : l.admits cost b now = true) :
    (l.take cost b now).tokens + cost = l.refilled b now := by
  have hle : cost ≤ l.refilled b now := of_decide_eq_true h
  simp only [take, h, if_true]
  omega

theorem admitted_cons {rest : List Nat} :
    l.admitted cost b (now :: rest) =
      if l.admits cost b now then now :: l.admitted cost (l.take cost b now) rest
      else l.admitted cost (l.take cost b now) rest := rfl

theorem mem_of_admitted {x : Nat} (h : x ∈ l.admitted cost b times) : x ∈ times := by
  induction times generalizing b with
  | nil => exact h
  | cons now rest ih =>
      rw [admitted_cons] at h
      split at h
      · rcases List.mem_cons.mp h with rfl | h
        · exact List.mem_cons_self
        · exact List.mem_cons_of_mem _ (ih h)
      · exact List.mem_cons_of_mem _ (ih h)

/-- The admitted calls within the closed interval from `s` to `t`. -/
def within (s t : Nat) (admitted : List Nat) : List Nat :=
  admitted.filter fun now => s ≤ now ∧ now ≤ t

theorem within_eq_nil (h : ∀ now ∈ times, t < now) : within s t times = [] := by
  rw [within, List.filter_eq_nil_iff]
  intro now hnow
  have := h now hnow
  simp only [decide_eq_true_eq]
  omega

/-- One more call adds its cost to what the calls of the interval take, if it is one of them. -/
theorem within_admitted_cons {rest : List Nat} :
    cost * (within s t (l.admitted cost b (now :: rest))).length ≤
      (if s ≤ now ∧ now ≤ t then l.refilled b now - (l.take cost b now).tokens else 0) +
        cost * (within s t (l.admitted cost (l.take cost b now) rest)).length := by
  rw [admitted_cons]
  split
  · rename_i h
    have hpay := take_tokens_add h
    by_cases hin : s ≤ now ∧ now ≤ t
    · have hcount : within s t (now :: l.admitted cost (l.take cost b now) rest) =
          now :: within s t (l.admitted cost (l.take cost b now) rest) := by
        simp [within, hin.1, hin.2]
      rw [hcount, if_pos hin, List.length_cons, Nat.mul_succ]
      omega
    · have hcount : within s t (now :: l.admitted cost (l.take cost b now) rest) =
          within s t (l.admitted cost (l.take cost b now) rest) := by
        simp [within, hin]
      rw [hcount, if_neg hin, Nat.zero_add]
  · exact Nat.le_add_left _ _

/-- Within the interval the tokens only grow by the refill. -/
theorem admitted_from (hsorted : times.Pairwise (· ≤ ·)) (hfrom : ∀ now ∈ times, b.time ≤ now) :
    cost * (within s t (l.admitted cost b times)).length ≤ b.tokens + (t - b.time) * l.rate := by
  induction times generalizing b with
  | nil => simp [admitted, within]
  | cons now rest ih =>
      obtain ⟨hlater, hrest⟩ := List.pairwise_cons.mp hsorted
      have hnow := hfrom now List.mem_cons_self
      by_cases ht : now ≤ t
      · have hih := ih (b := l.take cost b now) hrest hlater
        have hcons := @within_admitted_cons l cost b now s t rest
        have hle := @take_tokens_le l cost b now
        have hrefill := @refilled_le l b now
        have hsplit : (t - b.time) * l.rate = (now - b.time) * l.rate + (t - now) * l.rate := by
          rw [← Nat.add_mul]
          congr 1
          omega
        rw [take_time] at hih
        split at hcons <;> omega
      · rw [within_eq_nil]
        · exact Nat.zero_le _
        · intro x hx
          rcases List.mem_cons.mp (mem_of_admitted hx) with rfl | hx
          · omega
          · exact (not_le.mp ht).trans_le (hlater x hx)

/-- **The bound of a token bucket.** -/
theorem admitted_within (hsorted : times.Pairwise (· ≤ ·)) (htokens : b.tokens ≤ l.capacity)
    (hfrom : ∀ now ∈ times, b.time ≤ now) :
    cost * (within s t (l.admitted cost b times)).length ≤ l.capacity + (t - s) * l.rate := by
  induction times generalizing b with
  | nil => simp [admitted, within]
  | cons now rest ih =>
      obtain ⟨hlater, hrest⟩ := List.pairwise_cons.mp hsorted
      have hcons := @within_admitted_cons l cost b now s t rest
      by_cases hs : s ≤ now
      · -- The interval has begun: at its first call the bucket holds at most the capacity.
        have hmore := @admitted_from l cost (l.take cost b now) s t _ hrest hlater
        have hle := @take_tokens_le l cost b now
        have hcap := @refilled_le_capacity l b now
        have hshort : (t - now) * l.rate ≤ (t - s) * l.rate :=
          Nat.mul_le_mul_right _ (by omega)
        rw [take_time] at hmore
        split at hcons <;> omega
      · have hih := ih (b := l.take cost b now) hrest take_tokens_le_capacity hlater
        rw [if_neg fun h => hs h.1] at hcons
        omega

end Limit

end TokenBucket
