import Fluxa.State.AppState

/-!
# State — the clock of a run

Every statement reads the clock.  A run is chronological when no statement reads an earlier time than the statements before it.
-/

namespace Fluxa
open Interleave

/-- The clock that a move reads. -/
def moveTime {C : Type} : Move Env C → Option Time
  | .call _ => none
  | .exec _ e => some e.now

/-- The clock does not go back. -/
def Chronological {C : Type} (ms : List (Move Env C)) : Prop :=
  (ms.filterMap moveTime).Pairwise (· ≤ ·)

instance {C : Type} (ms : List (Move Env C)) : Decidable (Chronological ms) :=
  inferInstanceAs (Decidable (List.Pairwise _ _))

section Remaining

variable {C : Type} {m : Move Env C} {ms : List (Move Env C)}

/-- The times that are still to be read. -/
def times (ms : List (Move Env C)) : List Time := ms.filterMap moveTime

theorem Chronological.tail (h : Chronological (m :: ms)) : Chronological ms := by
  cases m with
  | call k => exact h
  | exec i e => exact (List.pairwise_cons.mp h).2

/-- No time still to be read is before the one that the next statement reads. -/
theorem Chronological.le {i : Nat} {e : Env} (h : Chronological (.exec i e :: ms)) :
    ∀ t ∈ times ms, e.now ≤ t :=
  (List.pairwise_cons.mp h).1

end Remaining

end Fluxa
