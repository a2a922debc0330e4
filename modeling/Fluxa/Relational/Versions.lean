import Mathlib.Data.List.Basic
import Mathlib.Order.Nat

/-!
# Relational — versions

A version counter that is raised after changes, and values that are stored under the version read before they were computed.  A raise is recorded with the version it reaches and the time of it, in changes made until then; a value is stamped with the time at which it was computed.  **`Covers`**: the stamp `a` leaves out no change that was made before a raise to `v` or to less.
-/

namespace Relational

variable {τ : Type} [Preorder τ]

/-- The raises so far have reached no more than `version`, after no more than `changes` changes. -/
def Raised (version : Nat) (changes : τ) (raises : List (Nat × τ)) : Prop :=
  ∀ x ∈ raises, x.1 ≤ version ∧ x.2 ≤ changes

/-- What is stamped with `a` may be stored under the version `v`. -/
structure Covers (version : Nat) (raises : List (Nat × τ)) (v : Nat) (a : τ) : Prop where
  reached : v ≤ version
  le : ∀ x ∈ raises, x.1 ≤ v → x.2 ≤ a

variable {version v : Nat} {changes a b : τ} {raises : List (Nat × τ)}

theorem Raised.nil : Raised version changes [] := fun x hx => by cases hx

theorem Raised.mono (h : Raised version changes raises) (hc : changes ≤ b) :
    Raised version b raises := fun x hx => ⟨(h x hx).1, (h x hx).2.trans hc⟩

/-- Raising the counter. -/
theorem Raised.raise (h : Raised version changes raises) :
    Raised (version + 1) changes ((version + 1, changes) :: raises) := by
  intro x hx
  rcases List.mem_cons.mp hx with rfl | hx
  · exact ⟨le_rfl, le_rfl⟩
  · exact ⟨(h x hx).1.trans (Nat.le_succ _), (h x hx).2⟩

/-- What is computed now may be stored under the version read now. -/
theorem Raised.covers (h : Raised version changes raises) : Covers version raises version changes :=
  ⟨le_rfl, fun x hx _ => (h x hx).2⟩

theorem Covers.mono (h : Covers version raises v a) (hab : a ≤ b) : Covers version raises v b :=
  ⟨h.reached, fun x hx hv => (h.le x hx hv).trans hab⟩

/-- A later raise reaches a later version, under which nothing is stored yet. -/
theorem Covers.raise (h : Covers version raises v a) :
    Covers (version + 1) ((version + 1, changes) :: raises) v a := by
  refine ⟨h.reached.trans (Nat.le_succ _), fun x hx hv => ?_⟩
  rcases List.mem_cons.mp hx with rfl | hx
  · exact absurd (hv.trans h.reached) (Nat.not_succ_le_self version)
  · exact h.le x hx hv

end Relational
