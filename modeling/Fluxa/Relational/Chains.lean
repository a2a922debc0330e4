import Mathlib.Logic.Relation

/-!
# Relational — chains

A relation of succession whose connected components are chains: nothing has two successors or two predecessors, and nothing comes round to itself.  Such a relation is grown link by link, each time from an end to something new (**`Chains.extend`**), and each component has at most one end (**`Chains.eq_of_ends`**).
-/

namespace Relational
open Relation

variable {α : Type} {r : α → α → Prop} {a b x y : α}

/-- The connected components of `r` are chains. -/
structure Chains (r : α → α → Prop) : Prop where
  succ_unique : ∀ a b c, r a b → r a c → b = c
  pred_unique : ∀ a b c, r a c → r b c → a = b
  acyclic : ∀ a, ¬ TransGen r a a

/-- `x` has no successor. -/
def IsEnd (r : α → α → Prop) (x : α) : Prop := ∀ c, ¬ r x c

/-- `x` has neither successor nor predecessor. -/
def IsNew (r : α → α → Prop) (x : α) : Prop := ∀ c, ¬ r x c ∧ ¬ r c x

/-- The relation with the link from `a` to `b` besides. -/
def link (r : α → α → Prop) (a b : α) (x y : α) : Prop := r x y ∨ x = a ∧ y = b

/-- What is reached through the new link is reached in the old relation, or is its end. -/
theorem transGen_link (hb : IsNew r b) (hne : a ≠ b) (h : TransGen (link r a b) x y) :
    TransGen r x y ∨ y = b ∧ x ≠ b := by
  induction h with
  | single h =>
      rcases h with h | ⟨rfl, rfl⟩
      · exact .inl (.single h)
      · exact .inr ⟨rfl, hne⟩
  | tail _ h ih =>
      rcases h with h | ⟨rfl, rfl⟩
      · rcases ih with ih | ⟨rfl, -⟩
        · exact .inl (ih.tail h)
        · exact absurd h (hb _).1
      · rcases ih with ih | ⟨hab, -⟩
        · refine .inr ⟨rfl, ?_⟩
          rintro rfl
          obtain ⟨c, hc, -⟩ := TransGen.head'_iff.mp ih
          exact (hb c).1 hc
        · exact absurd hab hne

/-- A chain is extended from its end to something new. -/
theorem Chains.extend (h : Chains r) (ha : IsEnd r a) (hb : IsNew r b) (hne : a ≠ b) :
    Chains (link r a b) where
  succ_unique x y z hy hz := by
    rcases hy with hy | ⟨rfl, rfl⟩
    · rcases hz with hz | ⟨rfl, rfl⟩
      · exact h.succ_unique x y z hy hz
      · exact absurd hy (ha y)
    · rcases hz with hz | ⟨-, rfl⟩
      · exact absurd hz (ha z)
      · rfl
  pred_unique x y z hx hy := by
    rcases hx with hx | ⟨rfl, rfl⟩
    · rcases hy with hy | ⟨rfl, rfl⟩
      · exact h.pred_unique x y z hx hy
      · exact absurd hx (hb x).2
    · rcases hy with hy | ⟨rfl, -⟩
      · exact absurd hy (hb y).2
      · rfl
  acyclic x hx := by
    rcases transGen_link hb hne hx with hx | ⟨rfl, hxb⟩
    · exact h.acyclic x hx
    · exact hxb rfl

theorem IsEnd.eq_of_reflTransGen (hx : IsEnd r x) (h : ReflTransGen r x y) : x = y := by
  rcases h.cases_head with h | ⟨c, hc, -⟩
  · exact h
  · exact absurd hc (hx c)

/-- A chain has at most one end. -/
theorem Chains.eq_of_ends (h : Chains r) (hx : IsEnd r x) (hy : IsEnd r y)
    (hxy : EqvGen r x y) : x = y := by
  have hdiamond : ∀ a b c, r a b → r a c → ∃ d, ReflGen r b d ∧ ReflTransGen r c d := by
    intro a b c hb hc
    obtain rfl := h.succ_unique a b c hb hc
    exact ⟨b, .refl, .refl⟩
  have hjoin : Join (ReflTransGen r) x y := by
    refine (equivalence_join_reflTransGen hdiamond).eqvGen_iff.mp (hxy.mono fun a b hab => ?_)
    exact ⟨b, .single hab, .refl⟩
  obtain ⟨z, hxz, hyz⟩ := hjoin
  exact (hx.eq_of_reflTransGen hxz).trans (hy.eq_of_reflTransGen hyz).symm

/-- Without links there is nothing to chain. -/
theorem chains_of_isEmpty (h : ∀ a b, ¬ r a b) : Chains r where
  succ_unique a b _ hb := absurd hb (h a b)
  pred_unique a _ c ha := absurd ha (h a c)
  acyclic a ha := by
    obtain ⟨c, hc, -⟩ := TransGen.head'_iff.mp ha
    exact h a c hc

end Relational
