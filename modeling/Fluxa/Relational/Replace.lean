import Mathlib.Data.Set.Basic

/-!
# Relational — replacing a set of rows

A transaction replaces the rows of a set by the rows it wants: it deletes the others that it finds and inserts those that are missing.  What it finds is what was there when its `DELETE` started, and what it deletes and inserts is seen by nobody else before it commits.

* **`Replacement.after_eq`**: its commit leaves the rows it wants, provided that nothing else has come in since its `DELETE` started.
-/

namespace Relational

/-- The rows wanted, those found by the `DELETE`, and the changes not yet committed. -/
structure Replacement (κ : Type) where
  wanted : Set κ
  found : Set κ
  deleted : Set κ
  inserted : Set κ

namespace Replacement

variable {κ : Type} (cur : Set κ) (T : Replacement κ)

/-- The rows after the commit, when `cur` are the rows before it. -/
def after : Set κ := cur \ T.deleted ∪ T.inserted

/-- The `DELETE` has started, and nothing but what it has found or is wanted is there. -/
structure Started : Prop where
  apart : ∀ a ∈ T.found, a ∉ T.wanted
  covers : cur ⊆ T.found ∪ T.wanted
  deleted_found : T.deleted ⊆ T.found
  inserted_wanted : T.inserted ⊆ T.wanted

/-- The `DELETE` has deleted what it has found. -/
def Cleared : Prop := T.found ∩ cur ⊆ T.deleted

/-- The `INSERT` has inserted what was missing. -/
def Filled : Prop := T.wanted ⊆ cur ∪ T.inserted

variable {cur T}

theorem after_eq (hs : Started cur T) (hc : Cleared cur T) (hf : Filled cur T) :
    after cur T = T.wanted := by
  ext a
  constructor
  · rintro (⟨ha, hd⟩ | ha)
    · exact (hs.covers ha).resolve_left fun hfound => hd (hc ⟨hfound, ha⟩)
    · exact hs.inserted_wanted ha
  · intro ha
    rcases hf ha with h | h
    · exact .inl ⟨h, fun hd => hs.apart a (hs.deleted_found hd) ha⟩
    · exact .inr h

/-- A commit of others that leaves just the wanted rows does no harm. -/
theorem Started.wanted (hs : Started cur T) : Started T.wanted T :=
  ⟨hs.apart, Set.subset_union_right, hs.deleted_found, hs.inserted_wanted⟩

theorem Started.cleared_wanted (hs : Started cur T) : Cleared T.wanted T :=
  fun a ha => absurd ha.2 (hs.apart a ha.1)

theorem filled_wanted : Filled T.wanted T := Set.subset_union_left

end Replacement

end Relational
