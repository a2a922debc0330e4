import Fluxa.Relational.References

/-!
# Relational — imprints

What of a row never changes is its imprint.  Rows come under keys that are fresh, change under their imprints, and go (**`Moves`**).  As long as no key is fresh again, all rows that ever have a key have one imprint (**`Moves.imprint_eq`**).
-/

namespace Relational.Table

variable {α κ τ : Type} {key : α → κ} {imprint : α → τ} {fresh : κ → Prop}
  {come change go : α → Prop} {t t' : Table α key} {p : α → Bool} {f : α → α} {a : α} {k : κ}

/-- How `t` becomes `t'`: a row may come, change or go as `come`, `change` and `go` say. -/
structure Moves (imprint : α → τ) (fresh : κ → Prop) (come change go : α → Prop)
    (t t' : Table α key) : Prop where
  came : ∀ a' ∈ t', (∃ a ∈ t, key a = key a' ∧ imprint a = imprint a') ∨
    fresh (key a') ∧ come a'
  stayed : ∀ a ∈ t, a ∈ t' ∨ change a ∧ (∃ a' ∈ t', key a' = key a ∧ imprint a' = imprint a) ∨
    go a ∧ ∀ a' ∈ t', key a' ≠ key a

theorem Moves.refl (t : Table α key) : Moves imprint fresh come change go t t where
  came a ha := .inl ⟨a, ha, rfl, rfl⟩
  stayed _ ha := .inl ha

theorem Moves.insert [DecidableEq κ] (h : t.insert a = some t') (hfresh : fresh (key a))
    (hcome : come a) : Moves imprint fresh come change go t t' where
  came b hb := by
    rcases ((insert_eq_some h).2 b).mp hb with hold | rfl
    · exact .inl ⟨b, hold, rfl, rfl⟩
    · exact .inr ⟨hfresh, hcome⟩
  stayed b hb := .inl (((insert_eq_some h).2 b).mpr (.inl hb))

theorem Moves.update (hf : KeepsKey key f) (himprint : ∀ a, imprint (f a) = imprint a)
    (hchange : ∀ a ∈ t, p a = true → change a) :
    Moves imprint fresh come change go t (t.update p f hf) where
  came b hb := by
    obtain ⟨a, ha, rfl⟩ := mem_update.mp hb
    refine .inl ⟨a, ha, ?_⟩
    split
    · exact ⟨(hf.key_eq a).symm, (himprint a).symm⟩
    · exact ⟨rfl, rfl⟩
  stayed a ha := by
    cases hp : p a with
    | false => exact .inl (mem_update_of_false ha hp hf)
    | true =>
        exact .inr (.inl ⟨hchange a ha hp, f a, mem_update_of_true ha hp hf, hf.key_eq a,
          himprint a⟩)

theorem Moves.delete (hgo : ∀ a ∈ t, p a = true → go a) :
    Moves imprint fresh come change go t (t.delete p) where
  came b hb := .inl ⟨b, (mem_delete.mp hb).1, rfl, rfl⟩
  stayed a ha := by
    cases hp : p a with
    | false => exact .inl (mem_delete.mpr ⟨ha, hp⟩)
    | true =>
        refine .inr (.inr ⟨hgo a ha hp, fun b hb hkey => ?_⟩)
        obtain ⟨hb, hpb⟩ := mem_delete.mp hb
        rw [eq_of_key hb ha hkey, hp] at hpb
        cases hpb

/-- Under a key that is not fresh come no rows of another imprint. -/
theorem Moves.imprint_eq {o : τ} (h : Moves imprint fresh come change go t t') (hk : ¬ fresh k)
    (ht : ∀ a ∈ t, key a = k → imprint a = o) : ∀ a ∈ t', key a = k → imprint a = o := by
  rintro a' ha' rfl
  rcases h.came a' ha' with ⟨a, ha, hkey, himprint⟩ | ⟨hfresh, -⟩
  · exact himprint ▸ ht a ha hkey
  · exact absurd hfresh hk

end Relational.Table
