import Fluxa.Relational.References

/-!
# Relational — unique columns

A column that no two rows share (**`Unique`**), such as one under a `UNIQUE` constraint.  What a query for a value of the column finds is the row that has it, if it satisfies the rest of the query (**`Unique.head?_select`**).
-/

namespace Relational.Table

variable {α κ τ υ : Type} {key : α → κ} {t t' : Table α key} {column : α → υ}

/-- No two rows have the same value in the column. -/
def Unique (column : α → υ) (t : Table α key) : Prop :=
  ∀ a ∈ t, ∀ b ∈ t, column a = column b → a = b

theorem unique_empty : Unique column (empty : Table α key) :=
  fun _ ha => absurd ha not_mem_empty

theorem Unique.insert [DecidableEq κ] {a : α} (h : Unique column t) (hins : t.insert a = some t')
    (hnew : ∀ b ∈ t, column b ≠ column a) : Unique column t' := by
  intro x hx y hy hxy
  rcases ((insert_eq_some hins).2 x).mp hx with hx | rfl
  · rcases ((insert_eq_some hins).2 y).mp hy with hy | rfl
    · exact h x hx y hy hxy
    · exact absurd hxy (hnew x hx)
  · rcases ((insert_eq_some hins).2 y).mp hy with hy | rfl
    · exact absurd hxy.symm (hnew y hy)
    · rfl

theorem Unique.update {p : α → Bool} {f : α → α} {hf : KeepsKey key f} (h : Unique column t)
    (hcolumn : ∀ a, column (f a) = column a) : Unique column (t.update p f hf) := by
  have hsame : ∀ a, column (if p a then f a else a) = column a := by
    intro a
    split
    · exact hcolumn a
    · rfl
  intro x hx y hy hxy
  obtain ⟨a, ha, rfl⟩ := mem_update.mp hx
  obtain ⟨b, hb, rfl⟩ := mem_update.mp hy
  obtain rfl := h a ha b hb ((hsame a).symm.trans (hxy.trans (hsame b)))
  rfl

/-- What comes first among the rows that satisfy `p`, when all of these have the value of `a`. -/
theorem Unique.head?_select {p : α → Bool} {a : α} (h : Unique column t) (ha : a ∈ t)
    (hp : ∀ b, p b = true → column b = column a) :
    (t.select p).head? = if p a then some a else none := by
  cases hb : (t.select p).head? with
  | none =>
      have hnone : ¬ p a = true := by
        intro hpa
        have hmem : a ∈ t.select p := mem_select.mpr ⟨ha, hpa⟩
        rw [List.head?_eq_none_iff.mp hb] at hmem
        cases hmem
      rw [if_neg hnone]
  | some b =>
      obtain ⟨hbt, hpb⟩ := mem_select.mp (List.mem_of_head? hb)
      obtain rfl := h b hbt a ha (hp b hpb)
      rw [if_pos hpb]

end Relational.Table
