import Fluxa.Relational.Table

/-!
# Relational — references within one owner

The rows of a table have owners, and rows of another table refer to them by key.  References are closed when every row refers to a row of its own owner (**`Refers`**).  What happens to the table that is referred to must keep the owners of its keys (**`KeepsOwners`**); what happens to the rows that refer must be right row by row.
-/

namespace Relational.Table

variable {α β κ κ' τ : Type} {key : α → κ} {key' : β → κ'} {owner : α → τ} {owner' : β → τ}
  {ref : β → Option κ}

/-- The row with the key `k` belongs to `o`. -/
def Owned (t : Table α key) (owner : α → τ) (k : κ) (o : τ) : Prop :=
  ∃ a ∈ t, key a = k ∧ owner a = o

theorem owned_of_mem {t : Table α key} {a : α} (ha : a ∈ t) : t.Owned owner (key a) (owner a) :=
  ⟨a, ha, rfl, rfl⟩

/-- A row has one owner. -/
theorem Owned.eq_owner {t : Table α key} {a : α} {o : τ} (h : t.Owned owner (key a) o)
    (ha : a ∈ t) : owner a = o := by
  obtain ⟨b, hb, hk, rfl⟩ := h
  rw [eq_of_key hb ha hk]

/-! ### The table that is referred to -/

/-- Every row is still there, with its owner. -/
def KeepsOwners (owner : α → τ) (t t' : Table α key) : Prop :=
  ∀ k o, t.Owned owner k o → t'.Owned owner k o

theorem KeepsOwners.refl (t : Table α key) : KeepsOwners owner t t := fun _ _ h => h

theorem keepsOwners_of_subset {t t' : Table α key} (h : ∀ a ∈ t, a ∈ t') :
    KeepsOwners owner t t' := by
  rintro k o ⟨a, ha, hk, ho⟩
  exact ⟨a, h a ha, hk, ho⟩

theorem keepsOwners_insert [DecidableEq κ] {t t' : Table α key} {a : α}
    (h : t.insert a = some t') : KeepsOwners owner t t' :=
  keepsOwners_of_subset fun b hb => ((insert_eq_some h).2 b).mpr (.inl hb)

theorem keepsOwners_insertAll [DecidableEq κ] {t t' : Table α key} {as : List α}
    (h : t.insertAll as = some t') : KeepsOwners owner t t' :=
  keepsOwners_of_subset fun b hb => (mem_insertAll h b).mpr (.inl hb)

theorem keepsOwners_update {t : Table α key} {p : α → Bool} {f : α → α} (hf : KeepsKey key f)
    (ho : ∀ a, owner (f a) = owner a) : KeepsOwners owner t (t.update p f hf) := by
  rintro k o ⟨a, ha, rfl, rfl⟩
  refine ⟨_, mem_update.mpr ⟨a, ha, rfl⟩, ?_, ?_⟩
  · split
    · exact hf.key_eq a
    · rfl
  · split
    · exact ho a
    · rfl

/-! ### The rows that refer -/

/-- Every row that refers to a key refers to a row of its own owner. -/
def Refers (t : Table α key) (owner : α → τ) (c : Table β key') (ref : β → Option κ)
    (owner' : β → τ) : Prop :=
  ∀ b ∈ c, ∀ k, ref b = some k → t.Owned owner k (owner' b)

namespace Refers

variable {t t' : Table α key} {c c' : Table β key'}

theorem keep (h : t.Refers owner c ref owner') (hk : KeepsOwners owner t t') :
    t'.Refers owner c ref owner' :=
  fun b hb k hr => hk k _ (h b hb k hr)

theorem insert [DecidableEq κ'] {b : β} (h : t.Refers owner c ref owner')
    (hins : c.insert b = some c') (hb : ∀ k, ref b = some k → t.Owned owner k (owner' b)) :
    t.Refers owner c' ref owner' := by
  intro b' hb' k hr
  rcases ((insert_eq_some hins).2 b').mp hb' with hold | rfl
  · exact h b' hold k hr
  · exact hb k hr

theorem insertAll [DecidableEq κ'] {bs : List β} (h : t.Refers owner c ref owner')
    (hins : c.insertAll bs = some c')
    (hbs : ∀ b ∈ bs, ∀ k, ref b = some k → t.Owned owner k (owner' b)) :
    t.Refers owner c' ref owner' := by
  intro b hb k hr
  rcases (mem_insertAll hins b).mp hb with hold | hnew
  · exact h b hold k hr
  · exact hbs b hnew k hr

theorem update {p : β → Bool} {f : β → β} {hf : KeepsKey key' f}
    (h : t.Refers owner c ref owner')
    (hup : ∀ b ∈ c, p b = true → ∀ k, ref (f b) = some k → t.Owned owner k (owner' (f b))) :
    t.Refers owner (c.update p f hf) ref owner' := by
  intro b hb k hr
  obtain ⟨a, ha, rfl⟩ := mem_update.mp hb
  by_cases hp : p a = true
  · simp only [hp, if_true] at hr ⊢
    exact hup a ha hp k hr
  · simp only [hp] at hr ⊢
    exact h a ha k hr

/-- A change of rows that leaves what they refer to and their owners alone. -/
theorem update_same {p : β → Bool} {f : β → β} (h : t.Refers owner c ref owner')
    (hf : KeepsKey key' f) (hsame : ∀ b, ref (f b) = ref b ∧ owner' (f b) = owner' b) :
    t.Refers owner (c.update p f hf) ref owner' := by
  refine h.update fun b hb _ k hr => ?_
  obtain ⟨href, hown⟩ := hsame b
  rw [hown]
  exact h b hb k (href ▸ hr)

theorem delete {p : β → Bool} (h : t.Refers owner c ref owner') :
    t.Refers owner (c.delete p) ref owner' :=
  fun b hb k hr => h b (mem_delete.mp hb).1 k hr

/-- A row goes with the rows that refer to it. -/
theorem cascade [DecidableEq κ] {p : α → Bool} {q : β → Bool} (h : t.Refers owner c ref owner')
    (hq : ∀ a ∈ t, p a = true → ∀ b ∈ c, ref b = some (key a) → q b = true) :
    (t.delete p).Refers owner (c.delete q) ref owner' := by
  intro b hb k hr
  obtain ⟨hb, hkeep⟩ := mem_delete.mp hb
  obtain ⟨a, ha, rfl, ho⟩ := h b hb k hr
  refine ⟨a, mem_delete.mpr ⟨ha, ?_⟩, rfl, ho⟩
  cases hp : p a with
  | false => rfl
  | true =>
      rw [hq a ha hp b hb hr] at hkeep
      cases hkeep

end Refers

end Relational.Table
