import Fluxa.Relational.Table

/-!
# Relational — deletions that nobody notices

What a deletion does to the other operations of a table.  A query that selects none of the deleted rows returns what it would return without the deletion; an update or an insertion may as well come before the deletion, where the deletion goes by the key.
-/

namespace Relational.Table

variable {α κ : Type} {key : α → κ} {t : Table α key} {p q : α → Bool}

theorem select_delete (h : ∀ a ∈ t, q a = true → p a = false) :
    (t.delete q).select p = t.select p := by
  unfold select delete
  rw [List.filter_filter]
  refine List.filter_congr fun a ha => ?_
  cases hq : q a with
  | false => simp
  | true => simp [h a ha hq]

theorem count_delete (h : ∀ a ∈ t, q a = true → p a = false) : (t.delete q).count p = t.count p :=
  congrArg List.length (select_delete h)

theorem delete_congr (h : ∀ a ∈ t, p a = q a) : t.delete p = t.delete q := by
  unfold delete
  congr 1
  exact List.filter_congr fun a ha => by rw [h a ha]

theorem update_congr {f : α → α} {hf : KeepsKey key f} (h : ∀ a ∈ t, p a = q a) :
    t.update p f hf = t.update q f hf := by
  unfold update
  congr 1
  exact List.map_congr_left fun a ha => by rw [h a ha]

theorem count_congr (h : ∀ a ∈ t, p a = q a) : t.count p = t.count q :=
  congrArg List.length (List.filter_congr h)

theorem delete_delete : (t.delete p).delete q = (t.delete q).delete p := by
  unfold delete
  congr 1
  rw [List.filter_filter, List.filter_filter]
  exact List.filter_congr fun a _ => Bool.and_comm _ _

theorem update_delete {g : κ → Bool} {f : α → α} {hf : KeepsKey key f} :
    (t.delete fun a => g (key a)).update p f hf = (t.update p f hf).delete fun a => g (key a) := by
  unfold update delete
  congr 1
  rw [List.filter_map]
  congr 1
  refine List.filter_congr fun a _ => ?_
  simp only [Function.comp_apply]
  split
  · rw [hf.key_eq]
  · rfl

variable [DecidableEq κ]

theorem insert_delete {g : κ → Bool} {a : α} (h : g (key a) = false) :
    (t.delete fun b => g (key b)).insert a =
      (t.insert a).map fun t' => t'.delete fun b => g (key b) := by
  have hmem : key a ∈ (t.delete fun b => g (key b)).rows.map key ↔ key a ∈ t.rows.map key := by
    constructor
    · intro hk
      obtain ⟨b, hb, hkey⟩ := List.mem_map.mp hk
      exact List.mem_map.mpr ⟨b, List.mem_of_mem_filter hb, hkey⟩
    · intro hk
      obtain ⟨b, hb, hkey⟩ := List.mem_map.mp hk
      refine List.mem_map.mpr ⟨b, List.mem_filter.mpr ⟨hb, ?_⟩, hkey⟩
      show (!g (key b)) = true
      rw [hkey, h]
      rfl
  unfold insert
  by_cases hk : key a ∈ t.rows.map key
  · rw [dif_pos hk, dif_pos (hmem.mpr hk)]
    rfl
  · rw [dif_neg hk, dif_neg fun h' => hk (hmem.mp h'), Option.map_some]
    unfold delete
    congr 2
    simp [List.filter_append, h]

end Relational.Table
