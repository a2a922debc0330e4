import Mathlib.Data.List.Nodup

/-!
# Relational — insertions that are absorbed

`INSERT .. ON CONFLICT (key) DO NOTHING`: a row is added unless one with its key is there (**`addMissing`**).  Rows may be added in part and in any order, and added again (**`Absorbs.perm`**): if a key determines its row, what is there in the end does not depend on it.
-/

namespace Relational

variable {α κ : Type} [DecidableEq κ] {key : α → κ} {rows as : List α} {a : α}

/-- Add the row, unless one with its key is there. -/
def addMissing (key : α → κ) (rows : List α) (a : α) : List α :=
  if key a ∈ rows.map key then rows else rows ++ [a]

/-- Add rows, one after the other. -/
def addAll (key : α → κ) (rows as : List α) : List α := as.foldl (addMissing key) rows

theorem addMissing_keeps {k : κ} (h : k ∈ rows.map key) : k ∈ (addMissing key rows a).map key := by
  unfold addMissing
  split
  · exact h
  · rw [List.map_append]
    exact List.mem_append_left _ h

theorem key_mem_addMissing : key a ∈ (addMissing key rows a).map key := by
  unfold addMissing
  split
  · assumption
  · simp

theorem addAll_keeps {k : κ} (h : k ∈ rows.map key) : k ∈ (addAll key rows as).map key := by
  induction as generalizing rows with
  | nil => exact h
  | cons a as ih => exact ih (addMissing_keeps h)

theorem key_mem_addAll (ha : a ∈ as) : key a ∈ (addAll key rows as).map key := by
  induction as generalizing rows with
  | nil => exact absurd ha List.not_mem_nil
  | cons b as ih =>
      rcases List.mem_cons.mp ha with rfl | ha
      · change key a ∈ (addAll key (addMissing key rows a) as).map key
        exact addAll_keeps key_mem_addMissing
      · exact ih ha

/-- `rows'` is `rows` with rows among `P` added, each under a key of its own that was not there. -/
def Absorbs (key : α → κ) (P : α → Prop) (rows rows' : List α) : Prop :=
  ∃ added, rows' = rows ++ added ∧ (added.map key).Nodup ∧
    ∀ a ∈ added, P a ∧ key a ∉ rows.map key

namespace Absorbs

variable {P : α → Prop} {rows' rows'' : List α}

omit [DecidableEq κ] in
theorem refl (rows : List α) : Absorbs key P rows rows :=
  ⟨[], by simp, by simp, by simp⟩

omit [DecidableEq κ] in
theorem trans (h : Absorbs key P rows rows') (h' : Absorbs key P rows' rows'') :
    Absorbs key P rows rows'' := by
  obtain ⟨as, rfl, hnodup, has⟩ := h
  obtain ⟨bs, rfl, hnodup', hbs⟩ := h'
  refine ⟨as ++ bs, by simp, ?_, fun a ha => ?_⟩
  · rw [List.map_append]
    refine List.nodup_append.mpr ⟨hnodup, hnodup', fun k hk k' hk' hkk => ?_⟩
    obtain ⟨b, hb, rfl⟩ := List.mem_map.mp hk'
    refine (hbs b hb).2 ?_
    rw [List.map_append]
    exact List.mem_append_right _ (hkk ▸ hk)
  · rcases List.mem_append.mp ha with ha | ha
    · exact has a ha
    · refine ⟨(hbs a ha).1, fun hmem => (hbs a ha).2 ?_⟩
      rw [List.map_append]
      exact List.mem_append_left _ hmem

omit [DecidableEq κ] in
theorem mono {Q : α → Prop} (h : Absorbs key P rows rows') (hPQ : ∀ a, P a → Q a) :
    Absorbs key Q rows rows' :=
  h.imp fun _ ⟨hrows, hnodup, hadded⟩ =>
    ⟨hrows, hnodup, fun a ha => ⟨hPQ a (hadded a ha).1, (hadded a ha).2⟩⟩

theorem addMissing (ha : P a) : Absorbs key P rows (addMissing key rows a) := by
  unfold Relational.addMissing
  split
  · exact .refl rows
  · rename_i hnew
    exact ⟨[a], rfl, by simp, by simpa using ⟨ha, by simpa using hnew⟩⟩

theorem addAll (h : ∀ a ∈ as, P a) : Absorbs key P rows (addAll key rows as) := by
  induction as generalizing rows with
  | nil => exact .refl rows
  | cons a as ih =>
      exact (Absorbs.addMissing (h a List.mem_cons_self)).trans
        (ih fun b hb => h b (List.mem_cons_of_mem _ hb))

omit [DecidableEq κ] in
/-- **Whatever comes first, the same is there in the end**, if a key determines its row and every
key is there. -/
theorem perm (h : Absorbs key P rows rows') (h' : Absorbs key P rows rows'')
    (hkey : ∀ a b, P a → P b → key a = key b → a = b) (hall : ∀ a, P a → key a ∈ rows'.map key)
    (hall' : ∀ a, P a → key a ∈ rows''.map key) : rows'.Perm rows'' := by
  have sub {as bs : List α} (has : ∀ a ∈ as, P a ∧ key a ∉ rows.map key)
      (hbs : ∀ a ∈ bs, P a ∧ key a ∉ rows.map key)
      (hall : ∀ a, P a → key a ∈ (rows ++ bs).map key) : ∀ a ∈ as, a ∈ bs := by
    intro a ha
    obtain ⟨hP, hnew⟩ := has a ha
    obtain ⟨b, hb, hk⟩ := List.mem_map.mp (hall a hP)
    rcases List.mem_append.mp hb with hold | hb
    · exact absurd (hk ▸ List.mem_map_of_mem hold) hnew
    · obtain rfl := hkey b a (hbs b hb).1 hP hk
      exact hb
  obtain ⟨as, rfl, hnodup, has⟩ := h
  obtain ⟨bs, rfl, hnodup', hbs⟩ := h'
  refine List.Perm.append_left rows ((List.perm_ext_iff_of_nodup (.of_map key hnodup)
    (.of_map key hnodup')).mpr fun a => ⟨sub has hbs hall' a, sub hbs has hall a⟩)

end Absorbs

end Relational
