import Mathlib.Data.List.Nodup
import Mathlib.Data.List.Sort
import Mathlib.Data.List.Pairwise

/-!
# Relational — tables with a primary key

A table is a list of rows no two of which have the same key; the field `nodup` carries the primary key constraint, so a table that breaks it cannot be built.  The operations are the ones a database offers on a single table: `select`, `find?` by key, `insert`, `update` and `delete`.  Each has its membership lemma; beyond that only the order of insertion is used.
-/

namespace Relational

/-- Rows of type `α` under the primary key `key`. -/
structure Table (α : Type) {κ : Type} (key : α → κ) where
  /-- The rows, in the order of their insertion. -/
  rows : List α
  /-- The primary key constraint. -/
  nodup : (rows.map key).Nodup

namespace Table

variable {α κ : Type} {key : α → κ}

/-- The table without rows. -/
def empty : Table α key := ⟨[], List.nodup_nil⟩

instance : Inhabited (Table α key) := ⟨empty⟩

/-- The table with one row. -/
def single (a : α) : Table α key := ⟨[a], List.nodup_singleton _⟩

instance : Membership α (Table α key) := ⟨fun t a => a ∈ t.rows⟩

theorem mem_def {t : Table α key} {a : α} : a ∈ t ↔ a ∈ t.rows := Iff.rfl

@[simp] theorem not_mem_empty {a : α} : ¬ a ∈ (empty : Table α key) := by
  simp [mem_def, empty]

/-- Two rows with one key are one row. -/
theorem eq_of_key {t : Table α key} {a b : α} (ha : a ∈ t) (hb : b ∈ t)
    (h : key a = key b) : a = b :=
  List.inj_on_of_nodup_map t.nodup ha hb h

/-- The rows that satisfy `p`. -/
def select (t : Table α key) (p : α → Bool) : List α := t.rows.filter p

@[simp] theorem mem_select {t : Table α key} {p : α → Bool} {a : α} :
    a ∈ t.select p ↔ a ∈ t ∧ p a = true := by
  simp [select, mem_def]

/-- How many rows satisfy `p`. -/
def count (t : Table α key) (p : α → Bool) : Nat := (t.select p).length

/-- Some row satisfies `p`. -/
def any (t : Table α key) (p : α → Bool) : Bool := t.rows.any p

@[simp] theorem any_eq_true {t : Table α key} {p : α → Bool} :
    t.any p = true ↔ ∃ a ∈ t, p a = true := by
  simp [any, mem_def]

theorem count_pos {t : Table α key} {p : α → Bool} : 0 < t.count p ↔ ∃ a ∈ t, p a = true := by
  simp [count, List.length_pos_iff_exists_mem]

/-- Among at least two rows that satisfy `p`, one has another key than `k`. -/
theorem exists_key_ne_of_one_lt_count {t : Table α key} {p : α → Bool} (h : 1 < t.count p)
    (k : κ) : ∃ a ∈ t, p a = true ∧ key a ≠ k := by
  have hn : ((t.select p).map key).Nodup := t.nodup.sublist (List.filter_sublist.map key)
  rcases hl : t.select p with _ | ⟨a, _ | ⟨b, l⟩⟩
  · simp [count, hl] at h
  · simp [count, hl] at h
  · have ha : a ∈ t ∧ p a = true := mem_select.mp (by rw [hl]; simp)
    have hb : b ∈ t ∧ p b = true := mem_select.mp (by rw [hl]; simp)
    have hne : key a ≠ key b := by
      rw [hl] at hn
      simp only [List.map_cons, List.nodup_cons, List.mem_cons, not_or] at hn
      exact hn.1.1
    by_cases e : key a = k
    · exact ⟨b, hb.1, hb.2, fun h' => hne (e.trans h'.symm)⟩
    · exact ⟨a, ha.1, ha.2, e⟩

/-- The change `f` of rows leaves keys alone. -/
structure KeepsKey (key : α → κ) (f : α → α) : Prop where
  key_eq : ∀ a, key (f a) = key a

/-- Change the rows that satisfy `p` by `f`, which leaves keys alone. -/
def update (t : Table α key) (p : α → Bool) (f : α → α)
    (hf : KeepsKey key f := by exact ⟨fun _ => rfl⟩) : Table α key where
  rows := t.rows.map fun a => if p a then f a else a
  nodup := by
    have : (t.rows.map fun a => if p a then f a else a).map key = t.rows.map key := by
      rw [List.map_map]
      refine List.map_congr_left fun a _ => ?_
      simp only [Function.comp_apply]
      split
      · exact hf.key_eq a
      · rfl
    exact this ▸ t.nodup

theorem mem_update {t : Table α key} {p : α → Bool} {f : α → α} {hf : KeepsKey key f} {b : α} :
    b ∈ t.update p f hf ↔ ∃ a ∈ t, b = if p a then f a else a := by
  simp only [mem_def, update, List.mem_map, eq_comm]

/-- A row that does not satisfy `p` is left alone. -/
theorem mem_update_of_false {t : Table α key} {p : α → Bool} {f : α → α} {a : α} (ha : a ∈ t)
    (hp : p a = false) (hf : KeepsKey key f := by exact ⟨fun _ => rfl⟩) : a ∈ t.update p f hf :=
  mem_update.mpr ⟨a, ha, by simp [hp]⟩

/-- A row that satisfies `p` is changed. -/
theorem mem_update_of_true {t : Table α key} {p : α → Bool} {f : α → α} {a : α} (ha : a ∈ t)
    (hp : p a = true) (hf : KeepsKey key f := by exact ⟨fun _ => rfl⟩) : f a ∈ t.update p f hf :=
  mem_update.mpr ⟨a, ha, by simp [hp]⟩

/-- No key is lost by an update. -/
theorem exists_mem_update {t : Table α key} {a : α} (ha : a ∈ t) (p : α → Bool) (f : α → α)
    (hf : KeepsKey key f) : ∃ b ∈ t.update p f hf, key b = key a := by
  refine ⟨_, mem_update.mpr ⟨a, ha, rfl⟩, ?_⟩
  split
  · exact hf.key_eq a
  · rfl

/-- Drop the rows that satisfy `p`. -/
def delete (t : Table α key) (p : α → Bool) : Table α key where
  rows := t.rows.filter fun a => !p a
  nodup := t.nodup.sublist (List.filter_sublist.map key)

@[simp] theorem mem_delete {t : Table α key} {p : α → Bool} {a : α} :
    a ∈ t.delete p ↔ a ∈ t ∧ p a = false := by
  simp [delete, mem_def]

theorem delete_eq_self {t : Table α key} {p : α → Bool} (h : ∀ a ∈ t, p a = false) :
    t.delete p = t := by
  have hrows : (t.rows.filter fun a => !p a) = t.rows :=
    List.filter_eq_self.mpr fun a ha => by rw [h a ha]; rfl
  cases t
  simp only [delete, hrows]

variable [DecidableEq κ]

/-- The row under the key `k`. -/
def find? (t : Table α key) (k : κ) : Option α := t.rows.find? fun a => key a = k

theorem find?_eq_some {t : Table α key} {k : κ} {a : α} :
    t.find? k = some a ↔ a ∈ t ∧ key a = k := by
  constructor
  · intro h
    exact ⟨List.mem_of_find?_eq_some h, by simpa using List.find?_some h⟩
  · rintro ⟨ha, hk⟩
    rcases hf : t.find? k with _ | b
    · have := List.find?_eq_none.mp hf a ha
      simp [hk] at this
    · have hb : b ∈ t := List.mem_of_find?_eq_some hf
      have hkb : key b = k := by simpa using List.find?_some hf
      rw [eq_of_key hb ha (hkb.trans hk.symm)]

theorem find?_eq_none {t : Table α key} {k : κ} :
    t.find? k = none ↔ ∀ a ∈ t, key a ≠ k := by
  simp [find?, List.find?_eq_none, mem_def]

theorem find?_update {t : Table α key} {p : α → Bool} {f : α → α} {hf : KeepsKey key f} {k : κ} :
    (t.update p f hf).find? k = (t.find? k).map fun a => if p a then f a else a := by
  have hkey : ∀ a, (key (if p a then f a else a) = k) = (key a = k) := fun a => by
    split
    · rw [hf.key_eq]
    · rfl
  unfold find? update
  rw [List.find?_map]
  congr 2
  funext a
  simp only [Function.comp_apply, hkey]

theorem find?_delete {t : Table α key} {p : α → Bool} {k : κ} :
    (t.delete p).find? k = (t.find? k).filter fun a => !p a := by
  cases h : t.find? k with
  | none =>
      rw [find?_eq_none] at h
      rw [Option.filter_none, find?_eq_none]
      exact fun a ha => h a (mem_delete.mp ha).1
  | some a =>
      obtain ⟨ha, hk⟩ := find?_eq_some.mp h
      cases hp : p a with
      | false =>
          rw [Option.filter_some_pos (by simp [hp]), find?_eq_some]
          exact ⟨mem_delete.mpr ⟨ha, hp⟩, hk⟩
      | true =>
          rw [Option.filter_some_neg (by simp [hp]), find?_eq_none]
          intro b hb hkb
          obtain ⟨hb, hpb⟩ := mem_delete.mp hb
          rw [eq_of_key hb ha (hkb.trans hk.symm), hp] at hpb
          cases hpb

/-- Add a row whose key is new; none when a row has its key. -/
def insert (t : Table α key) (a : α) : Option (Table α key) :=
  if h : key a ∈ t.rows.map key then none
  else some ⟨t.rows ++ [a], by
    rw [List.map_append, List.nodup_append]
    refine ⟨t.nodup, List.nodup_singleton _, ?_⟩
    rintro x hx y hy rfl
    rw [List.map_singleton, List.mem_singleton] at hy
    exact h (hy ▸ hx)⟩

theorem insert_eq_some {t t' : Table α key} {a : α} (h : t.insert a = some t') :
    (∀ b ∈ t, key b ≠ key a) ∧ ∀ b, b ∈ t' ↔ b ∈ t ∨ b = a := by
  unfold insert at h
  split at h
  · cases h
  · rename_i hk
    cases h
    refine ⟨fun b hb e => hk (e ▸ List.mem_map_of_mem hb), fun b => ?_⟩
    simp [mem_def]

/-- A new row comes last. -/
theorem rows_insert {t t' : Table α key} {a : α} (h : t.insert a = some t') :
    t'.rows = t.rows ++ [a] := by
  unfold insert at h
  split at h
  · cases h
  · cases h
    rfl

theorem find?_insert {t t' : Table α key} {a : α} (h : t.insert a = some t') (k : κ) :
    t'.find? k = if key a = k then some a else t.find? k := by
  obtain ⟨hnew, hmem⟩ := insert_eq_some h
  split
  · rename_i hk
    exact find?_eq_some.mpr ⟨(hmem a).mpr (.inr rfl), hk⟩
  · rename_i hk
    cases hf : t.find? k with
    | none =>
        rw [find?_eq_none] at hf ⊢
        intro b hb
        rcases (hmem b).mp hb with hb | rfl
        · exact hf b hb
        · exact hk
    | some b =>
        obtain ⟨hb, hkb⟩ := find?_eq_some.mp hf
        exact find?_eq_some.mpr ⟨(hmem b).mpr (.inl hb), hkb⟩

theorem insert_of_fresh {t : Table α key} {a : α} (h : ∀ b ∈ t, key b ≠ key a) :
    ∃ t', t.insert a = some t' := by
  have hk : ¬ key a ∈ t.rows.map key := by
    rw [List.mem_map]
    rintro ⟨b, hb, e⟩
    exact h b hb e
  exact ⟨_, dif_neg hk⟩

theorem insert_eq_none {t : Table α key} {a : α} (h : t.insert a = none) :
    ∃ b ∈ t, key b = key a := by
  by_contra hn
  obtain ⟨t', ht'⟩ := insert_of_fresh (t := t) (a := a) fun b hb he => hn ⟨b, hb, he⟩
  rw [h] at ht'
  cases ht'

theorem count_insert {t t' : Table α key} {a : α} (h : t.insert a = some t') (p : α → Bool) :
    t'.count p = t.count p + if p a then 1 else 0 := by
  unfold count select
  rw [rows_insert h, List.filter_append, List.length_append]
  cases hp : p a with
  | false => simp [hp]
  | true => simp [hp]

omit [DecidableEq κ] in
theorem count_delete_le {t : Table α key} {p q : α → Bool} : (t.delete q).count p ≤ t.count p :=
  (List.filter_sublist.filter p).length_le

/-- Add the rows of `as` in turn. -/
def insertAll (t : Table α key) : List α → Option (Table α key)
  | [] => some t
  | a :: as => (t.insert a).bind fun t' => t'.insertAll as

theorem mem_insertAll {t t' : Table α key} {as : List α} (h : t.insertAll as = some t') (b : α) :
    b ∈ t' ↔ b ∈ t ∨ b ∈ as := by
  induction as generalizing t with
  | nil =>
      obtain rfl := Option.some.inj h
      simp
  | cons a as ih =>
      obtain ⟨t₁, h₁, h₂⟩ := Option.bind_eq_some_iff.mp h
      rw [ih h₂, (insert_eq_some h₁).2, List.mem_cons, or_assoc]

theorem insertAll_of_fresh {t : Table α key} {as : List α} (h : (as.map key).Nodup)
    (hnew : ∀ a ∈ as, ∀ b ∈ t, key b ≠ key a) : ∃ t', t.insertAll as = some t' := by
  induction as generalizing t with
  | nil => exact ⟨t, rfl⟩
  | cons a as ih =>
      obtain ⟨hfirst, hrest⟩ := List.nodup_cons.mp h
      obtain ⟨t₁, h₁⟩ := insert_of_fresh (hnew a List.mem_cons_self)
      obtain ⟨t', h'⟩ := ih (t := t₁) hrest fun a' ha' b hb => by
        rcases (((insert_eq_some h₁).2 b).mp hb) with hb | rfl
        · exact hnew a' (List.mem_cons_of_mem _ ha') b hb
        · exact fun heq => hfirst (List.mem_map.mpr ⟨a', ha', heq.symm⟩)
      exact ⟨t', by rw [insertAll, h₁, Option.bind_some, h']⟩

/-- New rows come last. -/
theorem rows_insertAll {t t' : Table α key} {as : List α} (h : t.insertAll as = some t') :
    t'.rows = t.rows ++ as := by
  induction as generalizing t with
  | nil =>
      obtain rfl := Option.some.inj h
      simp
  | cons a as ih =>
      obtain ⟨t₁, h₁, h₂⟩ := Option.bind_eq_some_iff.mp h
      rw [ih h₂, rows_insert h₁, List.append_assoc, List.singleton_append]

/-- The new rows that satisfy `p` are counted besides. -/
theorem count_insertAll {t t' : Table α key} {as : List α} (h : t.insertAll as = some t')
    (p : α → Bool) : t'.count p = t.count p + as.countP p := by
  induction as generalizing t with
  | nil =>
      obtain rfl := Option.some.inj h
      simp
  | cons a as ih =>
      obtain ⟨t₁, h₁, h₂⟩ := Option.bind_eq_some_iff.mp h
      rw [ih h₂, count_insert h₁, List.countP_cons]
      omega

end Table

end Relational
