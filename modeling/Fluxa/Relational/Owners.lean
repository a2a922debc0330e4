import Fluxa.Relational.Table

/-!
# Relational — the rows of one owner

What a table looks like to the owner of some of its rows (**`only`**, **`of`**).  An operation on the rows of the owner does there what it does on the whole table, and one on rows of others does nothing (**`ChangedBy`**).  The exception is the primary key: a new row may have the key of a row that its owner does not see, so keys must tell owners apart (**`Labelled`**).
-/

namespace Relational.Table

variable {α κ : Type} {key : α → κ} {t t' : Table α key} {p q : α → Bool} {f : α → α}
  {hf : KeepsKey key f} {a : α} {as : List α} {k : κ}

/-- The rows that satisfy `p`. -/
def only (t : Table α key) (p : α → Bool) : Table α key where
  rows := t.rows.filter p
  nodup := t.nodup.sublist (List.filter_sublist.map key)

theorem mem_only : a ∈ t.only p ↔ a ∈ t ∧ p a = true := List.mem_filter

theorem only_congr (h : ∀ a ∈ t, p a = q a) : t.only p = t.only q := by
  unfold only
  congr 1
  exact List.filter_congr h

/-! ### Queries -/

theorem select_only (h : ∀ a ∈ t, q a = true → p a = true) : (t.only p).select q = t.select q := by
  unfold select only
  rw [List.filter_filter]
  refine List.filter_congr fun a ha => ?_
  cases hq : q a with
  | false => rfl
  | true => rw [h a ha hq, Bool.and_true]

theorem count_only (h : ∀ a ∈ t, q a = true → p a = true) : (t.only p).count q = t.count q :=
  congrArg List.length (select_only h)

theorem any_only (h : ∀ a ∈ t, q a = true → p a = true) : (t.only p).any q = t.any q := by
  rw [Bool.eq_iff_iff, any_eq_true, any_eq_true]
  constructor
  · rintro ⟨a, ha, hq⟩
    exact ⟨a, (mem_only.mp ha).1, hq⟩
  · rintro ⟨a, ha, hq⟩
    exact ⟨a, mem_only.mpr ⟨ha, h a ha hq⟩, hq⟩

/-! ### Changes and deletions -/

theorem update_only (h : ∀ a ∈ t, q a = true → p (f a) = p a) :
    (t.only p).update q f hf = (t.update q f hf).only p := by
  unfold update only
  congr 1
  rw [List.filter_map]
  congr 1
  refine List.filter_congr fun a ha => ?_
  simp only [Function.comp_apply]
  split
  · rename_i hq
    exact (h a ha hq).symm
  · rfl

theorem only_update_other (h : ∀ a ∈ t, q a = true → p a = false ∧ p (f a) = false) :
    (t.update q f hf).only p = t.only p := by
  rw [← update_only fun a ha hq => (h a ha hq).2.trans (h a ha hq).1.symm]
  unfold update only
  congr 1
  refine (List.map_congr_left fun a ha => ?_).trans (List.map_id _)
  obtain ⟨ha, hp⟩ := List.mem_filter.mp ha
  have hq : ¬ q a = true := fun hq => by
    rw [(h a ha hq).1] at hp
    cases hp
  exact if_neg hq

theorem delete_only : (t.only p).delete q = (t.delete q).only p := by
  unfold delete only
  congr 1
  rw [List.filter_filter, List.filter_filter]
  exact List.filter_congr fun a _ => Bool.and_comm _ _

theorem only_delete_other (h : ∀ a ∈ t, q a = true → p a = false) :
    (t.delete q).only p = t.only p := by
  unfold delete only
  congr 1
  rw [List.filter_filter]
  refine List.filter_congr fun a ha => ?_
  cases hq : q a with
  | false => rw [Bool.not_false, Bool.and_true]
  | true => rw [h a ha hq, Bool.false_and]

/-! ### Keys -/

variable [DecidableEq κ]

theorem find?_only : (t.only p).find? k = (t.find? k).filter p := by
  cases h : t.find? k with
  | none =>
      rw [find?_eq_none] at h
      rw [Option.filter_none, find?_eq_none]
      exact fun a ha => h a (mem_only.mp ha).1
  | some a =>
      obtain ⟨ha, hk⟩ := find?_eq_some.mp h
      cases hp : p a with
      | true =>
          rw [Option.filter_some_pos hp, find?_eq_some]
          exact ⟨mem_only.mpr ⟨ha, hp⟩, hk⟩
      | false =>
          rw [Option.filter_some_neg (by simp [hp]), find?_eq_none]
          intro b hb hkb
          obtain ⟨hb, hpb⟩ := mem_only.mp hb
          rw [eq_of_key hb ha (hkb.trans hk.symm), hp] at hpb
          cases hpb

/-- A row found with a condition that only rows of the owner satisfy. -/
theorem find?_only_filter (h : ∀ a ∈ t, q a = true → p a = true) :
    ((t.only p).find? k).filter q = (t.find? k).filter q := by
  rw [find?_only]
  cases hk : t.find? k with
  | none => rfl
  | some a =>
      have ha := (find?_eq_some.mp hk).1
      cases hq : q a with
      | false =>
          cases hp : p a with
          | false => rw [Option.filter_some_neg (by simp [hp]), Option.filter_some_neg (by simp [hq])]; rfl
          | true => rw [Option.filter_some_pos hp]
      | true => rw [Option.filter_some_pos (h a ha hq)]

theorem insert_only (hp : p a = true) (hk : ∀ b ∈ t, key b = key a → p b = true) :
    (t.only p).insert a = (t.insert a).map fun t' => t'.only p := by
  cases h : t.insert a with
  | none =>
      obtain ⟨b, hb, hkb⟩ := insert_eq_none h
      cases h' : (t.only p).insert a with
      | none => rfl
      | some t' =>
          exact absurd hkb ((insert_eq_some h').1 b (mem_only.mpr ⟨hb, hk b hb hkb⟩))
  | some t' =>
      obtain ⟨t₁, h₁⟩ := insert_of_fresh (t := t.only p) (a := a) fun b hb =>
        (insert_eq_some h).1 b (mem_only.mp hb).1
      have hrows : t₁.rows = (t'.only p).rows := by
        rw [rows_insert h₁]
        show _ = t'.rows.filter p
        rw [rows_insert h, List.filter_append, List.filter_cons_of_pos hp]
        rfl
      rw [h₁, Option.map_some]
      cases t₁
      cases hrows
      rfl

omit [DecidableEq κ] in
theorem only_append_other (hrows : t'.rows = t.rows ++ as) (hp : ∀ a ∈ as, p a = false) :
    t'.only p = t.only p := by
  unfold only
  congr 1
  have hnone : as.filter p = [] := List.filter_eq_nil_iff.mpr fun a ha => by simp [hp a ha]
  rw [hrows, List.filter_append, hnone, List.append_nil]

theorem insertAll_only (hp : ∀ a ∈ as, p a = true)
    (hk : ∀ a ∈ as, ∀ b ∈ t, key b = key a → p b = true) :
    (t.only p).insertAll as = (t.insertAll as).map fun t' => t'.only p := by
  induction as generalizing t with
  | nil => rfl
  | cons a as ih =>
      rw [insertAll, insertAll, insert_only (hp a List.mem_cons_self) (hk a List.mem_cons_self)]
      cases h : t.insert a with
      | none => rfl
      | some t₁ =>
          rw [Option.map_some, Option.bind_some, Option.bind_some]
          refine ih (fun b hb => hp b (List.mem_cons_of_mem _ hb)) fun b hb c hc hkc => ?_
          rcases ((insert_eq_some h).2 c).mp hc with hc | rfl
          · exact hk b (List.mem_cons_of_mem _ hb) c hc hkc
          · exact hp _ List.mem_cons_self

/-! ### Owners -/

section Owners

variable {τ : Type} [DecidableEq τ] {ownerOf : α → Option τ} {owner : κ → Option τ} {b : τ}

omit [DecidableEq κ]

/-- The rows of `b`. -/
def of (ownerOf : α → Option τ) (t : Table α key) (b : τ) : Table α key :=
  t.only fun a => ownerOf a = some b

omit [DecidableEq τ] in
/-- The key of a row names its owner. -/
def Labelled (owner : κ → Option τ) (ownerOf : α → Option τ) (t : Table α key) : Prop :=
  ∀ a ∈ t, owner (key a) = ownerOf a

/-- The owner `b` has taken the table from `t` to `t'`, and what it sees of it to `u'`: the rows of
others are what they were. -/
structure ChangedBy (ownerOf : α → Option τ) (b : τ) (t t' u' : Table α key) : Prop where
  own : u' = t'.of ownerOf b
  others : ∀ b', b' ≠ b → t'.of ownerOf b' = t.of ownerOf b'

/-- What belongs to one owner does not belong to another. -/
theorem not_owned_of_ne {b' : τ} (h : ownerOf a = some b) (hb : b' ≠ b) :
    decide (ownerOf a = some b') = false := by
  rw [h, decide_eq_false_iff_not]
  exact fun he => hb (Option.some.inj he).symm

theorem changedBy_update (hq : ∀ a ∈ t, q a = true → ownerOf a = some b)
    (hown : ∀ a, ownerOf (f a) = ownerOf a) :
    ChangedBy ownerOf b t (t.update q f hf) ((t.of ownerOf b).update q f hf) where
  own := update_only fun a _ _ => by rw [hown]
  others _ hb := only_update_other fun a ha hqa =>
    ⟨not_owned_of_ne (hq a ha hqa) hb, not_owned_of_ne ((hown a).trans (hq a ha hqa)) hb⟩

theorem changedBy_delete (hq : ∀ a ∈ t, q a = true → ownerOf a = some b) :
    ChangedBy ownerOf b t (t.delete q) ((t.of ownerOf b).delete q) where
  own := delete_only
  others _ hb := only_delete_other fun a ha hqa => not_owned_of_ne (hq a ha hqa) hb

theorem changedBy_append (hrows : t'.rows = t.rows ++ as) (has : ∀ a ∈ as, ownerOf a = some b) :
    ChangedBy ownerOf b t t' (t'.of ownerOf b) where
  own := rfl
  others _ hb := only_append_other hrows fun a ha => not_owned_of_ne (has a ha) hb

omit [DecidableEq τ] in
theorem Labelled.update (h : t.Labelled owner ownerOf) (hown : ∀ a, ownerOf (f a) = ownerOf a) :
    (t.update q f hf).Labelled owner ownerOf := by
  intro a ha
  obtain ⟨a₀, ha₀, rfl⟩ := mem_update.mp ha
  split
  · rw [hf.key_eq, hown, h a₀ ha₀]
  · exact h a₀ ha₀

omit [DecidableEq τ] in
theorem Labelled.delete (h : t.Labelled owner ownerOf) : (t.delete q).Labelled owner ownerOf :=
  fun a ha => h a (mem_delete.mp ha).1

omit [DecidableEq τ] in
theorem Labelled.append (h : t.Labelled owner ownerOf) (hrows : t'.rows = t.rows ++ as)
    (has : ∀ a ∈ as, owner (key a) = ownerOf a) : t'.Labelled owner ownerOf := by
  intro a ha
  have hmem : a ∈ t.rows ++ as := hrows ▸ ha
  exact (List.mem_append.mp hmem).elim (h a) (has a)

omit [DecidableEq τ] in
/-- A row under a key of `b` is one of `b`. -/
theorem Labelled.owned (h : t.Labelled owner ownerOf) (ha : a ∈ t) (hk : owner (key a) = some b) :
    ownerOf a = some b :=
  (h a ha).symm.trans hk

end Owners

/-! ### New rows of an owner -/

section Insert

variable {τ : Type} [DecidableEq τ] {ownerOf : α → Option τ} {owner : κ → Option τ} {b : τ}

/-- A row of `b` under a key of `b` can be inserted in the whole table exactly when it can in what
`b` sees. -/
theorem insert_of (h : t.Labelled owner ownerOf) (ha : ownerOf a = some b)
    (hk : owner (key a) = some b) :
    (t.of ownerOf b).insert a = (t.insert a).map fun t' => t'.of ownerOf b :=
  insert_only (decide_eq_true ha) fun c hc hkc => by
    rw [decide_eq_true_eq, h.owned hc (hkc ▸ hk)]

theorem insertAll_of (h : t.Labelled owner ownerOf) (has : ∀ a ∈ as, ownerOf a = some b)
    (hks : ∀ a ∈ as, owner (key a) = some b) :
    (t.of ownerOf b).insertAll as = (t.insertAll as).map fun t' => t'.of ownerOf b :=
  insertAll_only (fun a ha => decide_eq_true (has a ha)) fun a ha c hc hkc => by
    rw [decide_eq_true_eq, h.owned hc (hkc ▸ hks a ha)]

theorem changedBy_insert (h : t.insert a = some t') (ha : ownerOf a = some b) :
    ChangedBy ownerOf b t t' (t'.of ownerOf b) :=
  changedBy_append (rows_insert h) fun _ hc => List.mem_singleton.mp hc ▸ ha

theorem changedBy_insertAll (h : t.insertAll as = some t') (has : ∀ a ∈ as, ownerOf a = some b) :
    ChangedBy ownerOf b t t' (t'.of ownerOf b) :=
  changedBy_append (rows_insertAll h) has

omit [DecidableEq τ] in
theorem Labelled.insert (hl : t.Labelled owner ownerOf) (h : t.insert a = some t')
    (ha : ownerOf a = some b) (hk : owner (key a) = some b) : t'.Labelled owner ownerOf :=
  hl.append (rows_insert h) fun _ hc => List.mem_singleton.mp hc ▸ hk.trans ha.symm

omit [DecidableEq τ] in
theorem Labelled.insertAll (hl : t.Labelled owner ownerOf) (h : t.insertAll as = some t')
    (has : ∀ a ∈ as, ownerOf a = some b) (hks : ∀ a ∈ as, owner (key a) = some b) :
    t'.Labelled owner ownerOf :=
  hl.append (rows_insertAll h) fun a ha => (hks a ha).trans (has a ha).symm

/-- A row found under a key of `b` is found by `b`. -/
theorem find?_of (h : t.Labelled owner ownerOf) (hk : owner k = some b) :
    (t.of ownerOf b).find? k = t.find? k := by
  rw [of, find?_only]
  cases hf : t.find? k with
  | none => rfl
  | some a =>
      obtain ⟨ha, rfl⟩ := find?_eq_some.mp hf
      exact Option.filter_some_pos (decide_eq_true (h.owned ha hk))

/-- A row found under a condition that only rows of `b` satisfy. -/
theorem filter_find?_of (hq : ∀ a ∈ t, q a = true → ownerOf a = some b) :
    ((t.of ownerOf b).find? k).filter q = (t.find? k).filter q :=
  find?_only_filter fun a ha hqa => decide_eq_true (hq a ha hqa)

omit [DecidableEq κ] in
theorem select_of (hq : ∀ a ∈ t, q a = true → ownerOf a = some b) :
    (t.of ownerOf b).select q = t.select q :=
  select_only fun a ha hqa => decide_eq_true (hq a ha hqa)

omit [DecidableEq κ] in
theorem count_of (hq : ∀ a ∈ t, q a = true → ownerOf a = some b) :
    (t.of ownerOf b).count q = t.count q :=
  count_only fun a ha hqa => decide_eq_true (hq a ha hqa)

omit [DecidableEq κ] in
theorem any_of (hq : ∀ a ∈ t, q a = true → ownerOf a = some b) :
    (t.of ownerOf b).any q = t.any q :=
  any_only fun a ha hqa => decide_eq_true (hq a ha hqa)

end Insert

end Relational.Table
