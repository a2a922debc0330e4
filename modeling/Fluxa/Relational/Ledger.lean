import Fluxa.Relational.Deletion

/-!
# Relational — ledgers

A ledger is a list of entries, each about one subject or about none.  Told in their order, the entries about a subject say what it has become; a ledger **tells** a view of the subjects when it says of each what the view shows.

**`Ledger.Tells.append`**: entries about different subjects, each of which takes what is said of its subject to what the view comes to show of it, keep the ledger telling the view.
-/

namespace Relational

namespace Table

variable {α κ β : Type} {key : α → κ} {T T' : Table α key} {r : α} {p q : α → Bool} {g : α → β}

/-- The inserted row comes last among those that satisfy `q`. -/
theorem select_insert [DecidableEq κ] (h : T.insert r = some T') :
    T'.select q = T.select q ++ if q r then [r] else [] := by
  rw [select, rows_insert h, List.filter_append, select]
  congr 1
  cases hq : q r with
  | true => exact List.filter_cons_of_pos hq
  | false => exact List.filter_cons_of_neg (by simp [hq])

/-- One row is deleted, and what is kept has another key. -/
theorem map_select_delete {keep : β → Bool} (hkey : ∀ a, p a = true → key a = key r)
    (hp : p r = true) (hr : r ∈ T) (hkeep : ∀ a, keep (g a) = true ↔ key a ≠ key r) :
    ((T.delete p).select q).map g = ((T.select q).map g).filter keep := by
  rw [select, select, delete, List.filter_map, List.filter_comm]
  refine congrArg (List.map g) (List.filter_congr fun a ha => ?_)
  by_cases hid : key a = key r
  · obtain rfl := eq_of_key (List.mem_filter.mp ha).1 hr hid
    have hk : keep (g a) = false := by
      rw [← Bool.not_eq_true, hkeep]
      exact not_not.mpr rfl
    simp [hp, hk]
  · have hp' : p a = false := by
      rw [← Bool.not_eq_true]
      exact fun hpa => hid (hkey a hpa)
    simp [hp', (hkeep a).mpr hid]

end Table

/-- How a ledger is read: whom an entry is about, and what it makes of what is said of that
subject. -/
structure Ledger (E κ V : Type) where
  about : E → Option κ
  tell : Option V → E → Option V

namespace Ledger

variable {E κ V : Type} [DecidableEq κ] {R : Ledger E κ V} {log entries : List E} {e : E} {k : κ}
  {v : V} {view view' : κ → Option V}

/-- What the ledger says of a subject. -/
def said (R : Ledger E κ V) (log : List E) (k : κ) : Option V :=
  (log.filter fun e => R.about e = some k).foldl R.tell none

/-- The ledger says of every subject what the view shows of it. -/
def Tells (R : Ledger E κ V) (log : List E) (view : κ → Option V) : Prop :=
  ∀ k v, view k = some v → R.said log k = some v

/-- Entries about others say nothing of a subject. -/
theorem said_append_other (h : ∀ e ∈ entries, R.about e ≠ some k) :
    R.said (log ++ entries) k = R.said log k := by
  have hnone : (entries.filter fun e => R.about e = some k) = [] :=
    List.filter_eq_nil_iff.mpr fun e he => by simpa using h e he
  rw [said, List.filter_append, hnone, List.append_nil, said]

/-- One entry about the subject, and any number about others. -/
theorem said_append_one (hnodup : (entries.map R.about).Nodup) (he : e ∈ entries)
    (hk : R.about e = some k) : R.said (log ++ entries) k = R.tell (R.said log k) e := by
  obtain ⟨pre, post, rfl⟩ := List.append_of_mem he
  rw [List.map_append, List.map_cons, List.nodup_append] at hnodup
  obtain ⟨-, hpost, hpre⟩ := hnodup
  have hbefore : ∀ e' ∈ pre, R.about e' ≠ some k := fun e' he' hk' =>
    hpre _ (List.mem_map_of_mem he') _ List.mem_cons_self (hk'.trans hk.symm)
  have hafter : ∀ e' ∈ post, R.about e' ≠ some k := fun e' he' hk' =>
    (List.nodup_cons.mp hpost).1 (hk.trans hk'.symm ▸ List.mem_map_of_mem he')
  have hsplit : log ++ (pre ++ e :: post) = log ++ pre ++ [e] ++ post := by
    rw [List.append_assoc, List.append_assoc, List.singleton_append]
  rw [hsplit, said_append_other hafter, said, List.filter_append, List.foldl_append, ← said,
    said_append_other hbefore, List.filter_singleton, decide_eq_true hk, cond_true, List.foldl_cons,
    List.foldl_nil]

/-- Entries that say nothing new. -/
theorem said_append_silent (h : ∀ e ∈ entries, ∀ w, R.tell w e = w) :
    R.said (log ++ entries) k = R.said log k := by
  have hfold : ∀ (es : List E) w, (∀ e ∈ es, ∀ w, R.tell w e = w) → es.foldl R.tell w = w := by
    intro es
    induction es with
    | nil => exact fun _ _ => rfl
    | cons e es ih =>
        intro w hes
        rw [List.foldl_cons, hes e List.mem_cons_self]
        exact ih w fun e' he' => hes e' (List.mem_cons_of_mem _ he')
  rw [said, List.filter_append, List.foldl_append, ← said]
  exact hfold _ _ fun e he => h e (List.mem_filter.mp he).1

theorem Tells.congr (h : R.Tells log view) (heq : ∀ k v, view' k = some v → view k = some v) :
    R.Tells log view' := fun k v hv => h k v (heq k v hv)

theorem Tells.silent (h : R.Tells log view) (hs : ∀ e ∈ entries, ∀ w, R.tell w e = w) :
    R.Tells (log ++ entries) view := fun k v hv => by rw [said_append_silent hs, h k v hv]

/-- **Telling on.** -/
theorem Tells.append (h : R.Tells log view) (hnodup : (entries.map R.about).Nodup)
    (hother : ∀ k v, (∀ e ∈ entries, R.about e ≠ some k) → view' k = some v → view k = some v)
    (heach : ∀ e ∈ entries, ∀ k v, R.about e = some k → view' k = some v →
      ∀ w, (∀ u, view k = some u → w = some u) → R.tell w e = some v) :
    R.Tells (log ++ entries) view' := by
  intro k v hv
  by_cases hk : ∃ e ∈ entries, R.about e = some k
  · obtain ⟨e, he, hek⟩ := hk
    rw [said_append_one hnodup he hek]
    exact heach e he k v hek hv _ fun u hu => h k u hu
  · have hk : ∀ e ∈ entries, R.about e ≠ some k := fun e he hek => hk ⟨e, he, hek⟩
    rw [said_append_other hk]
    exact h k v (hother k v hk hv)

end Ledger

end Relational
