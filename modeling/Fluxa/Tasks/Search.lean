import Fluxa.Tasks.Pages
import Fluxa.Texts.Patterns

/-!
# Tasks — Short search terms

A search term of one or two characters is looked for with `ILIKE`, between two percent signs and as it is.

**When a short term is a substring** (`short_search_literal`).  The tasks that are found are those with the term in the title or in the description, whatever the tasks, exactly if no character of the term is a percent sign, an underscore or a backslash.
-/

namespace Fluxa
open Db Tasks Like

/-- `ILIKE` on a pattern that begins and ends with a percent sign, which no backslash at the end
makes an error of. -/
def IlikeIsFoldedLike (lib : Libraries) (fold : Char → Char) : Prop :=
  ∀ term text, lib.ilike ("%" ++ term ++ "%") text =
    like ('%' :: term.toList.map fold ++ ['%']) (text.toList.map fold)

/-- The text contains the term, whatever the case. -/
def ContainsFolded (fold : Char → Char) (term text : String) : Prop :=
  term.toList.map fold <:+: text.toList.map fold

/-- The term is in the title or in the description. -/
def TaskContains (fold : Char → Char) (term : String) (t : TaskRecord) : Prop :=
  ContainsFolded fold term t.title ∨ ∃ description ∈ t.description,
    ContainsFolded fold term description

/-- Of the tasks that pass the other filters, the search finds those with the term in them. -/
def SearchesLiterally (app : App) (fold : Char → Char) (query : String) : Prop :=
  ∀ (s : AppState) (tenantId : Uuid) (filters : TaskFilters),
    ∀ t ∈ matching app tenantId { filters with q := none } s,
      t ∈ matching app tenantId { filters with q := some query } s ↔
        TaskContains fold (trim query) t

variable {app : App} {fold : Char → Char} {query : String}

theorem wanted_none {α : Type} (p : α → Bool) : wanted none p = true := rfl

theorem wanted_some {α : Type} (a : α) (p : α → Bool) : wanted (some a) p = p a := rfl

/-- The search condition is the only one that `q` adds. -/
theorem matchesFilters_query {s : AppState} {tenantId : Uuid} {filters : TaskFilters}
    {t : TaskRecord} :
    matchesFilters app s tenantId { filters with q := some query } t =
      (matchesFilters app s tenantId { filters with q := none } t && matchesQuery app query t) := by
  unfold matchesFilters
  simp only [wanted_none, wanted_some]
  rw [Bool.and_true]
  exact Bool.and_right_comm _ _ _

theorem mem_matching_query {s : AppState} {tenantId : Uuid} {filters : TaskFilters} {t : TaskRecord}
    (h : t ∈ matching app tenantId { filters with q := none } s) :
    t ∈ matching app tenantId { filters with q := some query } s ↔
      matchesQuery app query t = true := by
  obtain ⟨hmem, hfilters⟩ := Relational.Table.mem_select.mp h
  rw [matching, Relational.Table.mem_select, matchesFilters_query, hfilters, Bool.true_and]
  exact and_iff_right hmem

theorem matchesQuery_short (hshort : charCount (trim query) < 3) (t : TaskRecord) :
    matchesQuery app query t = (app.lib.ilike ("%" ++ trim query ++ "%") t.title ||
      app.lib.ilike ("%" ++ trim query ++ "%") (t.description.getD "")) := by
  unfold matchesQuery
  dsimp only
  rw [if_neg (by omega)]

/-- An absent description contains no term. -/
theorem contains_description {term : String} (hterm : term ≠ "") {description : Option String} :
    ContainsFolded fold term (description.getD "") ↔
      ∃ text ∈ description, ContainsFolded fold term text := by
  cases description with
  | some text => simp
  | none =>
      simp only [Option.getD_none, Option.mem_def, reduceCtorEq, false_and, exists_false, iff_false]
      intro hpart
      have hnil : term.toList = [] := by simpa [ContainsFolded] using hpart
      exact hterm (String.toList_eq_nil_iff.mp hnil)

/-- A task with a given description. -/
def taskDescribed (description : String) : TaskRecord :=
  ⟨0, 0, none, "a", some description, .open, .low, none, none, 0, 0, 0, 0⟩

/-- The state whose only task it is. -/
def stateDescribed (description : String) : AppState :=
  { (default : AppState) with
    db := { (default : AppState).db with tasks := ⟨[taskDescribed description], by simp⟩ } }

def noFilters : TaskFilters := ⟨none, none, none, none, none, none, none, none, none⟩

theorem taskDescribed_matching (description : String) :
    taskDescribed description ∈ matching app 0 { noFilters with q := none }
      (stateDescribed description) := by
  refine Relational.Table.mem_select.mpr ⟨List.mem_singleton.mpr rfl, ?_⟩
  rfl

/-- **When a short term is a substring.** -/
theorem short_search_literal (hfold : Folds fold) (hilike : IlikeIsFoldedLike app.lib fold)
    (hterm : trim query ≠ "") (hshort : charCount (trim query) < 3) :
    SearchesLiterally app fold query ↔
      ∀ c ∈ (trim query).toList, c ≠ '%' ∧ c ≠ '_' ∧ c ≠ '\\' := by
  have hplain : (∀ c ∈ (trim query).toList, c ≠ '%' ∧ c ≠ '_' ∧ c ≠ '\\') ↔
      ∀ c ∈ (trim query).toList, ¬ IsMeta c := by
    simp only [IsMeta, not_or]
  have hfound : ∀ t : TaskRecord, matchesQuery app query t = true ↔
      like ('%' :: (trim query).toList.map fold ++ ['%']) (t.title.toList.map fold) = true ∨
      like ('%' :: (trim query).toList.map fold ++ ['%'])
        ((t.description.getD "").toList.map fold) = true := by
    intro t
    rw [matchesQuery_short hshort, hilike, hilike, Bool.or_eq_true]
  rw [hplain]
  constructor
  · intro hall
    -- The description is what is left of the term when it is read as a pattern.
    have hreturned := hall (stateDescribed (String.ofList (residue (trim query).toList))) 0 noFilters
      _ (taskDescribed_matching _)
    rw [mem_matching_query (taskDescribed_matching _), hfound] at hreturned
    have hresidue := like_substring_residue hfold (trim query).toList
    rcases hreturned.mp (.inr (by simpa [taskDescribed] using hresidue)) with htitle | hdescription
    · -- The term is a part of the title, which is a plain letter.
      intro c hc hmeta
      have hpart := htitle.subset (List.mem_map_of_mem hc)
      have hletter : fold c = fold 'a' := by simpa [taskDescribed] using hpart
      rw [hfold.eq hmeta] at hletter
      have ha : 'a' = c := (hfold 'a' c hmeta).mp hletter.symm
      exact absurd (ha ▸ hmeta) (by decide)
    · obtain ⟨description, hdescription, hcontains⟩ := hdescription
      obtain rfl : String.ofList (residue (trim query).toList) = description :=
        Option.some.inj hdescription
      rw [ContainsFolded, String.toList_ofList] at hcontains
      exact plain_of_infix_residue hfold hcontains
  · intro hq s tenantId filters t ht
    have hsubstring := (like_substring_iff hfold (trim query).toList).mpr hq
    rw [mem_matching_query ht, hfound, hsubstring, hsubstring]
    exact or_congr Iff.rfl (contains_description hterm)

/-! ### The case of ASCII -/

/-- `ILIKE` where the case of ASCII letters does not matter. -/
def asciiSearch : App :=
  { (default : App) with
    lib := { (default : Libraries) with
      ilike := fun pattern text =>
        like (pattern.toList.map Char.toLower) (text.toList.map Char.toLower) } }

theorem folds_toLower : Folds Char.toLower := by
  intro c m hm
  have hmeta : m.toNat = 37 ∨ m.toNat = 95 ∨ m.toNat = 92 := by
    rcases hm with rfl | rfl | rfl <;> decide
  unfold Char.toLower
  by_cases hupper : c.val ≥ 'A'.val ∧ c.val ≤ 'Z'.val
  · -- A capital letter becomes a small one, and neither is among the three.
    rw [dif_pos hupper]
    have hlow : 65 ≤ c.toNat := hupper.1
    have hhigh : c.toNat ≤ 90 := hupper.2
    constructor
    · rintro rfl
      have hval : (c.val + ('a'.val - 'A'.val)).toNat = (c.toNat + 32) % 2 ^ 32 :=
        UInt32.toNat_add _ _
      change (c.val + ('a'.val - 'A'.val)).toNat = 37 ∨ (c.val + ('a'.val - 'A'.val)).toNat = 95 ∨
        (c.val + ('a'.val - 'A'.val)).toNat = 92 at hmeta
      omega
    · rintro rfl
      omega
  · rw [dif_neg hupper]

theorem asciiSearch_ilike : IlikeIsFoldedLike asciiSearch.lib Char.toLower := by
  intro term text
  simp [asciiSearch, String.toList_append]

/-- A term of two letters is found as a substring. -/
theorem short_search_literal_letters : SearchesLiterally asciiSearch Char.toLower " ab " :=
  (short_search_literal folds_toLower asciiSearch_ilike (by decide +kernel) (by decide +kernel)).mpr
    (by
      have hterm : (trim " ab ").toList = ['a', 'b'] := by decide +kernel
      simp [hterm])

/-- A search for the percent sign finds a task without one. -/
theorem short_search_percent :
    taskDescribed "" ∈ matching asciiSearch 0 { noFilters with q := some "%" } (stateDescribed "") ∧
    ¬ TaskContains Char.toLower (trim "%") (taskDescribed "") := by
  constructor
  · decide +kernel
  · unfold TaskContains ContainsFolded
    decide +kernel

end Fluxa
