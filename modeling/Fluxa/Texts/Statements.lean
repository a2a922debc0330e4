import Mathlib.Data.List.Basic

/-!
# Texts — UPDATE statements

A builder of parameterized statements, which keeps the text and the values bound so far, and a reader of `UPDATE` statements: the columns that are set, the columns that are compared, and the number of the placeholder for each.

**A built statement is well formed** (`read_statement`).  Assignments pushed one after the other, with a separator before each but the first, and conditions after them are read as they were pushed, with placeholders in the order of their values.
-/

namespace Statements

variable {β : Type}

/-! ### The builder -/

/-- `QueryBuilder`: the text so far and the values bound so far. -/
structure Builder (β : Type) where
  sql : List Char
  binds : List β

/-- The placeholder with the number. -/
def mark (n : Nat) : List Char := '$' :: n.repr.toList

def Builder.push (b : Builder β) (text : List Char) : Builder β := { b with sql := b.sql ++ text }

/-- Bind a value under the next placeholder. -/
def Builder.pushBind (b : Builder β) (value : β) : Builder β :=
  { sql := b.sql ++ mark (b.binds.length + 1), binds := b.binds ++ [value] }

/-- Push an assignment, after a separator where there has been one before. -/
def assign (b : Builder β × Bool) (column : List Char) (value : β) : Builder β × Bool :=
  let builder := if b.2 then b.1.push [',', ' '] else b.1
  (((builder.push column).push [' ', '=', ' ']).pushBind value, true)

/-- Push the assignments one after the other. -/
def assignAll (b : Builder β × Bool) (assignments : List (List Char × β)) : Builder β × Bool :=
  assignments.foldl (fun b a => assign b a.1 a.2) b

/-! ### Texts -/

/-- A column and its placeholder. -/
def pair (n : Nat) (column : List Char) : List Char := column ++ ([' ', '=', ' '] ++ mark n)

/-- Further assignments, the first one with placeholder `n`. -/
def moreSets : Nat → List (List Char) → List Char
  | _, [] => []
  | n, column :: columns => [',', ' '] ++ (pair n column ++ moreSets (n + 1) columns)

/-- Further conditions. -/
def moreConditions : Nat → List (List Char) → List Char
  | _, [] => []
  | n, column :: columns =>
    [' ', 'A', 'N', 'D', ' '] ++ (pair n column ++ moreConditions (n + 1) columns)

/-! ### The reader -/

/-- What is between the blanks. -/
def words (text : List Char) : List (List Char) := text.splitOn ' '

/-- The number of a placeholder. -/
def number? : List Char → Option Nat
  | '$' :: digits => if digits.all Char.isDigit then some (Nat.ofDigitChars 10 digits 0) else none
  | _ => none

/-- The assignments up to the first one that no comma follows, and the words after them. -/
def readSets : List (List Char) → Option (List (List Char × Nat) × List (List Char))
  | column :: ['='] :: value :: rest =>
    if value.getLast? = some ',' then do
      let n ← number? value.dropLast
      let (more, rest) ← readSets rest
      return ((column, n) :: more, rest)
    else do
      let n ← number? value
      return ([(column, n)], rest)
  | _ => none

/-- The conditions up to the first one that no `AND` follows, and the words after them. -/
def readConditions : List (List Char) → Option (List (List Char × Nat) × List (List Char))
  | column :: ['='] :: value :: ['A', 'N', 'D'] :: rest => do
    let n ← number? value
    let (more, rest) ← readConditions rest
    return ((column, n) :: more, rest)
  | column :: ['='] :: value :: rest => do
    let n ← number? value
    return ([(column, n)], rest)
  | _ => none

/-- An `UPDATE` statement with what follows its conditions. -/
structure Update where
  table : List Char
  sets : List (List Char × Nat)
  conditions : List (List Char × Nat)
  rest : List (List Char)
deriving DecidableEq

def read (text : List Char) : Option Update :=
  match words text with
  | ['U', 'P', 'D', 'A', 'T', 'E'] :: table :: ['S', 'E', 'T'] :: rest => do
    let (sets, rest) ← readSets rest
    match rest with
    | ['W', 'H', 'E', 'R', 'E'] :: rest => do
      let (conditions, rest) ← readConditions rest
      return ⟨table, sets, conditions, rest⟩
    | _ => none
  | _ => none

/-- The value bound under a number. -/
def lookup (binds : List β) : Nat → Option β
  | 0 => none
  | n + 1 => binds[n]?

/-- Columns with the values that their placeholders stand for. -/
def resolve (binds : List β) (columns : List (List Char × Nat)) : Option (List (List Char × β)) :=
  columns.mapM fun c => (lookup binds c.2).map (c.1, ·)

/-! ### Pushing -/

section Pushing

variable {b : Builder β} {assignments : List (List Char × β)}

theorem assign_false {column : List Char} {value : β} :
    assign (b, false) column value =
      (⟨b.sql ++ pair (b.binds.length + 1) column, b.binds ++ [value]⟩, true) := by
  simp only [assign, Builder.push, Builder.pushBind, pair, Bool.false_eq_true, if_false,
    List.append_assoc]

theorem assign_true {column : List Char} {value : β} :
    assign (b, true) column value =
      (⟨b.sql ++ ([',', ' '] ++ pair (b.binds.length + 1) column), b.binds ++ [value]⟩, true) := by
  simp only [assign, Builder.push, Builder.pushBind, pair, if_true, List.append_assoc]

theorem assignAll_true : assignAll (b, true) assignments =
    (⟨b.sql ++ moreSets (b.binds.length + 1) (assignments.map (·.1)),
      b.binds ++ assignments.map (·.2)⟩, true) := by
  induction assignments generalizing b with
  | nil => simp only [assignAll, List.foldl_nil, List.map_nil, moreSets, List.append_nil]
  | cons a assignments ih =>
      rw [assignAll, List.foldl_cons, assign_true, ← assignAll, ih]
      simp only [List.length_append, List.length_singleton, List.map_cons, moreSets,
        List.append_assoc, List.singleton_append]

/-- The first assignment has no separator before it, and each other one has. -/
theorem assignAll_cons {column : List Char} {value : β} :
    assignAll (b, false) ((column, value) :: assignments) =
      (⟨b.sql ++ (pair (b.binds.length + 1) column ++
          moreSets (b.binds.length + 2) (assignments.map (·.1))),
        b.binds ++ value :: assignments.map (·.2)⟩, true) := by
  rw [assignAll, List.foldl_cons, assign_false, ← assignAll, assignAll_true]
  simp only [List.length_append, List.length_singleton, List.append_assoc, List.singleton_append]

theorem assignAll_append {state : Builder β × Bool} {more : List (List Char × β)} :
    assignAll state (assignments ++ more) = assignAll (assignAll state assignments) more :=
  List.foldl_append

end Pushing

/-! ### Reading -/

section Reading

variable {n : Nat} {column table tail : List Char} {columns : List (List Char)}
  {rest : List (List Char)}

theorem digits_repr : ∀ c ∈ n.repr.toList, c.isDigit = true := by
  rw [Nat.toList_repr]
  exact fun c hc => Nat.isDigit_of_mem_toDigits (by decide) (by decide) hc

theorem number?_mark : number? (mark n) = some n := by
  have hall : n.repr.toList.all Char.isDigit = true := List.all_eq_true.mpr digits_repr
  simp only [number?, mark, hall, if_true]
  rw [Nat.toList_repr, Nat.ofDigitChars_ten_toDigits]

theorem notMem_mark {c : Char} (hmark : c ≠ '$') (hdigit : c.isDigit = false) : c ∉ mark n := by
  intro hc
  rcases List.mem_cons.mp hc with rfl | hc
  · exact hmark rfl
  · rw [digits_repr c hc] at hdigit
    exact nomatch hdigit

theorem getLast?_mark : (mark n).getLast? ≠ some ',' := fun h =>
  notMem_mark (by decide) (by decide) (List.mem_of_getLast? h)

/-- A word ends at the next blank. -/
theorem words_cons {word rest : List Char} (h : ' ' ∉ word) :
    words (word ++ ' ' :: rest) = word :: words rest :=
  List.splitOn_append_cons_self_of_not_mem h rest

/-- The words of a column and its placeholder, whatever stands right after it. -/
theorem words_pair {after rest : List Char} (h : ' ' ∉ column) (hafter : ' ' ∉ after) :
    words (pair n column ++ (after ++ ' ' :: rest)) =
      column :: ['='] :: (mark n ++ after) :: words rest := by
  have hvalue : ' ' ∉ mark n ++ after := by
    rw [List.mem_append, not_or]
    exact ⟨notMem_mark (by decide) (by decide), hafter⟩
  have htext : pair n column ++ (after ++ ' ' :: rest) =
      column ++ ' ' :: (['='] ++ ' ' :: ((mark n ++ after) ++ ' ' :: rest)) := by
    simp only [pair, List.append_assoc, List.cons_append, List.nil_append]
  rw [htext, words_cons h, words_cons (by decide), words_cons hvalue]

theorem readSets_last : readSets (column :: ['='] :: mark n :: rest) = some ([(column, n)], rest) := by
  rw [readSets, if_neg getLast?_mark, number?_mark]
  rfl

theorem readSets_more :
    readSets (column :: ['='] :: (mark n ++ [',']) :: rest) =
      (readSets rest).map fun r => ((column, n) :: r.1, r.2) := by
  rw [readSets, if_pos List.getLast?_concat, List.dropLast_concat, number?_mark]
  cases readSets rest <;> rfl

/-- Assignments are read as they were pushed. -/
theorem readSets_text (h : ' ' ∉ column) (hall : ∀ c ∈ columns, ' ' ∉ c) :
    readSets (words (pair n column ++ (moreSets (n + 1) columns ++ ' ' :: tail))) =
      some ((column :: columns).zipIdx n, words tail) := by
  induction columns generalizing n column with
  | nil =>
      have hwords : words (pair n column ++ ([] ++ ' ' :: tail)) =
          column :: ['='] :: (mark n ++ []) :: words tail := words_pair h List.not_mem_nil
      rw [List.nil_append, List.append_nil] at hwords
      rw [moreSets, List.nil_append, hwords, readSets_last]
      rfl
  | cons next columns ih =>
      have htext : pair n column ++ (moreSets (n + 1) (next :: columns) ++ ' ' :: tail) =
          pair n column ++ ([','] ++ ' ' ::
            (pair (n + 1) next ++ (moreSets (n + 2) columns ++ ' ' :: tail))) := by
        simp only [moreSets, List.append_assoc, List.cons_append, List.nil_append]
      rw [htext, words_pair h (by decide), readSets_more,
        ih (hall next List.mem_cons_self) fun c hc => hall c (List.mem_cons_of_mem _ hc)]
      rfl

theorem readConditions_last (hrest : ∀ more, rest ≠ ['A', 'N', 'D'] :: more) :
    readConditions (column :: ['='] :: mark n :: rest) = some ([(column, n)], rest) := by
  rw [readConditions]
  · rw [number?_mark]
    rfl
  · exact hrest

theorem readConditions_more :
    readConditions (column :: ['='] :: mark n :: ['A', 'N', 'D'] :: rest) =
      (readConditions rest).map fun r => ((column, n) :: r.1, r.2) := by
  rw [readConditions, number?_mark]
  cases readConditions rest <;> rfl

/-- Conditions are read as they were pushed. -/
theorem readConditions_text (h : ' ' ∉ column) (hall : ∀ c ∈ columns, ' ' ∉ c)
    (htail : ∀ more, words tail ≠ ['A', 'N', 'D'] :: more) :
    readConditions (words (pair n column ++ (moreConditions (n + 1) columns ++ ' ' :: tail))) =
      some ((column :: columns).zipIdx n, words tail) := by
  induction columns generalizing n column with
  | nil =>
      have hwords : words (pair n column ++ ([] ++ ' ' :: tail)) =
          column :: ['='] :: (mark n ++ []) :: words tail := words_pair h List.not_mem_nil
      rw [List.nil_append, List.append_nil] at hwords
      rw [moreConditions, List.nil_append, hwords, readConditions_last htail]
      rfl
  | cons next columns ih =>
      have htext : pair n column ++ (moreConditions (n + 1) (next :: columns) ++ ' ' :: tail) =
          pair n column ++ ([] ++ ' ' :: (['A', 'N', 'D'] ++ ' ' ::
            (pair (n + 1) next ++ (moreConditions (n + 2) columns ++ ' ' :: tail)))) := by
        simp only [moreConditions, List.append_assoc, List.cons_append, List.nil_append]
      rw [htext, words_pair h List.not_mem_nil, words_cons (by decide), List.append_nil,
        readConditions_more, ih (hall next List.mem_cons_self) fun c hc =>
          hall c (List.mem_cons_of_mem _ hc)]
      rfl

/-- **A built statement is well formed**, and its placeholders are numbered in the order of its
columns. -/
theorem read_statement {set condition : List Char} {sets conditions : List (List Char)}
    (htable : ' ' ∉ table) (hset : ∀ c ∈ set :: sets, ' ' ∉ c)
    (hcondition : ∀ c ∈ condition :: conditions, ' ' ∉ c)
    (htail : ∀ more, words tail ≠ ['A', 'N', 'D'] :: more) {k : Nat} :
    read ("UPDATE ".toList ++ (table ++ (" SET ".toList ++
      (pair n set ++ (moreSets (n + 1) sets ++ (" WHERE ".toList ++
        (pair k condition ++ (moreConditions (k + 1) conditions ++ ' ' :: tail)))))))) =
      some ⟨table, (set :: sets).zipIdx n, (condition :: conditions).zipIdx k, words tail⟩ := by
  have htext : "UPDATE ".toList ++ (table ++ (" SET ".toList ++
      (pair n set ++ (moreSets (n + 1) sets ++ (" WHERE ".toList ++
        (pair k condition ++ (moreConditions (k + 1) conditions ++ ' ' :: tail))))))) =
      ['U', 'P', 'D', 'A', 'T', 'E'] ++ ' ' :: (table ++ ' ' :: (['S', 'E', 'T'] ++ ' ' ::
        (pair n set ++ (moreSets (n + 1) sets ++ ' ' :: (['W', 'H', 'E', 'R', 'E'] ++ ' ' ::
          (pair k condition ++ (moreConditions (k + 1) conditions ++ ' ' :: tail))))))) := rfl
  have hsets : readSets (words (pair n set ++ (moreSets (n + 1) sets ++ ' ' ::
      (['W', 'H', 'E', 'R', 'E'] ++ ' ' ::
        (pair k condition ++ (moreConditions (k + 1) conditions ++ ' ' :: tail)))))) =
      some ((set :: sets).zipIdx n, words (['W', 'H', 'E', 'R', 'E'] ++ ' ' ::
        (pair k condition ++ (moreConditions (k + 1) conditions ++ ' ' :: tail)))) :=
    readSets_text (hset set List.mem_cons_self) fun c hc => hset c (List.mem_cons_of_mem _ hc)
  rw [words_cons (by decide)] at hsets
  have hconditions := readConditions_text (n := k) (hcondition condition List.mem_cons_self)
    (fun c hc => hcondition c (List.mem_cons_of_mem _ hc)) htail
  rw [htext, read, words_cons (by decide), words_cons htable, words_cons (by decide)]
  simp only [hsets, hconditions, Option.pure_def, Option.bind_eq_bind, Option.bind_some]

end Reading

/-- Placeholders numbered in the order of their values stand for these. -/
theorem resolve_zipIdx (assignments : List (List Char × β)) (before after : List β) :
    resolve (before ++ (assignments.map (·.2) ++ after))
      ((assignments.map (·.1)).zipIdx (before.length + 1)) = some assignments := by
  induction assignments generalizing before with
  | nil => rfl
  | cons a assignments ih =>
      have hrest := ih (before ++ [a.2])
      rw [List.length_append, List.length_singleton, List.append_assoc, List.singleton_append]
        at hrest
      have hfirst : lookup (before ++ (a.2 :: (assignments.map (·.2) ++ after)))
          (before.length + 1) = some a.2 := by
        rw [lookup, List.getElem?_append_right (Nat.le_refl _), Nat.sub_self]
        rfl
      rw [resolve, List.map_cons, List.map_cons, List.zipIdx_cons, List.mapM_cons]
      simp only [List.cons_append, hfirst]
      rw [resolve] at hrest
      rw [hrest]
      rfl

end Statements
