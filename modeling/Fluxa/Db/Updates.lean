import Fluxa.Db.Tasks
import Fluxa.Texts.Statements

/-!
# Db — the statement of a task's update

The `UPDATE` that `update_task` of `db/tasks.rs` builds from the fields that are present, and what the database makes of it.

**`update_statement`**: whichever fields are present, the statement is well formed, its placeholders are numbered in the order in which their values are bound, and it replaces a row by `applyUpdate` of it.
-/

namespace Fluxa

namespace Db
open Statements

/-- A value bound to a placeholder, with its type. -/
inductive Bind where
  | text (value : String)
  | nullableText (value : Option String)
  | id (value : Uuid)
  | nullableId (value : Option Uuid)
  | time (value : Time)
  | nullableTime (value : Option Time)

/-- `builder` with `needs_separator`, and `changed`. -/
structure Building where
  builder : Builder Bind × Bool
  changed : Nat

/-- `push_update_assignment` of a field that is present. -/
def assignIf (column : String) (value : Option Bind) (b : Building) : Building :=
  match value with
  | some value => ⟨assign b.builder column.toList value, b.changed + 1⟩
  | none => b

/-- The columns that the statement returns. -/
def returnedColumns : String :=
  "id, tenant_id, project_id, title, description, status, priority, assignee_id, due_at,\n" ++
    "                      created_by, updated_by, created_at, updated_at"

/-- What follows the conditions. -/
def returningColumns : String := " RETURNING " ++ returnedColumns

/-- The assignments of the fields that are present. -/
def assignFields (input : UpdateTaskInput) (b : Building) : Building :=
  let b := assignIf "title" (input.title.map fun title => .text (trim title)) b
  let b := assignIf "description" (input.description.map .nullableText) b
  let b := assignIf "status" (input.status.map fun status => .text status.asStr) b
  let b := assignIf "priority" (input.priority.map fun priority => .text priority.asStr) b
  let b := assignIf "project_id" (input.projectId.map .nullableId) b
  let b := assignIf "assignee_id" (input.assigneeId.map .nullableId) b
  assignIf "due_at" (input.dueAt.map .nullableTime) b

/-- The statement that `update_task` builds, where `changed` is not zero. -/
def updateStatement (tenantId taskId actorId : Uuid) (now : Time) (input : UpdateTaskInput) :
    Option (Builder Bind) :=
  let b := assignFields input ⟨(⟨"UPDATE tasks SET ".toList, []⟩, false), 0⟩
  if b.changed = 0 then none
  else
    let builder := assign b.builder "updated_by".toList (.id actorId)
    let builder := assign builder "updated_at".toList (.time now)
    let query := (builder.1.push " WHERE tenant_id = ".toList).pushBind (.id tenantId)
    let query := (query.push " AND id = ".toList).pushBind (.id taskId)
    some (query.push returningColumns.toList)

/-! ### What the database makes of a statement -/

/-- A column of `tasks` is set to a value of its type. -/
def setColumn (t : TaskRecord) : String → Bind → Option TaskRecord
  | "title", .text title => some { t with title }
  | "description", .nullableText description => some { t with description }
  | "status", .text status =>
    (validateTaskStatus status).toOption.map fun status => { t with status }
  | "priority", .text priority =>
    (validateTaskPriority priority).toOption.map fun priority => { t with priority }
  | "project_id", .nullableId projectId => some { t with projectId }
  | "assignee_id", .nullableId assigneeId => some { t with assigneeId }
  | "due_at", .nullableTime dueAt => some { t with dueAt }
  | "updated_by", .id updatedBy => some { t with updatedBy }
  | "updated_at", .time updatedAt => some { t with updatedAt }
  | _, _ => none

/-- The assignments to the columns of a row. -/
def setColumns (assignments : List (List Char × Bind)) (t : TaskRecord) : Option TaskRecord :=
  assignments.foldlM (fun t a => setColumn t (String.ofList a.1) a.2) t

/-- A column of `tasks` has the value. -/
def columnIs (t : TaskRecord) : String → Bind → Option Bool
  | "tenant_id", .id value => some (t.tenantId = value)
  | "id", .id value => some (t.id = value)
  | _, _ => none

/-- Each of the conditions holds of a row. -/
def columnsAre (conditions : List (List Char × Bind)) (t : TaskRecord) : Option Bool :=
  (conditions.mapM fun c => columnIs t (String.ofList c.1) c.2).map fun held => held.all id

/-- What the statement makes of a row of `tasks`, where the database accepts it: it can be read, it
has a value for each placeholder, and it sets no column twice. -/
def execute (statement : Builder Bind) (t : TaskRecord) : Option TaskRecord := do
  let update ← read statement.sql
  let sets ← resolve statement.binds update.sets
  let conditions ← resolve statement.binds update.conditions
  let holds ← columnsAre conditions t
  let changed ← setColumns sets t
  if update.table = "tasks".toList ∧ (sets.map (·.1)).Nodup then
    return if holds then changed else t
  else none

/-! ### The assignments -/

/-- The assignment of a field that is present. -/
def present (column : String) (value : Option Bind) : List (List Char × Bind) :=
  value.toList.map (column.toList, ·)

/-- The assignments of the fields that are present, in the order of the statement. -/
def assignments (input : UpdateTaskInput) : List (List Char × Bind) :=
  present "title" (input.title.map fun title => .text (trim title)) ++
  (present "description" (input.description.map .nullableText) ++
  (present "status" (input.status.map fun status => .text status.asStr) ++
  (present "priority" (input.priority.map fun priority => .text priority.asStr) ++
  (present "project_id" (input.projectId.map .nullableId) ++
  (present "assignee_id" (input.assigneeId.map .nullableId) ++
  present "due_at" (input.dueAt.map .nullableTime))))))

/-- The two assignments that every statement has. -/
def stamps (actorId : Uuid) (now : Time) : List (List Char × Bind) :=
  [("updated_by".toList, .id actorId), ("updated_at".toList, .time now)]

/-- The conditions of the statement. -/
def conditions (tenantId taskId : Uuid) : List (List Char × Bind) :=
  [("tenant_id".toList, .id tenantId), ("id".toList, .id taskId)]

section

variable {input : UpdateTaskInput} {tenantId taskId actorId : Uuid} {now : Time} {t : TaskRecord}

def Building.pushAll (b : Building) (more : List (List Char × Bind)) : Building :=
  ⟨assignAll b.builder more, b.changed + more.length⟩

theorem Building.pushAll_pushAll {b : Building} {first second : List (List Char × Bind)} :
    (b.pushAll first).pushAll second = b.pushAll (first ++ second) := by
  simp only [Building.pushAll, assignAll_append, List.length_append, Nat.add_assoc]

theorem assignIf_eq {column : String} {value : Option Bind} {b : Building} :
    assignIf column value b = b.pushAll (present column value) := by
  cases value <;> rfl

theorem present_eq_nil {column : String} {value : Option Bind} :
    present column value = [] ↔ value.isSome = false := by
  cases value <;> simp [present]

theorem assignments_eq_nil : assignments input = [] ↔ input.changes = false := by
  simp only [assignments, List.append_eq_nil_iff, present_eq_nil, Option.isSome_map,
    UpdateTaskInput.changes, Bool.or_eq_false_iff, and_assoc]

theorem assignFields_eq {b : Building} : assignFields input b = b.pushAll (assignments input) := by
  simp only [assignFields, assignIf_eq, Building.pushAll_pushAll, List.append_assoc]
  rfl

theorem updateStatement_of_not_changes (h : input.changes = false) :
    updateStatement tenantId taskId actorId now input = none := by
  rw [updateStatement, assignFields_eq, assignments_eq_nil.mpr h]
  rfl

/-- The statement, with the assignments as a list. -/
theorem updateStatement_of_changes (h : input.changes = true) :
    updateStatement tenantId taskId actorId now input =
      let builder := (assignAll (⟨"UPDATE tasks SET ".toList, []⟩, false)
        (assignments input ++ stamps actorId now)).1
      some (((((builder.push " WHERE tenant_id = ".toList).pushBind (.id tenantId)).push
        " AND id = ".toList).pushBind (.id taskId)).push returningColumns.toList) := by
  have hchanged : 0 + (assignments input).length ≠ 0 := by
    intro hlen
    rw [Nat.zero_add, List.length_eq_zero_iff, assignments_eq_nil, h] at hlen
    exact nomatch hlen
  simp only [updateStatement, assignFields_eq, Building.pushAll, if_neg hchanged, assignAll_append]
  rfl

/-! ### The columns -/

theorem setColumns_append {first second : List (List Char × Bind)} :
    setColumns (first ++ second) t = (setColumns first t).bind (setColumns second) :=
  List.foldlM_append

/-- A field that is present sets its column. -/
theorem setColumns_present {column : String} {value : Option Bind} :
    setColumns (present column value) t = value.elim (some t) (setColumn t column) := by
  cases value with
  | none => rfl
  | some value =>
      simp only [present, Option.toList_some, List.map_cons, List.map_nil, setColumns,
        List.foldlM_cons, List.foldlM_nil, String.ofList_toList, Option.elim_some]
      exact bind_pure _

/-- The assignments make `applyUpdate` of a row. -/
theorem setColumns_assignments :
    setColumns (assignments input ++ stamps actorId now) t =
      some (applyUpdate input actorId now t) := by
  have title : ∀ t, setColumns (present "title" (input.title.map fun x => .text (trim x))) t =
      some { t with title := (input.title.map trim).getD t.title } := by
    intro t
    rw [setColumns_present]
    cases input.title <;> rfl
  have description : ∀ t, setColumns (present "description" (input.description.map .nullableText)) t =
      some { t with description := input.description.getD t.description } := by
    intro t
    rw [setColumns_present]
    cases input.description <;> rfl
  have status : ∀ t, setColumns (present "status" (input.status.map fun x => .text x.asStr)) t =
      some { t with status := input.status.getD t.status } := by
    intro t
    rw [setColumns_present]
    cases input.status with
    | none => rfl
    | some status => cases status <;> rfl
  have priority : ∀ t,
      setColumns (present "priority" (input.priority.map fun x => .text x.asStr)) t =
        some { t with priority := input.priority.getD t.priority } := by
    intro t
    rw [setColumns_present]
    cases input.priority with
    | none => rfl
    | some priority => cases priority <;> rfl
  have project : ∀ t, setColumns (present "project_id" (input.projectId.map .nullableId)) t =
      some { t with projectId := input.projectId.getD t.projectId } := by
    intro t
    rw [setColumns_present]
    cases input.projectId <;> rfl
  have assignee : ∀ t, setColumns (present "assignee_id" (input.assigneeId.map .nullableId)) t =
      some { t with assigneeId := input.assigneeId.getD t.assigneeId } := by
    intro t
    rw [setColumns_present]
    cases input.assigneeId <;> rfl
  have due : ∀ t, setColumns (present "due_at" (input.dueAt.map .nullableTime)) t =
      some { t with dueAt := input.dueAt.getD t.dueAt } := by
    intro t
    rw [setColumns_present]
    cases input.dueAt <;> rfl
  have stamped : ∀ t, setColumns (stamps actorId now) t =
      some { t with updatedBy := actorId, updatedAt := now } := fun t => rfl
  simp only [assignments, List.append_assoc, setColumns_append, title, description, status,
    priority, project, assignee, due, stamped, Option.bind_some]
  rfl

/-- The columns that a statement may set, in its order. -/
def settable : List (List Char) :=
  ["title", "description", "status", "priority", "project_id", "assignee_id", "due_at",
    "updated_by", "updated_at"].map String.toList

theorem present_columns {column : String} {value : Option Bind} :
    ((present column value).map (·.1)).Sublist [column.toList] := by
  cases value with
  | none => exact List.nil_sublist _
  | some value => exact List.Sublist.refl _

/-- Each column is set once at most. -/
theorem columns_sublist :
    ((assignments input ++ stamps actorId now).map (·.1)).Sublist settable := by
  simp only [assignments, List.append_assoc, List.map_append]
  exact present_columns.append <| present_columns.append <| present_columns.append <|
    present_columns.append <| present_columns.append <| present_columns.append <|
    present_columns.append (List.Sublist.refl _)

theorem settable_blank : ∀ c ∈ settable, ' ' ∉ c := by decide

/-! ### The statement -/

/-- What follows the blank after the conditions. -/
def returnedText : List Char :=
  ['R', 'E', 'T', 'U', 'R', 'N', 'I', 'N', 'G'] ++ ' ' :: returnedColumns.toList

theorem returningColumns_toList : returningColumns.toList = ' ' :: returnedText := by
  have hword : " RETURNING ".toList =
      ' ' :: (['R', 'E', 'T', 'U', 'R', 'N', 'I', 'N', 'G'] ++ [' ']) := rfl
  rw [returningColumns, String.toList_append, hword, returnedText, List.cons_append,
    List.append_assoc, List.singleton_append]

theorem returnedText_words (more : List (List Char)) :
    words returnedText ≠ ['A', 'N', 'D'] :: more := by
  rw [returnedText, words_cons (by decide)]
  intro h
  exact absurd (List.head_eq_of_cons_eq h) (by decide)

/-- What the database has to find in a statement: the assignments and the conditions, with
placeholders in the order of their values. -/
structure WellFormedUpdate (b : Builder Bind) (sets conditions : List (List Char × Bind)) : Prop where
  /-- The statement can be read. -/
  reads : ∃ u, read b.sql = some u ∧ u.table = "tasks".toList ∧
    u.sets.map (·.1) = sets.map (·.1) ∧ u.conditions.map (·.1) = conditions.map (·.1) ∧
    (u.sets ++ u.conditions).map (·.2) = List.range' 1 b.binds.length
  /-- The values are bound in the order of the columns. -/
  binds : b.binds = (sets ++ conditions).map (·.2)
  /-- No column is set twice. -/
  nodup : (sets.map (·.1)).Nodup

theorem read_updateStatement {b : Builder Bind}
    (h : updateStatement tenantId taskId actorId now input = some b) :
    b.binds = ((assignments input ++ stamps actorId now) ++ conditions tenantId taskId).map (·.2) ∧
    ∃ rest, read b.sql = some ⟨"tasks".toList,
      ((assignments input ++ stamps actorId now).map (·.1)).zipIdx 1,
      ((conditions tenantId taskId).map (·.1)).zipIdx
        ((assignments input ++ stamps actorId now).length + 1), rest⟩ := by
  cases hchanges : input.changes with
  | false =>
      rw [updateStatement_of_not_changes hchanges] at h
      exact nomatch h
  | true =>
      rw [updateStatement_of_changes hchanges] at h
      have hsub := @columns_sublist input actorId now
      cases hall : assignments input ++ stamps actorId now with
      | nil => exact absurd (List.append_eq_nil_iff.mp hall).2 (List.cons_ne_nil _ _)
      | cons a more =>
          rw [hall] at h hsub
          obtain ⟨column, value⟩ := a
          rw [assignAll_cons] at h
          cases h
          have hblank : ∀ c ∈ column :: more.map (·.1), ' ' ∉ c := fun c hc =>
            settable_blank c (hsub.subset hc)
          refine ⟨?_, words returnedText, ?_⟩
          · simp only [Builder.push, Builder.pushBind, List.nil_append, List.append_assoc,
              List.map_append, List.map_cons, conditions, List.map_nil, List.cons_append]
          · have hread := @read_statement 1 "tasks".toList returnedText column "tenant_id".toList
              (more.map (·.1)) ["id".toList] (by decide) hblank (by decide) returnedText_words
              ((column, value) :: more).length.succ
            have htable : "UPDATE tasks SET ".toList =
                "UPDATE ".toList ++ ("tasks".toList ++ " SET ".toList) := rfl
            have hwhere : " WHERE tenant_id = ".toList =
                " WHERE ".toList ++ ("tenant_id".toList ++ [' ', '=', ' ']) := rfl
            have hand : " AND id = ".toList =
                [' ', 'A', 'N', 'D', ' '] ++ ("id".toList ++ [' ', '=', ' ']) := rfl
            refine Eq.trans (congrArg read ?_) hread
            simp only [Builder.push, Builder.pushBind, returningColumns_toList, htable, hwhere, hand, pair,
              moreConditions, List.append_assoc, List.nil_append, List.length_cons,
              List.length_append, List.length_map, List.length_nil, Nat.zero_add, Nat.succ_eq_add_one]

theorem updateStatement_wellFormed {b : Builder Bind}
    (h : updateStatement tenantId taskId actorId now input = some b) :
    WellFormedUpdate b (assignments input ++ stamps actorId now) (conditions tenantId taskId) := by
  obtain ⟨hbinds, rest, hread⟩ := read_updateStatement h
  refine ⟨⟨_, hread, rfl, ?_, ?_, ?_⟩, hbinds, columns_sublist.nodup (by decide)⟩
  · exact List.zipIdx_map_fst 1 _
  · exact List.zipIdx_map_fst _ _
  · rw [List.map_append, List.zipIdx_map_snd, List.zipIdx_map_snd, hbinds]
    simp only [List.length_map, List.length_append, Nat.add_comm _ 1]
    exact List.range'_append_1

/-- What a statement makes of a row. -/
theorem execute_updateStatement {b : Builder Bind}
    (h : updateStatement tenantId taskId actorId now input = some b) :
    execute b t = some
      (if t.tenantId = tenantId ∧ t.id = taskId then applyUpdate input actorId now t else t) := by
  obtain ⟨hbinds, rest, hread⟩ := read_updateStatement h
  have hsets := resolve_zipIdx (assignments input ++ stamps actorId now) []
    ((conditions tenantId taskId).map (·.2))
  have hconditions := resolve_zipIdx (conditions tenantId taskId)
    ((assignments input ++ stamps actorId now).map (·.2)) []
  rw [List.nil_append, ← List.map_append, ← hbinds] at hsets
  rw [List.append_nil, ← List.map_append, ← hbinds, List.length_map] at hconditions
  have hheld : columnsAre (conditions tenantId taskId) t =
      some (decide (t.tenantId = tenantId) && (decide (t.id = taskId) && true)) := rfl
  have hnodup : ((assignments input ++ stamps actorId now).map (·.1)).Nodup :=
    columns_sublist.nodup (by decide)
  simp only [execute, hread, Option.bind_eq_bind, Option.bind_some, List.length_nil] at hsets ⊢
  rw [hsets, hconditions]
  simp only [Option.bind_some, hheld, setColumns_assignments, hnodup, and_self, if_true,
    Bool.and_true, Bool.and_eq_true, decide_eq_true_eq]
  rfl

/-- **The statement of an update.** -/
theorem update_statement (h : input.changes = true) :
    ∃ b, updateStatement tenantId taskId actorId now input = some b ∧
      WellFormedUpdate b (assignments input ++ stamps actorId now) (conditions tenantId taskId) ∧
      ∀ t, execute b t = some
        (if t.tenantId = tenantId ∧ t.id = taskId then applyUpdate input actorId now t else t) :=
  have heq := updateStatement_of_changes h
  ⟨_, heq, updateStatement_wellFormed heq, fun _ => execute_updateStatement heq⟩

end

end Db

end Fluxa
