import Fluxa.State.AppState
import Fluxa.State.Text

/-!
# Db — labels

`db/labels.rs` with the checks of `domain/labels.rs`.  The replacement of a task's labels is a transaction of several statements that nothing serialises.  Its `DELETE` looks for rows first and deletes them when nobody else has, so it is two statements here; a statement that would have to wait for another transaction is executed when that has ended, or is rolled back as the victim of a deadlock.
-/

namespace Fluxa
open Interleave Relational

/-! ### Inputs -/

/-- `CreateLabelInput`. -/
structure CreateLabelInput where
  name : String
  color : Option String
deriving DecidableEq, Repr

/-- `UpdateLabelInput`: an absent field is left alone, a present color may be null. -/
structure UpdateLabelInput where
  name : Option String
  color : Option (Option String)
deriving DecidableEq, Repr

/-- `MAX_LABEL_NAME_LENGTH`. -/
def maxLabelNameLength : Nat := 64

/-- `MAX_LABELS_PER_TASK`. -/
def maxLabelsPerTask : Nat := 100

def validateLabelName (name : String) : Except AppError String :=
  let trimmed := trim name
  if trimmed = "" then .error (.validation "label name is required")
  else if charCount trimmed > maxLabelNameLength then
    .error (.validation s!"label name must be at most {maxLabelNameLength} characters")
  else .ok trimmed

/-- `char::is_ascii_hexdigit`. -/
def isAsciiHexdigit (c : Char) : Bool :=
  c.isDigit || ('a' ≤ c && c ≤ 'f') || ('A' ≤ c && c ≤ 'F')

def validateLabelColor (color : String) : Except AppError String :=
  let trimmed := trim color
  if trimmed.utf8ByteSize = 7 ∧ trimmed.toList.head? = some '#' ∧
      trimmed.toList.tail.all isAsciiHexdigit then
    .ok (toAsciiLowercase trimmed)
  else .error (.validation "label color must be a hex color like #4f46e5")

def CreateLabelInput.validate (input : CreateLabelInput) : Except AppError CreateLabelInput := do
  let name ← validateLabelName input.name
  let color ← input.color.mapM validateLabelColor
  return { name, color }

def UpdateLabelInput.validate (input : UpdateLabelInput) : Except AppError UpdateLabelInput := do
  if input.name = none ∧ input.color = none then
    .error (.validation "at least one label field must be provided")
  let name ← input.name.mapM validateLabelName
  let color ← input.color.mapM fun color => color.mapM validateLabelColor
  return { name, color }

def validateTaskLabelIds (labelIds : List Uuid) : Except AppError (List Uuid) :=
  if labelIds.length > maxLabelsPerTask then
    .error (.validation s!"a task can have at most {maxLabelsPerTask} labels")
  else .ok (labelIds.insertionSort (· ≤ ·)).dedup

namespace Db

/-! ### Labels -/

/-- `ORDER BY LOWER(name) ASC, id ASC`. -/
def orderLabels (app : App) (labels : List LabelRecord) : List LabelRecord :=
  labels.insertionSort fun a b =>
    app.lib.lower a.name < app.lib.lower b.name ∨
      app.lib.lower a.name = app.lib.lower b.name ∧ a.id ≤ b.id

/-- Another label of the tenant has the name: `idx_labels_tenant_name`. -/
def labelNameTaken (app : App) (s : AppState) (label : LabelRecord) : Bool :=
  s.db.labels.any fun l => l.id ≠ label.id && l.tenantId = label.tenantId &&
    app.lib.lower l.name = app.lib.lower label.name

def createLabel (app : App) (tenantId actorId : Uuid) (input : CreateLabelInput) :
    Service LabelRecord := do
  let now ← utcNow
  let id ← newUuid
  let label : LabelRecord :=
    { id, tenantId, name := input.name, color := input.color, createdBy := actorId,
      updatedBy := actorId, createdAt := now, updatedAt := now }
  sql .quiet fun e s =>
    if labelNameTaken app s label then (.error uniqueViolation, s)
    else
      match s.db.labels.insert label with
      | some labels => (.ok label, { s with
          db.labels := labels
          history := noteCreated e .label id s.history })
      | none => (.error uniqueViolation, s)

def listLabels (app : App) (tenantId : Uuid) : Service (List LabelRecord) :=
  select fun _ s => orderLabels app (s.db.labels.select fun l => l.tenantId = tenantId)

/-- The assignments of `update_label`. -/
def applyLabelUpdate (input : UpdateLabelInput) (actorId : Uuid) (now : Time) (l : LabelRecord) :
    LabelRecord :=
  { l with
    name := input.name.getD l.name, color := input.color.getD l.color, updatedBy := actorId
    updatedAt := now }

/-- The tenant's label. -/
def tenantLabel (s : AppState) (tenantId labelId : Uuid) : Option LabelRecord :=
  (s.db.labels.find? labelId).filter fun l => l.tenantId = tenantId

def updateLabel (app : App) (tenantId labelId actorId : Uuid) (input : UpdateLabelInput) :
    Service LabelRecord := do
  let now ← utcNow
  sql .quiet fun _ s =>
    match tenantLabel s tenantId labelId with
    | none => (.error (.notFound "label not found"), s)
    | some label =>
      let f := applyLabelUpdate input actorId now
      if labelNameTaken app s (f label) then (.error uniqueViolation, s)
      else (.ok (f label), { s with
        db.labels := s.db.labels.update (fun l => l.id = labelId) f ⟨fun _ => rfl⟩ })

/-- The label goes with its rows in `task_labels`; it waits for the transactions that have
inserted such rows. -/
def deleteLabel (tenantId labelId : Uuid) : Service LabelRecord :=
  sqlWhen .quiet (fun s => !s.db.labelTxs.any fun T => T.inserted.contains labelId) fun e s =>
    match tenantLabel s tenantId labelId with
    | none => (.error (.notFound "label not found"), s)
    | some label => (.ok label, { s with
        db.labels := s.db.labels.delete fun l => l.id = labelId
        db.taskLabels := s.db.taskLabels.delete fun r => r.labelId = labelId
        history.commits := s.history.commits ++ [e.pid] })

def listTaskLabels (app : App) (tenantId taskId : Uuid) : Service (List LabelRecord) :=
  select fun _ s => orderLabels app <| s.db.labels.select fun l => l.tenantId = tenantId &&
    s.db.taskLabels.any fun r => r.taskId = taskId && r.labelId = l.id

/-! ### The replacement of a task's labels -/

/-- The labels of a task. -/
def labelsOf (s : AppState) (taskId : Uuid) : List Uuid :=
  (s.db.taskLabels.select fun r => r.taskId = taskId).map (·.labelId)

/-- The transaction of the call is no longer open. -/
def endLabelTx (pid : Nat) (s : AppState) : AppState :=
  { s with db.labelTxs := s.db.labelTxs.filter fun T => T.pid ≠ pid }

/-- The call's open transaction is `T`. -/
def putLabelTx (T : LabelTx) (s : AppState) : AppState :=
  { s with db.labelTxs := T :: s.db.labelTxs.filter fun T' => T'.pid ≠ T.pid }

/-- A statement in the call's transaction; a failure rolls the transaction back. -/
def inLabelTx {A : Type} (run : Env → AppState → Option (A × AppState)) : Service A :=
  .atomic .quiet (fun _ => true) fun e s =>
    match e.fault, run e s with
    | .none, some (a, s') => (.ok a, s')
    | _, _ => (.error (databaseError e.detail), endLabelTx e.pid s)

/-- Another transaction has changed one of the task's labels. -/
def labelsLocked (s : AppState) (T : LabelTx) (labelIds : List Uuid)
    (changed : LabelTx → List Uuid) : Bool :=
  s.db.labelTxs.any fun T' => T'.pid ≠ T.pid && T'.taskId = T.taskId &&
    labelIds.any fun l => (changed T').contains l

/-- `DELETE FROM task_labels WHERE task_id = $1 AND label_id <> ALL($2)` looks for rows. -/
def findLabelsToDelete (taskId : Uuid) (labelIds : List Uuid) : Service LabelTx :=
  inLabelTx fun e s =>
    let found := (labelsOf s taskId).filter fun l => !labelIds.contains l
    let T : LabelTx := { pid := e.pid, taskId, wanted := labelIds, found, deleted := [], inserted := [] }
    some (T, putLabelTx T s)

/-- It deletes those that are still there. -/
def deleteFoundLabels (T : LabelTx) : Service LabelTx :=
  inLabelTx fun _ s =>
    if labelsLocked s T T.found LabelTx.deleted then none
    else
      let T := { T with deleted := T.found.filter fun l => (labelsOf s T.taskId).contains l }
      some (T, putLabelTx T s)

/-- `INSERT INTO task_labels .. ON CONFLICT DO NOTHING`. -/
def insertMissingLabels (T : LabelTx) : Service LabelTx :=
  inLabelTx fun _ s =>
    if labelsLocked s T T.wanted fun T' => T'.deleted ++ T'.inserted then none
    else if (s.db.tasks.find? T.taskId).isNone || T.wanted.any fun l => (s.db.labels.find? l).isNone
    then none
    else
      let T := { T with inserted := T.wanted.filter fun l => !(labelsOf s T.taskId).contains l }
      some (T, putLabelTx T s)

/-- The rows of `task_labels` once the transaction's changes are in. -/
def replaceLabels (T : LabelTx) (s : AppState) :
    Option (Table TaskLabelRow fun r => (r.taskId, r.labelId)) :=
  (s.db.taskLabels.delete fun r => r.taskId = T.taskId && T.deleted.contains r.labelId).insertAll
    (T.inserted.map fun l => { taskId := T.taskId, labelId := l })

/-- `COMMIT`, with the audit row of the transaction. -/
def commitLabelTx (T : LabelTx) (entry : TaskAuditRecord) : Service Unit :=
  .atomic .commitLabels (fun _ => true) fun e s =>
    match e.fault, replaceLabels T s, s.db.taskAudit.insert entry with
    | .failed, _, _ | _, none, _ | _, _, none =>
      (.error (databaseError e.detail), endLabelTx e.pid s)
    | fault, some taskLabels, some taskAudit =>
      (if fault = .none then .ok () else .error (databaseError e.detail),
        endLabelTx e.pid { s with
          db.taskLabels := taskLabels
          db.taskAudit := taskAudit
          history.commits := s.history.commits ++ [e.pid]
          history.replaced := (e.pid, T.taskId, T.wanted) :: s.history.replaced })

def setTaskLabels (app : App) (tenantId taskId actorId : Uuid) (labelIds : List Uuid) :
    Service (List LabelRecord) := do
  let labels ← select fun _ s => orderLabels app <|
    s.db.labels.select fun l => l.tenantId = tenantId && labelIds.contains l.id
  if labels.length ≠ labelIds.length then .fail (.notFound "one or more labels not found")
  else
    let T ← findLabelsToDelete taskId labelIds
    let T ← deleteFoundLabels T
    let T ← insertMissingLabels T
    let auditId ← newUuid
    let now ← utcNow
    let entry : TaskAuditRecord :=
      { id := auditId, taskId := some taskId, tenantId, actorUserId := actorId,
        eventType := "task_labels_updated",
        payload := .obj [("label_ids", .arr (labelIds.map fun l => .str (app.lib.uuidString l))),
          ("labels", .arr (labels.map fun l => .str l.name))],
        createdAt := now }
    inLabelTx fun _ s => (s.db.taskAudit.insert entry).map fun _ => ((), s)
    commitLabelTx T entry
    return labels

end Db

end Fluxa
