import Fluxa.Db.Tasks

/-!
# Db — listings

`pagination.rs`, and the listings of `db/tasks.rs`.  A listing fetches one row more than it returns; when it gets that row, there is a next page.
-/

namespace Fluxa

/-- `AuditCursor`. -/
structure AuditCursor where
  createdAt : Time
  id : Uuid
deriving DecidableEq, Repr

/-! ### Cursors as text -/

/-- A cursor, whose time is under the given field name, as text. -/
def encodeCursor (app : App) (field : String) (c : Time × Uuid) : String :=
  app.lib.base64Encode (app.lib.cursorJson field c)

def decodeCursor (app : App) (field value : String) : Except AppError (Time × Uuid) :=
  match app.lib.base64Decode value with
  | .error error => .error (.validation ("invalid cursor encoding: " ++ error))
  | .ok bytes =>
    match app.lib.parseCursorJson field bytes with
    | .error error => .error (.validation ("invalid cursor payload: " ++ error))
    | .ok c => .ok c

def Cursor.encode (app : App) (c : Cursor) : String :=
  encodeCursor app "updated_at" (c.updatedAt, c.id)

def Cursor.decode (app : App) (value : String) : Except AppError Cursor :=
  (decodeCursor app "updated_at" value).map fun c => ⟨c.1, c.2⟩

/-- The cursor of a query, where it has one. -/
def Cursor.ofToken (app : App) : Option String → Except AppError (Option Cursor)
  | none => .ok none
  | some value => (Cursor.decode app value).map some

def AuditCursor.encode (app : App) (c : AuditCursor) : String :=
  encodeCursor app "created_at" (c.createdAt, c.id)

def AuditCursor.decode (app : App) (value : String) : Except AppError AuditCursor :=
  (decodeCursor app "created_at" value).map fun c => ⟨c.1, c.2⟩

/-- The cursor of a query, where it has one. -/
def AuditCursor.ofToken (app : App) : Option String → Except AppError (Option AuditCursor)
  | none => .ok none
  | some value => (AuditCursor.decode app value).map some

namespace Db
open Interleave

/-- The page and the cursor for the next one, from the `limit + 1` rows fetched. -/
def lookAhead {α C : Type} (limit : Nat) (cursorOf : α → C) (fetched : List α) :
    List α × Option C :=
  if fetched.length > limit then
    (fetched.take limit, (fetched.take limit).getLast?.map cursorOf)
  else (fetched, none)

/-- With one look-ahead, there is a cursor exactly when there are more rows than the limit. -/
theorem lookAhead_take {α C : Type} {limit : Nat} {cursorOf : α → C} (rows : List α) :
    lookAhead limit cursorOf (rows.take (limit + 1)) =
      (rows.take limit,
        if limit < rows.length then (rows.take limit).getLast?.map cursorOf else none) := by
  unfold lookAhead
  by_cases h : limit < rows.length
  · have hlong : limit < (rows.take (limit + 1)).length := by
      rw [List.length_take]
      omega
    rw [if_pos hlong, if_pos h, List.take_take, min_eq_left (Nat.le_succ limit)]
  · have hshort : ¬ limit < (rows.take (limit + 1)).length := by
      rw [List.length_take]
      omega
    rw [if_neg hshort, if_neg h, List.take_of_length_le (by omega), List.take_of_length_le (by omega)]

/-- The rows that come after the cursor in `ORDER BY created_at DESC, id DESC`, in that order, with
one look-ahead. -/
def listCreated {α : Type} (key : α → Time × Uuid) (cursor : Option AuditCursor) (limit : Nat)
    (rows : List α) : List α × Option AuditCursor :=
  let after := rows.filter fun a => wanted cursor fun c => keyBelow (key a) (c.createdAt, c.id)
  lookAhead limit (fun a => ⟨(key a).1, (key a).2⟩)
    ((after.insertionSort fun a b => !keyBelow (key a) (key b)).take (limit + 1))

/-- The tasks that match the filters and come after the cursor, in the order of the listings. -/
def orderedMatches (app : App) (s : AppState) (tenantId : Uuid) (filters : TaskFilters)
    (cursor : Option Cursor) : List TaskRecord :=
  orderTasks <| s.db.tasks.select fun t =>
    matchesFilters app s tenantId filters t && belowCursor cursor t

/-- What `list_tasks` returns. -/
def tasksPage (app : App) (tenantId : Uuid) (filters : TaskFilters) (cursor : Option Cursor)
    (limit : Nat) (s : AppState) : List TaskRecord × Option Cursor :=
  lookAhead limit (fun t => ⟨t.updatedAt, t.id⟩)
    ((orderedMatches app s tenantId filters cursor).take (limit + 1))

def listTasks (app : App) (tenantId : Uuid) (filters : TaskFilters) (cursor : Option Cursor)
    (limit : Nat) : Service (List TaskRecord × Option Cursor) :=
  select fun _ s => tasksPage app tenantId filters cursor limit s

def listTaskAudit (tenantId taskId : Uuid) (cursor : Option AuditCursor) (limit : Nat) :
    Service (List TaskAuditRecord × Option AuditCursor) :=
  select fun _ s => listCreated (fun a => (a.createdAt, a.id)) cursor limit <|
    s.db.taskAudit.select fun a => a.tenantId = tenantId && a.taskId = some taskId

/-- `DashboardSummary`. -/
structure DashboardSummary where
  openTaskCount : Nat
  inProgressTaskCount : Nat
  doneTaskCount : Nat
  overdueTaskCount : Nat
  recentActivityCount : Nat
deriving DecidableEq, Repr

/-- The task is overdue. -/
def isOverdue (now : Time) (t : TaskRecord) : Bool :=
  compares t.dueAt (· ≤ now) && t.status ≠ .done && t.status ≠ .archived

/-- `created_at >= now() - interval '7 days'`. -/
def isRecent (now createdAt : Time) : Bool := now ≤ createdAt + seconds (7 * 24 * 3600)

def dashboardSummary (tenantId : Uuid) : Service DashboardSummary :=
  select fun e s =>
    let tasks := s.db.tasks.select fun t => t.tenantId = tenantId
    { openTaskCount := tasks.countP fun t => t.status = .open
      inProgressTaskCount := tasks.countP fun t => t.status = .inProgress
      doneTaskCount := tasks.countP fun t => t.status = .done
      overdueTaskCount := tasks.countP (isOverdue e.now)
      recentActivityCount :=
        s.db.taskAudit.count fun a => a.tenantId = tenantId && isRecent e.now a.createdAt }

end Db

end Fluxa
