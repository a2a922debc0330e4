import Fluxa.Db.Listing

/-!
# Services — audit

`services/audit.rs` and `db/audit.rs`.
-/

namespace Fluxa
open Interleave

def Db.recordAuditEvent (tenantId actorUserId : Option Uuid) (subjectType : String)
    (subjectId : Option Uuid) (eventType : String) (payload : Value) : Service Unit := do
  let id ← newUuid
  sql .quiet fun e s =>
    match s.db.auditLog.insert
        { id, tenantId, actorUserId, subjectType, subjectId, eventType, payload,
          createdAt := e.now } with
    | some table => (.ok (), { s with db.auditLog := table })
    | none => (.error uniqueViolation, s)

def Db.listAuditEvents (tenantId : Uuid) (cursor : Option AuditCursor) (limit : Nat) :
    Service (List AuditEventRecord × Option AuditCursor) :=
  select fun _ s => listCreated (fun a => (a.createdAt, a.id)) cursor limit <|
    s.db.auditLog.select fun a => a.tenantId = some tenantId

/-- `record_event`: an error of the audit write is swallowed. -/
def recordEvent (tenantId actorUserId : Option Uuid) (subjectType : String)
    (subjectId : Option Uuid) (eventType : String) (payload : Value) : Service Unit := do
  let _ ← (Db.recordAuditEvent tenantId actorUserId subjectType subjectId eventType
    payload).attempt
  return ()

/-- `list_events`. -/
def listEvents (app : App) (tenantId : Uuid) (cursor : Option AuditCursor) (limit : Nat) :
    Service (List AuditEventRecord × Option String) := do
  let (entries, nextCursor) ← Db.listAuditEvents tenantId cursor limit
  return (entries, nextCursor.map (·.encode app))

end Fluxa
