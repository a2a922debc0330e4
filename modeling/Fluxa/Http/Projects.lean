import Fluxa.Http.Members
import Fluxa.Services.Labels
import Fluxa.Services.Projects

/-!
# Http — the routes of projects and labels

The handlers of `http/handlers.rs` that change projects and labels.
-/

namespace Fluxa.Http
open Interleave Db

/-- The JSON of `ProjectResponse`. -/
def projectResponseValue (app : App) (p : ProjectRecord) : Value :=
  .obj [("id", .str (app.lib.uuidString p.id)), ("tenant_id", .str (app.lib.uuidString p.tenantId)),
    ("name", .str p.name), ("description", .ofOption p.description),
    ("created_by", .str (app.lib.uuidString p.createdBy)),
    ("updated_by", .str (app.lib.uuidString p.updatedBy)),
    ("created_at", .str (app.lib.jsonTime p.createdAt)),
    ("updated_at", .str (app.lib.jsonTime p.updatedAt))]

/-- The JSON of `LabelResponse`. -/
def labelResponseValue (app : App) (l : LabelRecord) : Value :=
  .obj [("id", .str (app.lib.uuidString l.id)), ("tenant_id", .str (app.lib.uuidString l.tenantId)),
    ("name", .str l.name), ("color", .ofOption l.color),
    ("created_by", .str (app.lib.uuidString l.createdBy)),
    ("updated_by", .str (app.lib.uuidString l.updatedBy)),
    ("created_at", .str (app.lib.jsonTime l.createdAt)),
    ("updated_at", .str (app.lib.jsonTime l.updatedAt))]

def createProject (app : App) (user : AuthenticatedUser) (idempotencyKey : Option String)
    (payload : CreateProjectInput) : Service StoredResponse := do
  .lift (ensureAdminRole user.role)
  let input ← .lift payload.validate
  let key ← .lift (requiredIdempotencyKey idempotencyKey)
  idempotent app ⟨user.tenantId, "projects:create", key⟩ (.ok ())
    (fun _ => Projects.createProject user.tenantId user.userId input)
    fun project => createdResponse (projectResponseValue app project)

def updateProject (app : App) (user : AuthenticatedUser) (projectId : Uuid)
    (payload : UpdateProjectInput) : Service Value := do
  .lift (ensureAdminRole user.role)
  let input ← .lift payload.validate
  return projectResponseValue app
    (← Projects.updateProject user.tenantId projectId user.userId input)

def deleteProject (user : AuthenticatedUser) (projectId : Uuid) : Service Unit := do
  .lift (ensureAdminRole user.role)
  Projects.archiveProject user.tenantId user.userId projectId

def restoreProject (app : App) (user : AuthenticatedUser) (projectId : Uuid) : Service Value := do
  .lift (ensureAdminRole user.role)
  return projectResponseValue app (← Projects.restoreProject user.tenantId user.userId projectId)

def createLabel (app : App) (user : AuthenticatedUser) (idempotencyKey : Option String)
    (payload : CreateLabelInput) : Service StoredResponse := do
  .lift (ensureAdminRole user.role)
  let input ← .lift payload.validate
  let key ← .lift (requiredIdempotencyKey idempotencyKey)
  idempotent app ⟨user.tenantId, "labels:create", key⟩ (.ok ())
    (fun _ => Labels.createLabel app user.tenantId user.userId input)
    fun label => createdResponse (labelResponseValue app label)

def updateLabel (app : App) (user : AuthenticatedUser) (labelId : Uuid)
    (payload : UpdateLabelInput) : Service Value := do
  .lift (ensureAdminRole user.role)
  let input ← .lift payload.validate
  return labelResponseValue app
    (← Labels.updateLabel app user.tenantId labelId user.userId input)

def deleteLabel (user : AuthenticatedUser) (labelId : Uuid) : Service Unit := do
  .lift (ensureAdminRole user.role)
  Labels.deleteLabel user.tenantId labelId user.userId

def putTaskLabels (app : App) (user : AuthenticatedUser) (taskId : Uuid) (labelIds : List Uuid) :
    Service (List Value) := do
  .lift (ensureTaskWriteRole user.role)
  return (← Labels.setTaskLabels app user.tenantId taskId user.userId labelIds).map
    (labelResponseValue app)

end Fluxa.Http
