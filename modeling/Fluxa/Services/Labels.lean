import Fluxa.Db.Labels
import Fluxa.Services.Audit
import Fluxa.Services.Tasks

/-!
# Services — labels

`services/labels.rs`: the operations on labels.
-/

namespace Fluxa
open Interleave Db

namespace Labels

/-- The audit payload of a label that is created or updated. -/
def labelPayload (label : LabelRecord) : Value :=
  .obj [("name", .str label.name), ("color", .ofOption label.color)]

def createLabel (app : App) (tenantId actorId : Uuid) (input : CreateLabelInput) :
    Service LabelRecord := do
  let label ← Db.createLabel app tenantId actorId input
  recordEvent (some tenantId) (some actorId) "label" (some label.id) "label.created"
    (labelPayload label)
  return label

def updateLabel (app : App) (tenantId labelId actorId : Uuid) (input : UpdateLabelInput) :
    Service LabelRecord := do
  let label ← Db.updateLabel app tenantId labelId actorId input
  recordEvent (some tenantId) (some actorId) "label" (some label.id) "label.updated"
    (labelPayload label)
  return label

def deleteLabel (tenantId labelId actorId : Uuid) : Service Unit := do
  let label ← Db.deleteLabel tenantId labelId
  let _ ← Cache.bumpTenantCacheVersion tenantId
  recordEvent (some tenantId) (some actorId) "label" (some labelId) "label.deleted"
    (.obj [("name", .str label.name)])

def listLabels (app : App) (tenantId : Uuid) : Service (List LabelRecord) :=
  Db.listLabels app tenantId

def listTaskLabels (app : App) (tenantId taskId : Uuid) : Service (List LabelRecord) := do
  let _ ← Tasks.getTask tenantId taskId
  Db.listTaskLabels app tenantId taskId

def setTaskLabels (app : App) (tenantId taskId actorId : Uuid) (labelIds : List Uuid) :
    Service (List LabelRecord) := do
  let labelIds ← Prog.lift (validateTaskLabelIds labelIds)
  let _ ← Tasks.getTask tenantId taskId
  let labels ← Db.setTaskLabels app tenantId taskId actorId labelIds
  let _ ← Cache.bumpTenantCacheVersion tenantId .afterCommit
  return labels

end Labels

end Fluxa
