import Fluxa.Db.Projects
import Fluxa.Services.Audit
import Fluxa.State.Cache

/-!
# Services — projects

`services/projects.rs`: the operations on projects.
-/

namespace Fluxa
open Interleave Db

namespace Projects

def listProjects (tenantId : Uuid) : Service (List ProjectRecord) := Db.listProjects tenantId

def getProject (tenantId projectId : Uuid) : Service ProjectRecord := do
  Prog.okOr (← Db.getProject tenantId projectId) (.notFound "project not found")

/-- The audit payload that names a project. -/
def namePayload (project : ProjectRecord) : Value := .obj [("name", .str project.name)]

def createProject (tenantId actorId : Uuid) (input : CreateProjectInput) :
    Service ProjectRecord := do
  let project ← Db.createProject tenantId actorId input
  let _ ← Cache.bumpTenantCacheVersion tenantId
  recordEvent (some tenantId) (some actorId) "project" (some project.id) "project.created"
    (namePayload project)
  return project

def projectSummary (tenantId projectId : Uuid) : Service ProjectSummary := do
  Prog.okOr (← Db.projectSummary tenantId projectId) (.notFound "project not found")

def updateProject (tenantId projectId actorId : Uuid) (input : UpdateProjectInput) :
    Service ProjectRecord := do
  let project ← Db.updateProject tenantId projectId actorId input
  let _ ← Cache.bumpTenantCacheVersion tenantId
  recordEvent (some tenantId) (some actorId) "project" (some project.id) "project.updated"
    (namePayload project)
  return project

def archiveProject (tenantId actorId projectId : Uuid) : Service Unit := do
  let _ ← Db.archiveProject tenantId projectId actorId
  let _ ← Cache.bumpTenantCacheVersion tenantId
  recordEvent (some tenantId) (some actorId) "project" (some projectId) "project.archived"
    (.obj [])

def restoreProject (tenantId actorId projectId : Uuid) : Service ProjectRecord := do
  let project ← Db.restoreProject tenantId projectId actorId
  let _ ← Cache.bumpTenantCacheVersion tenantId
  recordEvent (some tenantId) (some actorId) "project" (some projectId) "project.restored"
    (namePayload project)
  return project

end Projects

end Fluxa
