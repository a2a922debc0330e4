import Fluxa.Db.Listing

/-!
# Db — projects

`db/projects.rs` with the checks of `domain/projects.rs`.
-/

namespace Fluxa

/-- `CreateProjectInput`. -/
structure CreateProjectInput where
  name : String
  description : Option String
deriving DecidableEq, Repr

def CreateProjectInput.validate (input : CreateProjectInput) : Except AppError CreateProjectInput :=
  if isBlank input.name then .error (.validation "project name is required") else .ok input

/-- `UpdateProjectInput`: an absent field is left alone, a present description may be null. -/
structure UpdateProjectInput where
  name : Option String
  description : Option (Option String)
deriving DecidableEq, Repr

def UpdateProjectInput.validate (input : UpdateProjectInput) : Except AppError UpdateProjectInput :=
  if input.name.any isBlank then .error (.validation "project name cannot be empty")
  else if input.name = none ∧ input.description = none then
    .error (.validation "at least one project field must be provided")
  else .ok input

/-- `ProjectSummary`. -/
structure ProjectSummary where
  projectId : Uuid
  projectName : String
  openTaskCount : Nat
  inProgressTaskCount : Nat
  doneTaskCount : Nat
  overdueTaskCount : Nat
  recentActivityCount : Nat
deriving DecidableEq, Repr

namespace Db
open Interleave

/-- Another project of the tenant has the name, archived ones included: `UNIQUE (tenant_id, name)`. -/
def projectNameTaken (s : AppState) (project : ProjectRecord) : Bool :=
  s.db.projects.any fun p => p.id ≠ project.id && p.tenantId = project.tenantId &&
    p.name = project.name

def createProject (tenantId actorId : Uuid) (input : CreateProjectInput) :
    Service ProjectRecord := do
  let now ← utcNow
  let id ← newUuid
  let project : ProjectRecord :=
    { id, tenantId, name := trim input.name, description := input.description,
      createdBy := actorId, updatedBy := actorId, createdAt := now, updatedAt := now,
      archivedAt := none }
  sql .quiet fun e s =>
    if projectNameTaken s project then (.error uniqueViolation, s)
    else
      match s.db.projects.insert project with
      | some projects => (.ok project, { s with
          db.projects := projects
          history := noteCreated e .project id s.history })
      | none => (.error uniqueViolation, s)

def listProjects (tenantId : Uuid) : Service (List ProjectRecord) :=
  select fun _ s =>
    (s.db.projects.select fun p => p.tenantId = tenantId && p.archivedAt.isNone).insertionSort
      fun a b => !keyBelow (a.updatedAt, a.id) (b.updatedAt, b.id)

/-- The tenant's project, unless it is archived. -/
def activeProject (s : AppState) (tenantId projectId : Uuid) : Option ProjectRecord :=
  (s.db.projects.find? projectId).filter fun p => p.tenantId = tenantId && p.archivedAt.isNone

def getProject (tenantId projectId : Uuid) : Service (Option ProjectRecord) :=
  select fun _ s => activeProject s tenantId projectId

/-- The audit rows of the project's tasks that the summary counts. -/
def isProjectActivity (s : AppState) (p : ProjectRecord) (now : Time) (a : TaskAuditRecord) :
    Bool :=
  a.tenantId = p.tenantId && isRecent now a.createdAt &&
    s.db.tasks.any fun t => a.taskId = some t.id && t.tenantId = a.tenantId &&
      t.projectId = some p.id

def projectSummary (tenantId projectId : Uuid) : Service (Option ProjectSummary) :=
  select fun e s => (activeProject s tenantId projectId).map fun p =>
    let tasks := s.db.tasks.select fun t => t.projectId = some p.id && t.tenantId = p.tenantId
    { projectId := p.id
      projectName := p.name
      openTaskCount := tasks.countP fun t => t.status = .open
      inProgressTaskCount := tasks.countP fun t => t.status = .inProgress
      doneTaskCount := tasks.countP fun t => t.status = .done
      overdueTaskCount := tasks.countP (isOverdue e.now)
      recentActivityCount := s.db.taskAudit.count (isProjectActivity s p e.now) }

/-- `UPDATE projects SET .. WHERE tenant_id = $1 AND id = $2 AND ..`. -/
def changeProject (tenantId projectId : Uuid) (guard : ProjectRecord → Bool)
    (f : ProjectRecord → ProjectRecord) (hf : Relational.Table.KeepsKey ProjectRecord.id f)
    (missing : String) : Service ProjectRecord :=
  sql .quiet fun e s =>
    match (s.db.projects.find? projectId).filter fun p => p.tenantId = tenantId && guard p with
    | none => (.error (.notFound missing), s)
    | some p =>
      if projectNameTaken s (f p) then (.error uniqueViolation, s)
      else (.ok (f p), { s with
        db.projects := s.db.projects.update (fun p => p.id = projectId) f hf
        history.commits := s.history.commits ++ [e.pid] })

def updateProject (tenantId projectId actorId : Uuid) (input : UpdateProjectInput) :
    Service ProjectRecord := do
  let now ← utcNow
  changeProject tenantId projectId (fun p => p.archivedAt.isNone)
    (fun p => { p with
      name := (input.name.map trim).getD p.name
      description := input.description.getD p.description
      updatedBy := actorId
      updatedAt := now }) ⟨fun _ => rfl⟩ "project not found"

def archiveProject (tenantId projectId actorId : Uuid) : Service ProjectRecord := do
  let now ← utcNow
  changeProject tenantId projectId (fun p => p.archivedAt.isNone)
    (fun p => { p with archivedAt := some now, updatedBy := actorId, updatedAt := now })
    ⟨fun _ => rfl⟩ "project not found"

def restoreProject (tenantId projectId actorId : Uuid) : Service ProjectRecord := do
  let now ← utcNow
  changeProject tenantId projectId (fun p => p.archivedAt.isSome)
    (fun p => { p with archivedAt := none, updatedBy := actorId, updatedAt := now })
    ⟨fun _ => rfl⟩ "archived project not found"

end Db

end Fluxa
