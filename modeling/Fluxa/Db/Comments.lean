import Fluxa.Db.Listing

/-!
# Db — comments

`db/comments.rs` with the check of `domain/comments.rs`.  Tasks, tenants and users are never deleted, so the foreign keys of a comment hold once its task has been found.
-/

namespace Fluxa
open Interleave

/-- `MAX_COMMENT_BODY_LENGTH`. -/
def maxCommentBodyLength : Nat := 4000

def validateCommentBody (body : String) : Except AppError String :=
  let trimmed := trim body
  if trimmed = "" then .error (.validation "comment body must not be empty")
  else if charCount trimmed > maxCommentBodyLength then
    .error (.validation s!"comment body must be at most {maxCommentBodyLength} characters")
  else .ok trimmed

namespace Db

/-- The audit payload of a comment that is added or deleted. -/
def commentPayload (app : App) (commentId : Uuid) : Value :=
  .obj [("comment_id", .str (app.lib.uuidString commentId))]

def createComment (app : App) (tenantId taskId authorId : Uuid) (body : String) :
    Service CommentRecord := do
  let now ← utcNow
  let id ← newUuid
  let auditId ← newUuid
  let comment : CommentRecord :=
    { id, taskId, tenantId, authorId, body, createdAt := now, updatedAt := now }
  let entry : TaskAuditRecord :=
    { id := auditId, taskId := some taskId, tenantId, actorUserId := authorId,
      eventType := "task_comment_added", payload := commentPayload app id, createdAt := now }
  sql .quiet fun e s =>
    match s.db.comments.insert comment, s.db.taskAudit.insert entry with
    | some comments, some taskAudit => (.ok comment, { s with
        db.comments := comments
        db.taskAudit := taskAudit
        history := noteCreated e .comment id s.history })
    | _, _ => (.error uniqueViolation, s)

def listTaskComments (tenantId taskId : Uuid) (cursor : Option AuditCursor) (limit : Nat) :
    Service (List CommentRecord × Option AuditCursor) :=
  select fun _ s => listCreated (fun c => (c.createdAt, c.id)) cursor limit <|
    s.db.comments.select fun c => c.tenantId = tenantId && c.taskId = taskId

/-- The comment of the task. -/
def isComment (tenantId taskId commentId : Uuid) (c : CommentRecord) : Bool :=
  c.id = commentId && c.tenantId = tenantId && c.taskId = taskId

def getComment (tenantId taskId commentId : Uuid) : Service CommentRecord := do
  let comment ← select fun _ s =>
    (s.db.comments.find? commentId).filter (isComment tenantId taskId commentId)
  Prog.okOr comment (.notFound "comment not found")

def updateComment (tenantId taskId commentId : Uuid) (body : String) : Service CommentRecord :=
  sql .quiet fun e s =>
    let f := fun (c : CommentRecord) => { c with body, updatedAt := e.now }
    match (s.db.comments.find? commentId).filter (isComment tenantId taskId commentId) with
    | none => (.error (.notFound "comment not found"), s)
    | some c => (.ok (f c),
        { s with db.comments := s.db.comments.update (isComment tenantId taskId commentId) f })

def deleteComment (app : App) (tenantId taskId commentId actorId : Uuid) : Service Unit := do
  let auditId ← newUuid
  let auditAt ← utcNow
  let entry : TaskAuditRecord :=
    { id := auditId, taskId := some taskId, tenantId, actorUserId := actorId,
      eventType := "task_comment_deleted", payload := commentPayload app commentId,
      createdAt := auditAt }
  sql .quiet fun _ s =>
    match (s.db.comments.find? commentId).filter (isComment tenantId taskId commentId),
        s.db.taskAudit.insert entry with
    | none, _ => (.error (.notFound "comment not found"), s)
    | some _, some taskAudit => (.ok (), { s with
        db.comments := s.db.comments.delete (isComment tenantId taskId commentId)
        db.taskAudit := taskAudit })
    | some _, none => (.error uniqueViolation, s)

end Db

end Fluxa
