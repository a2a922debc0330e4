import Fluxa.Db.Accounts
import Fluxa.Db.Comments
import Fluxa.Db.Notifications
import Fluxa.Services.Tasks

/-!
# Services — comments

`services/comments.rs`: the comments on a task, and the notification of its assignee.
-/

namespace Fluxa
open Interleave Db

namespace Comments

def listComments (tenantId taskId : Uuid) (cursor : Option AuditCursor) (limit : Nat) :
    Service (List CommentRecord × Option AuditCursor) := do
  let _ ← Tasks.getTask tenantId taskId
  listTaskComments tenantId taskId cursor limit

/-- The notification of a task's assignee about a comment. -/
def commentNotification (app : App) (task : TaskRecord) (tenantId assigneeId : Uuid)
    (recipient : String) (comment : CommentRecord) : NewNotification :=
  { tenantId := some tenantId, userId := some assigneeId, kind := .taskCommented, recipient
    payload := .obj [("task_id", .str (app.lib.uuidString comment.taskId)), ("title", .str task.title),
      ("comment_id", .str (app.lib.uuidString comment.id)), ("body", .str comment.body)]
    dedupeKey := none }

/-- Notify the assignee, unless the author is the assignee or the kind is switched off; errors are
swallowed. -/
def notifyAssignee (app : App) (task : TaskRecord) (tenantId authorId : Uuid)
    (comment : CommentRecord) : Service Unit :=
  match task.assigneeId with
  | none => return ()
  | some assigneeId =>
    if assigneeId = authorId then return ()
    else do
      let enabled ← (isNotificationKindEnabled assigneeId .taskCommented).attempt
      if enabled.toOption.getD true then
        match ← (getUserById assigneeId).attempt with
        | .error _ => return ()
        | .ok assignee => do
          let _ ← (enqueueNotification (commentNotification app task tenantId assigneeId
            assignee.email comment) app.config.maxJobAttempts).attempt
          return ()
      else return ()

def createComment (app : App) (tenantId taskId authorId : Uuid) (body : String) :
    Service CommentRecord := do
  let task ← Tasks.getTask tenantId taskId
  let comment ← Db.createComment app tenantId taskId authorId body
  notifyAssignee app task tenantId authorId comment
  return comment

def updateComment (tenantId taskId commentId actorId : Uuid) (body : String) :
    Service CommentRecord := do
  let _ ← Tasks.getTask tenantId taskId
  let comment ← getComment tenantId taskId commentId
  Prog.ensure (comment.authorId = actorId) (.forbidden "only the comment author can edit a comment")
  Db.updateComment tenantId taskId commentId body

def deleteComment (app : App) (tenantId taskId commentId actorId : Uuid) (role : MembershipRole) :
    Service Unit := do
  let _ ← Tasks.getTask tenantId taskId
  let comment ← getComment tenantId taskId commentId
  Prog.ensure (comment.authorId = actorId || role = .owner || role = .admin)
    (.forbidden "only the comment author or an owner/admin can delete a comment")
  Db.deleteComment app tenantId taskId commentId actorId

end Comments

end Fluxa
