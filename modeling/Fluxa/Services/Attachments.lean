import Fluxa.Db.Attachments
import Fluxa.Services.Tasks

/-!
# Services — attachments

`services/attachments.rs`: the rows of attachments and the files they stand for.
-/

namespace Fluxa
open Interleave Db

namespace Attachments

def listAttachments (tenantId taskId : Uuid) : Service (List AttachmentRecord) := do
  let _ ← Tasks.getTask tenantId taskId
  listTaskAttachments tenantId taskId

/-- Where the file of an attachment is stored. -/
def storageKey (app : App) (tenantId taskId attachmentId : Uuid) : String :=
  s!"attachments/{app.lib.uuidString tenantId}/{app.lib.uuidString taskId}/{app.lib.uuidString attachmentId}"

/-- The row of a file that has been stored; without it the file is deleted again, and the error of
that is swallowed. -/
def createOrCleanUp (app : App) (tenantId taskId actorId attachmentId : Uuid)
    (fileName contentType : String) (bytes : Bytes) : Service AttachmentRecord := do
  let key := storageKey app tenantId taskId attachmentId
  match ← (createAttachment app attachmentId tenantId taskId actorId fileName contentType
      bytes.length key bytes).attempt with
  | .ok attachment => return attachment
  | .error error =>
    let _ ← (Storage.delete key).attempt
    .fail error

def uploadAttachment (app : App) (tenantId taskId actorId : Uuid) (fileName contentType : String)
    (bytes : Bytes) : Service AttachmentRecord := do
  let _ ← Tasks.getTask tenantId taskId
  let count ← countTaskAttachments tenantId taskId
  Prog.ensure (count < maxAttachmentsPerTask)
    (.validation s!"a task can have at most {maxAttachmentsPerTask} attachments")
  let attachmentId ← newUuid
  Storage.put (storageKey app tenantId taskId attachmentId) bytes
  createOrCleanUp app tenantId taskId actorId attachmentId fileName contentType bytes

def downloadAttachment (tenantId taskId attachmentId : Uuid) :
    Service (AttachmentRecord × Bytes) := do
  let _ ← Tasks.getTask tenantId taskId
  let attachment ← getAttachment tenantId taskId attachmentId
  let bytes ← Prog.okOr (← Storage.get attachment.storageKey)
    (.notFound "attachment content is no longer available")
  return (attachment, bytes)

def deleteAttachment (app : App) (tenantId taskId attachmentId actorId : Uuid)
    (role : MembershipRole) : Service Unit := do
  let _ ← Tasks.getTask tenantId taskId
  let attachment ← getAttachment tenantId taskId attachmentId
  Prog.ensure (attachment.uploadedBy = actorId || role = .owner || role = .admin)
    (.forbidden "only the uploader or an owner/admin can delete an attachment")
  let deleted ← Db.deleteAttachment app tenantId taskId attachmentId actorId
  let _ ← (Storage.delete deleted.storageKey).attempt
  return ()

end Attachments

end Fluxa
