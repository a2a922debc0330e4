import Fluxa.Db.Listing

/-!
# Db — attachments

`db/attachments.rs` with the checks of `domain/attachments.rs`.
-/

namespace Fluxa
open Interleave

/-- `MAX_ATTACHMENTS_PER_TASK`. -/
def maxAttachmentsPerTask : Nat := 20

/-- `MAX_ATTACHMENT_FILE_NAME_LENGTH`. -/
def maxAttachmentFileNameLength : Nat := 255

/-- `MAX_ATTACHMENT_CONTENT_TYPE_LENGTH`. -/
def maxAttachmentContentTypeLength : Nat := 100

/-- `DEFAULT_ATTACHMENT_CONTENT_TYPE`. -/
def defaultAttachmentContentType : String := "application/octet-stream"

def validateAttachmentFileName (fileName : String) : Except AppError String :=
  let trimmed := trim fileName
  if trimmed = "" then .error (.validation "file_name must not be empty")
  else if charCount trimmed > maxAttachmentFileNameLength then
    .error (.validation s!"file_name must be at most {maxAttachmentFileNameLength} characters")
  else if trimmed.toList.any fun c => isControl c || c = '/' || c = '\\' || c = '"' then
    .error (.validation
      "file_name must not contain path separators, quotes, or control characters")
  else if trimmed = "." ∨ trimmed = ".." then .error (.validation "file_name is not allowed")
  else .ok trimmed

def normalizeAttachmentContentType (contentType : Option String) : String :=
  let candidate := (contentType.map trim).getD ""
  if candidate = "" ∨ charCount candidate > maxAttachmentContentTypeLength ∨
      !candidate.toList.all fun c => isAsciiGraphic c || c = ' ' then defaultAttachmentContentType
  else candidate

namespace Db

/-- `create_attachment`.  What has been uploaded is no parameter of the source; it is recorded with
the row. -/
def createAttachment (app : App) (attachmentId tenantId taskId uploadedBy : Uuid)
    (fileName contentType : String) (sizeBytes : Nat) (storageKey : String) (content : Bytes) :
    Service AttachmentRecord := do
  let now ← utcNow
  let auditId ← newUuid
  let attachment : AttachmentRecord :=
    { id := attachmentId, taskId, tenantId, uploadedBy, fileName, contentType, sizeBytes,
      storageKey, createdAt := now, content }
  let entry : TaskAuditRecord :=
    { id := auditId, taskId := some taskId, tenantId, actorUserId := uploadedBy,
      eventType := "task_attachment_added"
      payload := .obj [("attachment_id", .str (app.lib.uuidString attachmentId)),
        ("file_name", .str fileName), ("size_bytes", .num sizeBytes)]
      createdAt := now }
  sql .insertAttachment fun e s =>
    match s.db.attachments.insert attachment, s.db.taskAudit.insert entry with
    | some attachments, some taskAudit => (.ok attachment, { s with
        db.attachments := attachments
        db.taskAudit := taskAudit
        history := noteCreated e .attachment attachmentId s.history })
    | _, _ => (.error uniqueViolation, s)

/-- The attachments of the task. -/
def isOfTask (tenantId taskId : Uuid) (a : AttachmentRecord) : Bool :=
  a.tenantId = tenantId && a.taskId = taskId

def listTaskAttachments (tenantId taskId : Uuid) : Service (List AttachmentRecord) :=
  select fun _ s => (s.db.attachments.select (isOfTask tenantId taskId)).insertionSort
    fun a b => !keyBelow (a.createdAt, a.id) (b.createdAt, b.id)

def countTaskAttachments (tenantId taskId : Uuid) : Service Nat :=
  select fun _ s => s.db.attachments.count (isOfTask tenantId taskId)

/-- The attachment of the task. -/
def isAttachment (tenantId taskId attachmentId : Uuid) (a : AttachmentRecord) : Bool :=
  a.id = attachmentId && a.tenantId = tenantId && a.taskId = taskId

/-- The row of the attachment, if it is one of the task. -/
def findAttachment (s : AppState) (tenantId taskId attachmentId : Uuid) : Option AttachmentRecord :=
  (s.db.attachments.find? attachmentId).filter (isAttachment tenantId taskId attachmentId)

/-- The result of a statement that finds no attachment. -/
def attachmentNotFound : AppError := .notFound "attachment not found"

def getAttachment (tenantId taskId attachmentId : Uuid) : Service AttachmentRecord := do
  Prog.okOr (← select fun _ s => findAttachment s tenantId taskId attachmentId) attachmentNotFound

def deleteAttachment (app : App) (tenantId taskId attachmentId actorId : Uuid) :
    Service AttachmentRecord := do
  let auditId ← newUuid
  let auditAt ← utcNow
  sql .quiet fun _ s =>
    match findAttachment s tenantId taskId attachmentId with
    | none => (.error attachmentNotFound, s)
    | some a =>
      let entry : TaskAuditRecord :=
        { id := auditId, taskId := some taskId, tenantId, actorUserId := actorId,
          eventType := "task_attachment_deleted"
          payload := .obj [("attachment_id", .str (app.lib.uuidString a.id)),
            ("file_name", .str a.fileName)]
          createdAt := auditAt }
      match s.db.taskAudit.insert entry with
      | none => (.error uniqueViolation, s)
      | some taskAudit => (.ok a, { s with
          db.attachments := s.db.attachments.delete (isAttachment tenantId taskId attachmentId)
          db.taskAudit := taskAudit })

end Db

end Fluxa
