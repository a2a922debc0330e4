import Fluxa.Http.Quiet
import Fluxa.Http.Tasks
import Fluxa.Texts.Headers

/-!
# Attachments — Downloads

The headers with which `download_task_attachment` returns a file.

**A download has well-formed headers** (`download_headers_well_formed`).  The name and the content type that an upload stores give valid header values.  A client reads the quoted file name as what stands between the quotes, which is the stored name where that is ASCII.

**No download fails for its headers** (`downloads_well_formed`), in any run of uploads, downloads and deletions.
-/

namespace Fluxa
open Interleave Relational Db Contract Headers

/-- A response with a file. -/
structure Download where
  contentType : HeaderValue
  contentDisposition : HeaderValue
  body : Bytes

namespace Http

/-- The file name with an underscore for each character that a header does not show. -/
def safeName (fileName : String) : String :=
  String.ofList (fileName.toList.map fun c => if isAsciiGraphic c || c = ' ' then c else '_')

/-- The value of `Content-Disposition`. -/
def contentDisposition (fileName : String) : String :=
  s!"attachment; filename=\"{safeName fileName}\""

/-- The headers and the body as a response; none where a text is not the value of a header, and the
framework answers with an error of its own. -/
def downloadResponse (attachment : AttachmentRecord) (bytes : Bytes) : Option Download := do
  let contentType ← ofString? attachment.contentType.toList
  let disposition ← ofString? (contentDisposition attachment.fileName).toList
  return ⟨contentType, disposition, bytes⟩

def downloadTaskAttachment (user : AuthenticatedUser) (taskId attachmentId : Uuid) :
    Service (Option Download) := do
  let (attachment, bytes) ← Attachments.downloadAttachment user.tenantId taskId attachmentId
  return downloadResponse attachment bytes

end Http

open Http

/-- The parameter `filename` that a client reads in the value of `Content-Disposition`, where that
is an attachment with this parameter alone. -/
def readFilename (value : List Char) : Option (List Char) :=
  if "attachment; filename=\"".toList.isPrefixOf value then
    match unquote (value.drop "attachment; filename=\"".toList.length) with
    | some (name, []) => some name
    | _ => none
  else none

/-- The name and the content type are as an upload stores them. -/
structure Uploaded (attachment : AttachmentRecord) : Prop where
  name : ∃ raw, validateAttachmentFileName raw = .ok attachment.fileName
  contentType : ∃ declared, attachment.contentType = normalizeAttachmentContentType declared

variable {attachment : AttachmentRecord} {raw name : String} {c : Char}

/-! ### What an upload stores -/

/-- An accepted name has no control character, no path separator and no quote. -/
theorem chars_of_validate (h : validateAttachmentFileName raw = .ok name) :
    ∀ c ∈ name.toList, isControl c = false ∧ c ≠ '/' ∧ c ≠ '\\' ∧ c ≠ '"' := by
  unfold validateAttachmentFileName at h
  simp only at h
  split at h
  · exact nomatch h
  split at h
  · exact nomatch h
  split at h
  · exact nomatch h
  next hchars =>
  split at h
  · exact nomatch h
  obtain rfl := Except.ok.inj h
  intro c hc
  have hplain := fun he => hchars (List.any_eq_true.mpr ⟨c, hc, he⟩)
  simpa [not_or, and_assoc] using hplain

theorem isPrintable_iff : isPrintable c = true ↔ (isAsciiGraphic c || decide (c = ' ')) = true := by
  have hspace : c = ' ' ↔ c.toNat = 32 :=
    ⟨fun h => h ▸ rfl, fun h => Char.toNat_inj.mp h⟩
  simp only [isPrintable, isAsciiGraphic, Bool.or_eq_true, Bool.and_eq_true, decide_eq_true_eq,
    hspace]
  omega

/-- A content type that an upload stores is printable. -/
theorem contentType_printable (declared : Option String) :
    ∀ c ∈ (normalizeAttachmentContentType declared).toList, isPrintable c = true := by
  unfold normalizeAttachmentContentType
  simp only
  split
  · exact List.all_eq_true.mp (by decide)
  next h =>
  have hall := (not_or.mp (not_or.mp h).2).2
  rw [Bool.not_eq_true', Bool.not_eq_false, List.all_eq_true] at hall
  exact fun c hc => isPrintable_iff.mpr (hall c hc)

/-! ### The file name -/

theorem safeName_toList (fileName : String) : (safeName fileName).toList =
    fileName.toList.map fun c => if isAsciiGraphic c || c = ' ' then c else '_' :=
  String.toList_ofList

theorem safeName_printable (fileName : String) :
    ∀ c ∈ (safeName fileName).toList, isPrintable c = true := by
  rw [safeName_toList]
  intro c hc
  obtain ⟨d, -, rfl⟩ := List.mem_map.mp hc
  split
  · next h => exact isPrintable_iff.mpr h
  · rfl

/-- Of an accepted name, nothing is left between the quotes that stands for something else. -/
theorem safeName_plain (h : validateAttachmentFileName raw = .ok name) :
    ∀ c ∈ (safeName name).toList, Headers.isPlain c = true := by
  rw [safeName_toList]
  intro c hc
  obtain ⟨d, hd, rfl⟩ := List.mem_map.mp hc
  obtain ⟨-, -, hbackslash, hquote⟩ := chars_of_validate h d hd
  split
  · next hprintable =>
    have hrange := isPrintable_iff.mpr hprintable
    simp only [isPrintable, Bool.and_eq_true, decide_eq_true_eq] at hrange
    simp only [Headers.isPlain, Bool.and_eq_true, decide_eq_true_eq]
    exact ⟨⟨⟨hquote, hbackslash⟩, hrange.1⟩, by omega⟩
  · rfl

/-- An accepted name in ASCII is safe as it is. -/
theorem safeName_ascii (h : validateAttachmentFileName raw = .ok name)
    (hascii : ∀ c ∈ name.toList, c.toNat < 128) : safeName name = name := by
  refine String.toList_injective ((safeName_toList name).trans ?_)
  refine (List.map_congr_left fun c hc => if_pos (isPrintable_iff.mp ?_)).trans (List.map_id _)
  have hcontrol := (chars_of_validate h c hc).1
  have hlt := hascii c hc
  simp only [isControl, Bool.or_eq_false_iff, decide_eq_false_iff_not, Bool.and_eq_false_iff]
    at hcontrol
  simp only [isPrintable, Bool.and_eq_true, decide_eq_true_eq]
  omega

theorem contentDisposition_toList (fileName : String) : (contentDisposition fileName).toList =
    "attachment; filename=\"".toList ++ ((safeName fileName).toList ++ ['"']) := by
  have htext : contentDisposition fileName =
      "attachment; filename=\"" ++ safeName fileName ++ "\"" := rfl
  rw [htext, String.toList_append, String.toList_append, List.append_assoc]
  rfl

theorem contentDisposition_printable (fileName : String) :
    ∀ c ∈ (contentDisposition fileName).toList, isPrintable c = true := by
  rw [contentDisposition_toList]
  intro c hc
  rcases List.mem_append.mp hc with hc | hc
  · have hall : "attachment; filename=\"".toList.all isPrintable = true := by decide
    exact List.all_eq_true.mp hall c hc
  rcases List.mem_append.mp hc with hc | hc
  · exact safeName_printable fileName c hc
  · rw [List.mem_singleton.mp hc]
    rfl

/-- A client reads what stands between the quotes. -/
theorem readFilename_contentDisposition (h : validateAttachmentFileName raw = .ok name) :
    readFilename (contentDisposition name).toList = some (safeName name).toList := by
  unfold readFilename
  rw [contentDisposition_toList, if_pos (List.isPrefixOf_iff_prefix.mpr (List.prefix_append _ _)),
    List.drop_left, unquote_plain (safeName_plain h)]

/-- The headers of a download are those of the stored name and content type. -/
structure WellFormed (attachment : AttachmentRecord) (response : Download) : Prop where
  contentType : response.contentType.bytes = utf8 attachment.contentType.toList
  disposition : response.contentDisposition.bytes =
    utf8 (contentDisposition attachment.fileName).toList
  /-- What a client reads as the file name. -/
  filename : readFilename (contentDisposition attachment.fileName).toList =
    some (safeName attachment.fileName).toList
  /-- Between the quotes there is nothing that would have to be escaped. -/
  quoted : ∀ c ∈ (safeName attachment.fileName).toList,
    c ≠ '"' ∧ c ≠ '\\' ∧ isControl c = false
  /-- A name in plain ASCII is returned as it is stored. -/
  ascii : (∀ c ∈ attachment.fileName.toList,
      c.toNat < 128 ∧ c ≠ '"' ∧ c ≠ '\\' ∧ isControl c = false) →
    safeName attachment.fileName = attachment.fileName

theorem utf8_of_ofString? {text : List Char} {value : HeaderValue}
    (h : ofString? text = some value) : value.bytes = utf8 text := by
  unfold ofString? at h
  split at h
  · exact Option.some.inj h ▸ rfl
  · exact nomatch h

/-- **A download has well-formed headers**, whatever was accepted as a name and declared as a content
type on upload. -/
theorem download_headers_well_formed {attachment : AttachmentRecord} (h : Uploaded attachment)
    (bytes : Bytes) :
    ∃ response, downloadResponse attachment bytes = some response ∧ response.body = bytes ∧
      WellFormed attachment response := by
  obtain ⟨⟨raw, hraw⟩, declared, htype⟩ := h
  obtain ⟨contentType, hcontentType, -⟩ :=
    ofString?_printable (htype ▸ contentType_printable declared)
  obtain ⟨disposition, hdisposition, -⟩ :=
    ofString?_printable (contentDisposition_printable attachment.fileName)
  refine ⟨⟨contentType, disposition, bytes⟩, ?_, rfl, utf8_of_ofString? hcontentType,
    utf8_of_ofString? hdisposition, readFilename_contentDisposition hraw, fun c hc => ?_,
    fun hascii => safeName_ascii hraw fun c hc => (hascii c hc).1⟩
  · rw [downloadResponse, hcontentType, hdisposition]
    rfl
  · have hplain := safeName_plain hraw c hc
    have hprintable := safeName_printable _ c hc
    simp only [Headers.isPlain, isPrintable, Bool.and_eq_true, decide_eq_true_eq] at hplain hprintable
    refine ⟨hplain.1.1.1, hplain.1.1.2, ?_⟩
    simp only [isControl, Bool.or_eq_false_iff, decide_eq_false_iff_not, Bool.and_eq_false_iff]
    omega

/-- A name that is not all ASCII, with a declared content type that no header can have. -/
def resume : AttachmentRecord :=
  { id := 1, taskId := 10, tenantId := 20, uploadedBy := 1, fileName := "résumé 1.pdf"
    contentType := normalizeAttachmentContentType (some "text/\nplain"), sizeBytes := 0,
    storageKey := "attachments/20/10/1", createdAt := 0, content := [] }

theorem resume_uploaded : Uploaded resume :=
  ⟨⟨" résumé 1.pdf ", by decide +kernel⟩, some "text/\nplain", rfl⟩

theorem download_headers_well_formed_resume : ∃ response, downloadResponse resume [1] = some response ∧
    response.contentDisposition.bytes =
      utf8 "attachment; filename=\"r_sum_ 1.pdf\"".toList ∧ WellFormed resume response := by
  obtain ⟨response, hresponse, -, hheaders⟩ := download_headers_well_formed resume_uploaded [1]
  refine ⟨response, hresponse, hheaders.disposition.trans ?_, hheaders⟩
  have hname : contentDisposition resume.fileName = "attachment; filename=\"r_sum_ 1.pdf\"" := by
    decide +kernel
  rw [hname]

/-! ### Uploads and downloads side by side -/

namespace Attachments

/-- A request about attachments, or anything else that leaves their rows alone. -/
inductive DownloadCall where
  | upload (user : AuthenticatedUser) (taskId : Uuid) (fileName : String)
      (contentType idempotencyKey : Option String) (body : Bytes)
  | download (user : AuthenticatedUser) (taskId attachmentId : Uuid)
  | delete (user : AuthenticatedUser) (taskId attachmentId : Uuid)
  | elsewhere (p : Service Unit)
      (h : Makes (fun _ _ s s' => s'.db.attachments = s.db.attachments) p)

inductive DownloadReply where
  | uploaded (response : StoredResponse)
  | downloaded (download : Option Download)
  | done

def DownloadCall.body (app : App) : DownloadCall → Service DownloadReply
  | .upload user taskId fileName contentType idempotencyKey body =>
    (Http.uploadTaskAttachment app user taskId fileName contentType idempotencyKey body).bind
      fun response => return .uploaded response
  | .download user taskId attachmentId =>
    (Http.downloadTaskAttachment user taskId attachmentId).bind
      fun download => return .downloaded download
  | .delete user taskId attachmentId =>
    (Http.deleteTaskAttachment app user taskId attachmentId).bind fun _ => return .done
  | .elsewhere p _ => p.bind fun _ => return .done

def downloadSystem (app : App) :
    System Event Env AppState AppError DownloadCall DownloadReply where
  body := DownloadCall.body app
  adm := admissible

/-- All attachments are as an upload stores them. -/
def AllUploaded (s : AppState) : Prop := ∀ a ∈ s.db.attachments, Uploaded a

/-- An attachment that comes in is as an upload stores it. -/
def UploadAction (s s' : AppState) : Prop :=
  ∀ a ∈ s'.db.attachments, a ∈ s.db.attachments ∨ Uploaded a

def uploadContract : Contract Event Env AppState where
  inv := AllUploaded
  guar _ _ _ := UploadAction
  adm _ _ _ _ := True
  guar_inv hs h a ha := (h a ha).elim (hs a) id

variable {i : Nat} {app : App} {tenantId taskId attachmentId actorId : Uuid} {s s' : AppState}

theorem UploadAction.of_eq (h : s'.db.attachments = s.db.attachments) : UploadAction s s' :=
  fun _ ha => .inl (h ▸ ha)

theorem uploadContract_keys : TolerantOfKeys uploadContract where
  stay _ _ _ _ _ _ := .of_eq rfl
  bystander _ _ _ _ _ h := .of_eq h.attachments
  issue _ _ _ _ _ := .of_eq rfl
  keys _ _ _ _ _ h := .of_eq (congrArg Database.attachments h.db)

theorem getTask_uploads : uploadContract.Safe i (Tasks.getTask tenantId taskId) :=
  .bind (select_safe uploadContract_keys.toPatient) fun _ => .okOr

theorem createAttachment_uploads {fileName contentType key : String} {size : Nat}
    {content : Bytes} (hname : ∃ raw, validateAttachmentFileName raw = .ok fileName)
    (htype : ∃ declared, contentType = normalizeAttachmentContentType declared) :
    uploadContract.Safe i (createAttachment app attachmentId tenantId taskId actorId fileName
      contentType size key content) := by
  have patient := uploadContract_keys.toPatient
  refine .bind (utcNow_safe patient) fun now => .bind (newUuid_safe patient) fun auditId => ?_
  refine sql_safe patient fun s e _ _ _ => ?_
  dsimp only
  split
  · rename_i attachments taskAudit hrow _
    intro a ha
    rcases ((Table.insert_eq_some hrow).2 a).mp ha with ha | rfl
    · exact .inl ha
    · exact .inr ⟨hname, htype⟩
  · exact .of_eq rfl

theorem uploadAttachment_uploads {fileName contentType : String} {bytes : Bytes}
    (hname : ∃ raw, validateAttachmentFileName raw = .ok fileName)
    (htype : ∃ declared, contentType = normalizeAttachmentContentType declared) :
    uploadContract.Safe i
      (uploadAttachment app tenantId taskId actorId fileName contentType bytes) := by
  have tolerant := uploadContract_keys.toTolerant
  refine .bind getTask_uploads fun _ => .bind (select_safe tolerant.toPatient) fun counted => ?_
  refine .bind .ensure fun _ => .bind (newUuid_safe tolerant.toPatient) fun id => ?_
  refine .bind (storagePut_safe tolerant.lenient) fun _ => ?_
  refine .bind (.attempt (createAttachment_uploads hname htype)) fun created => ?_
  split
  · exact .done
  · exact .bind (.attempt (storageDelete_safe tolerant.lenient)) fun _ => .fail

theorem deleteAttachment_uploads {role : MembershipRole} :
    uploadContract.Safe i
      (Attachments.deleteAttachment app tenantId taskId attachmentId actorId role) := by
  have tolerant := uploadContract_keys.toTolerant
  have patient := tolerant.toPatient
  refine .bind getTask_uploads fun _ => .bind (.bind (select_safe patient) fun _ => .okOr) fun _ =>
    .bind .ensure fun _ => ?_
  refine .bind (.bind (newUuid_safe patient) fun auditId => .bind (utcNow_safe patient) fun now => ?_)
    fun _ => .bind (.attempt (storageDelete_safe tolerant.lenient)) fun _ => .done
  refine sql_safe patient fun s e _ _ _ => ?_
  dsimp only
  split
  · exact .of_eq rfl
  · split
    · exact .of_eq rfl
    · exact fun a ha => .inl (Table.mem_delete.mp ha).1

theorem getAttachment_uploaded :
    uploadContract.Triple i (fun _ => True) (getAttachment tenantId taskId attachmentId)
      (onOk fun a _ => Uploaded a) := by
  have patient := uploadContract_keys.toPatient
  have hselect : uploadContract.Triple i (fun _ => True)
      (select fun _ s => findAttachment s tenantId taskId attachmentId)
      (onOk fun found _ => ∀ a, found = some a → Uploaded a) := by
    refine sql_triple patient stable_const (fun _ => stable_const) fun s e hi _ _ _ =>
      ⟨patient.same i e s hi, fun a ha => ?_⟩
    exact hi a (Table.find?_eq_some.mp (Option.filter_eq_some_iff.mp ha).1).1
  refine hselect.seq fun found => ?_
  exact (Triple.okOr stable_const).post fun r _ _ hr => by
    cases r with
    | ok a => exact hr.2 a hr.1
    | error _ => trivial

theorem downloadAttachment_uploaded :
    uploadContract.Triple i (fun _ => True) (downloadAttachment tenantId taskId attachmentId)
      (onOk fun found _ => Uploaded found.1) := by
  have patient := uploadContract_keys.toPatient
  refine Triple.seq getTask_uploads.onOk_any fun _ => getAttachment_uploaded.seq fun a => ?_
  refine Triple.of_fact (P := fun _ => True) (fun ha => ?_) |>.pre fun _ _ h => ⟨h, trivial⟩
  refine Triple.seq (storageGet_safe patient).onOk_any fun bytes => ?_
  refine Triple.seq Safe.okOr.onOk_any fun bytes => ?_
  exact Triple.done stable_const fun _ _ _ => ha

/-- The answer to a download has well-formed headers. -/
def Answered (r : Except AppError (Option Download)) : Prop :=
  ∀ download, r = .ok download → ∃ response attachment, download = some response ∧
    Uploaded attachment ∧ WellFormed attachment response

theorem downloadTaskAttachment_answered {user : AuthenticatedUser} :
    uploadContract.Triple i (fun _ => True) (Http.downloadTaskAttachment user taskId attachmentId)
      fun r _ => Answered r := by
  refine Triple.bind downloadAttachment_uploaded (fun found => ?_) fun _ _ _ _ _ h => nomatch h
  refine Triple.done stable_const fun _ _ hfound download hdownload => ?_
  obtain ⟨response, hresponse, -, hheaders⟩ := download_headers_well_formed hfound found.2
  exact ⟨response, found.1, (Except.ok.inj hdownload).symm.trans hresponse, hfound, hheaders⟩

/-- Of a call, a download is answered well. -/
def DownloadCall.Post (_ : Nat) (k : DownloadCall) (r : Except AppError DownloadReply)
    (_ : AppState) : Prop :=
  ∀ user taskId attachmentId, k = .download user taskId attachmentId →
    ∀ download, r = .ok (.downloaded download) → Answered (.ok download)

theorem downloadCall_triple (i : Nat) (k : DownloadCall) :
    uploadContract.Triple i (fun _ => True) ((downloadSystem app).body k) (k.Post i) := by
  have hsafe : ∀ {p : Service DownloadReply}, uploadContract.Safe i p →
      (∀ user taskId attachmentId, k ≠ .download user taskId attachmentId) →
      uploadContract.Triple i (fun _ => True) p (k.Post i) :=
    fun hp hk => Triple.post hp fun _ _ _ _ user taskId attachmentId he =>
      absurd he (hk user taskId attachmentId)
  cases k with
  | upload user taskId fileName contentType idempotencyKey body =>
      refine hsafe (.bind ?_ fun _ => .done) fun _ _ _ h => nomatch h
      refine .lift_bind fun _ _ => .lift_bind fun name hname => .lift_bind fun _ _ =>
        .lift_bind fun key _ => ?_
      exact idempotent_from uploadContract_keys.patient lasting_const fun _ =>
        uploadAttachment_uploads ⟨fileName, hname⟩ ⟨contentType, rfl⟩
  | download user taskId attachmentId =>
      refine downloadTaskAttachment_answered.bind (fun download => ?_) fun _ _ _ _ _ _ _ _ _ h =>
        nomatch h
      refine Triple.done stable_const fun _ _ hanswer _ _ _ _ found hfound => ?_
      obtain rfl := DownloadReply.downloaded.inj (Except.ok.inj hfound)
      exact hanswer
  | delete user taskId attachmentId =>
      exact hsafe (.bind deleteAttachment_uploads fun _ => .done) fun _ _ _ h => nomatch h
  | elsewhere p h =>
      exact hsafe (.bind (h.safe fun _ _ _ _ _ _ hr => .of_eq hr) fun _ => .done)
        fun _ _ _ h => nomatch h

end Attachments

open Attachments

/-- In a run of uploads, downloads and deletions, every download that finds its file is answered
with well-formed headers. -/
theorem downloads_well_formed {app : App} {s : AppState} (hs : AllUploaded s)
    {ms : List (Move Env DownloadCall)}
    {c : Config Event Env AppState AppError DownloadCall DownloadReply}
    (h : (downloadSystem app).exec (.start s) ms = some c) {i : Nat} {user : AuthenticatedUser}
    {taskId attachmentId : Uuid} {download : Option Download}
    (hi : c.calls[i]? = some (.download user taskId attachmentId, .done (.ok (.downloaded download)))) :
    ∃ response attachment, download = some response ∧ Uploaded attachment ∧
      WellFormed attachment response :=
  (Contract.sound_all downloadCall_triple (fun _ _ _ _ _ => trivial) hs h).result hi user taskId
    attachmentId rfl download rfl download rfl

end Fluxa
