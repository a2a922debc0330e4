import Fluxa.Interleave.Named
import Fluxa.Services.Attachments
import Fluxa.State.Quiet

/-!
# Attachments — rows and files

An upload stores the file and then inserts the row; a deletion takes the row and then the file.  Whatever step fails, or is the last one before a crash, a row has its file.

**`rows_have_files`**: in every state of a run, the key of each row holds exactly the bytes of the upload that has created it, and they are as many as the row says; an upload that fails leaves no row; and a download misses the file only if the attachment has been deleted.
-/

namespace Fluxa.Attachments
open Interleave Relational Db Contract

/-! ### The system -/

inductive AttachmentCall where
  | upload (tenantId taskId actorId : Uuid) (fileName contentType : String) (bytes : Bytes)
  | download (tenantId taskId attachmentId : Uuid)
  | delete (tenantId taskId attachmentId actorId : Uuid) (role : MembershipRole)

inductive AttachmentReply where
  | uploaded (attachment : AttachmentRecord)
  | content (attachment : AttachmentRecord) (bytes : Bytes)
  | deleted

def AttachmentCall.body (app : App) : AttachmentCall → Service AttachmentReply
  | .upload tenantId taskId actorId fileName contentType bytes => do
    return .uploaded (← uploadAttachment app tenantId taskId actorId fileName contentType bytes)
  | .download tenantId taskId attachmentId => do
    let (attachment, bytes) ← downloadAttachment tenantId taskId attachmentId
    return .content attachment bytes
  | .delete tenantId taskId attachmentId actorId role => do
    Attachments.deleteAttachment app tenantId taskId attachmentId actorId role
    return .deleted

/-- A failed commit of a row counts as not committed. -/
def commits (l : Event) (e : Env) : Bool :=
  match l with
  | .insertAttachment => e.fault ≠ .lost
  | _ => true

/-- Any number of these calls, side by side. -/
def attachmentSystem (app : App) :
    System Event Env AppState AppError AttachmentCall AttachmentReply where
  body := AttachmentCall.body app
  adm i l e s := admissible i l e s && commits l e

/-! ### Keys -/

/-- The text of identifiers: different ones differ, and no slash is in any. -/
structure PlainUuids (app : App) : Prop where
  inj : Function.Injective app.lib.uuidString
  slash : ∀ id, '/' ∉ (app.lib.uuidString id).toList

/-- What comes after the last occurrence of `x` is determined. -/
theorem eq_of_append_cons {α : Type} {x : α} {l l' a a' : List α} (ha : x ∉ a) (ha' : x ∉ a')
    (h : l ++ x :: a = l' ++ x :: a') : a = a' := by
  rcases List.append_eq_append_iff.mp h with ⟨m, rfl, hm⟩ | ⟨m, rfl, hm⟩
  · cases m with
    | nil =>
        rw [List.nil_append, List.cons.injEq] at hm
        exact hm.2
    | cons y m =>
        rw [List.cons_append, List.cons.injEq] at hm
        exact absurd (hm.2 ▸ List.mem_append_right m List.mem_cons_self) ha
  · cases m with
    | nil =>
        rw [List.nil_append, List.cons.injEq] at hm
        exact hm.2.symm
    | cons y m =>
        rw [List.cons_append, List.cons.injEq] at hm
        exact absurd (hm.2 ▸ List.mem_append_right m List.mem_cons_self) ha'

theorem toList_storageKey (app : App) (tenantId taskId attachmentId : Uuid) :
    ∃ l, (storageKey app tenantId taskId attachmentId).toList =
      l ++ '/' :: (app.lib.uuidString attachmentId).toList := by
  refine ⟨"attachments/".toList ++ (app.lib.uuidString tenantId).toList ++ "/".toList ++
    (app.lib.uuidString taskId).toList, ?_⟩
  simp [storageKey, toString]

/-- Different attachments have different keys. -/
theorem storageKey_inj {app : App} (happ : PlainUuids app) {t t' k k' a a' : Uuid}
    (h : storageKey app t k a = storageKey app t' k' a') : a = a' := by
  obtain ⟨l, hl⟩ := toList_storageKey app t k a
  obtain ⟨l', hl'⟩ := toList_storageKey app t' k' a'
  rw [← h, hl] at hl'
  exact happ.inj (String.toList_injective
    (eq_of_append_cons (happ.slash a) (happ.slash a') hl'))

/-! ### What a statement does to rows and files -/

/-- The attachment has, or has had, a row. -/
def Rowed (old : List Uuid) (s : AppState) (id : Uuid) : Prop :=
  id ∈ old ∨ ∃ j, (j, .attachment, id) ∈ s.history.created

/-- The key of the row holds what has been uploaded, and as much of it as the row says. -/
structure HasFile (app : App) (s : AppState) (r : AttachmentRecord) : Prop where
  key : r.storageKey = storageKey app r.tenantId r.taskId r.id
  file : s.storage r.storageKey = some r.content
  size : r.sizeBytes = r.content.length

/-- The row is one that call `j` uploads. -/
def UploadedBy (name : Nat → Option AttachmentCall) (j : Nat) (r : AttachmentRecord) : Prop :=
  name j = some
    (.upload r.tenantId r.taskId r.uploadedBy r.fileName r.contentType r.content)

/-- The attachment is one of those that there were when the run started, or an upload of the run has
created the row. -/
def FromUpload (name : Nat → Option AttachmentCall) (old : List Uuid) (s : AppState)
    (r : AttachmentRecord) : Prop :=
  r.id ∈ old ∨ ∃ j, (j, .attachment, r.id) ∈ s.history.created ∧ UploadedBy name j r

/-- The invariant; `old` are the attachments that there were when the run started, and `name` are
its calls. -/
structure BlobInv (app : App) (name : Nat → Option AttachmentCall) (old : List Uuid)
    (s : AppState) : Prop where
  once : IssuedOnce s
  before : ∀ id ∈ old, Issued s id
  created : ∀ j id, (j, .attachment, id) ∈ s.history.created → (id, j) ∈ s.history.issued
  rows : ∀ r ∈ s.db.attachments, Rowed old s r.id ∧ HasFile app s r
  uploads : ∀ r ∈ s.db.attachments, FromUpload name old s r

/-- The call has generated the identifier, which has had no row. -/
def Own (old : List Uuid) (i : Nat) (id : Uuid) (s : AppState) : Prop :=
  (id, i) ∈ s.history.issued ∧ ¬ Rowed old s id

/-- The attachment has had a row, and has none. -/
def Gone (old : List Uuid) (id : Uuid) (s : AppState) : Prop :=
  Rowed old s id ∧ ∀ r ∈ s.db.attachments, r.id ≠ id

/-- What a statement of call `i` does to rows and files. -/
inductive BlobAction (app : App) (name : Nat → Option AttachmentCall) (old : List Uuid) (i : Nat) :
    AppState → AppState → Prop where
  | keep {s s'} (hr : s'.db.attachments = s.db.attachments) (hf : s'.storage = s.storage)
      (hc : s'.history.created = s.history.created) (hi : s'.history.issued = s.history.issued) :
      BlobAction app name old i s s'
  | generate {s s' id} (hnew : ¬ Issued s id) (hr : s'.db.attachments = s.db.attachments)
      (hf : s'.storage = s.storage) (hc : s'.history.created = s.history.created)
      (hi : s'.history.issued = (id, i) :: s.history.issued) : BlobAction app name old i s s'
  /-- A file is written, or removed, for which the call has no row yet, or of a row that is gone. -/
  | write {s s' t k id content} (hown : Own old i id s ∨ Gone old id s)
      (hr : s'.db.attachments = s.db.attachments)
      (hf : s'.storage = Function.update s.storage (storageKey app t k id) content)
      (hc : s'.history.created = s.history.created) (hi : s'.history.issued = s.history.issued) :
      BlobAction app name old i s s'
  | create {s s'} {r : AttachmentRecord} (hown : Own old i r.id s) (hfile : HasFile app s r)
      (hup : UploadedBy name i r)
      (hr : ∀ r', r' ∈ s'.db.attachments ↔ r' ∈ s.db.attachments ∨ r' = r)
      (hf : s'.storage = s.storage)
      (hc : s'.history.created = (i, .attachment, r.id) :: s.history.created)
      (hi : s'.history.issued = s.history.issued) : BlobAction app name old i s s'
  | delete {s s'} (hr : ∀ r ∈ s'.db.attachments, r ∈ s.db.attachments)
      (hf : s'.storage = s.storage) (hc : s'.history.created = s.history.created)
      (hi : s'.history.issued = s.history.issued) : BlobAction app name old i s s'

section Actions

variable {app : App} {name : Nat → Option AttachmentCall} {old : List Uuid} {i : Nat}
  {s s' : AppState}

theorem BlobAction.issued (h : BlobAction app name old i s s') :
    ∀ x ∈ s.history.issued, x ∈ s'.history.issued := by
  intro x hx
  cases h with
  | keep _ _ _ hi => exact hi ▸ hx
  | generate _ _ _ _ hi => exact hi ▸ List.mem_cons_of_mem _ hx
  | write _ _ _ _ hi => exact hi ▸ hx
  | create _ _ _ _ _ _ hi => exact hi ▸ hx
  | delete _ _ _ hi => exact hi ▸ hx

/-- The creations of before are still there, and the only new one is of an attachment of the
call. -/
theorem BlobAction.created (h : BlobAction app name old i s s') :
    s'.history.created = s.history.created ∨
      ∃ id, Own old i id s ∧ s'.history.created = (i, .attachment, id) :: s.history.created := by
  cases h with
  | keep _ _ hc => exact .inl hc
  | generate _ _ _ hc => exact .inl hc
  | write _ _ _ hc => exact .inl hc
  | create hown _ _ _ _ hc => exact .inr ⟨_, hown, hc⟩
  | delete _ _ hc => exact .inl hc

/-- The creations of before are still there. -/
theorem BlobAction.created_mono (h : BlobAction app name old i s s') {x : Nat × ResourceKind × Uuid}
    (hx : x ∈ s.history.created) : x ∈ s'.history.created := by
  rcases h.created with hc | ⟨_, -, hc⟩
  · exact hc ▸ hx
  · exact hc ▸ List.mem_cons_of_mem _ hx

theorem BlobAction.rowed (h : BlobAction app name old i s s') {id : Uuid} (hr : Rowed old s id) :
    Rowed old s' id := by
  exact hr.imp_right fun ⟨j, hj⟩ => ⟨j, h.created_mono hj⟩

/-- What has had no row gets one from the call that has generated it. -/
theorem BlobAction.not_rowed (h : BlobAction app name old i s s') {id : Uuid} (hr : ¬ Rowed old s id)
    (hother : ¬ Own old i id s) : ¬ Rowed old s' id := by
  rintro (hold | ⟨j, hj⟩)
  · exact hr (.inl hold)
  · rcases h.created with hc | ⟨id', hown, hc⟩
    · exact hr (.inr ⟨j, hc ▸ hj⟩)
    · rw [hc, List.mem_cons] at hj
      rcases hj with hj | hj
      · cases hj
        exact hother hown
      · exact hr (.inr ⟨j, hj⟩)

/-- A row is one of before, or the call has created it, for a file that is there. -/
theorem BlobAction.row (h : BlobAction app name old i s s') {r : AttachmentRecord}
    (hr : r ∈ s'.db.attachments) : r ∈ s.db.attachments ∨
      Own old i r.id s ∧ (Rowed old s' r.id ∧ HasFile app s' r) ∧ FromUpload name old s' r := by
  cases h with
  | keep heq => exact .inl (heq ▸ hr)
  | generate _ heq => exact .inl (heq ▸ hr)
  | write _ heq => exact .inl (heq ▸ hr)
  | create hown hfile hup hrows hf hc =>
      rcases (hrows r).mp hr with hr | rfl
      · exact .inl hr
      · have hcreated : (i, .attachment, r.id) ∈ s'.history.created := hc ▸ List.mem_cons_self
        exact .inr ⟨hown, ⟨.inr ⟨i, hcreated⟩, hfile.key, hf ▸ hfile.file, hfile.size⟩,
          .inr ⟨i, hcreated, hup⟩⟩
  | delete hrows => exact .inl (hrows r hr)

/-- The file of an attachment changes only by its call before it has a row, or after the row is
gone. -/
theorem BlobAction.file (happ : PlainUuids app) (h : BlobAction app name old i s s') {t k id : Uuid}
    (hown : ¬ Own old i id s) (hgone : ¬ Gone old id s) :
    s'.storage (storageKey app t k id) = s.storage (storageKey app t k id) := by
  cases h with
  | keep _ hf => rw [hf]
  | generate _ _ hf => rw [hf]
  | @write t' k' id' content hid _ hf =>
      rw [hf]
      refine Function.update_of_ne (fun hkey => ?_) _ _
      obtain rfl := storageKey_inj happ hkey
      rcases hid with hid | hid
      · exact hown hid
      · exact hgone hid
  | create _ _ _ _ hf => rw [hf]
  | delete _ hf => rw [hf]

theorem HasFile.step (happ : PlainUuids app) (h : BlobAction app name old i s s')
    {r : AttachmentRecord} (hfile : HasFile app s r) (hown : ¬ Own old i r.id s)
    (hgone : ¬ Gone old r.id s) : HasFile app s' r := by
  refine ⟨hfile.key, ?_, hfile.size⟩
  have hkey := hfile.file
  rw [hfile.key] at hkey ⊢
  rw [h.file happ hown hgone]
  exact hkey

theorem BlobInv.step (happ : PlainUuids app) (hs : BlobInv app name old s)
    (h : BlobAction app name old i s s') : BlobInv app name old s' := by
  have hrows : ∀ r ∈ s.db.attachments, Rowed old s' r.id ∧ HasFile app s' r := by
    intro r hr
    obtain ⟨hrowed, hfile⟩ := hs.rows r hr
    exact ⟨h.rowed hrowed, hfile.step happ h (fun hown => hown.2 hrowed)
      fun hgone => hgone.2 r hr rfl⟩
  refine ⟨?_, fun id hid => ?_, fun j id hj => ?_, fun r hr => ?_, fun r hr => ?_⟩
  · have heq : s'.history.issued = s.history.issued → IssuedOnce s' := fun hi => by
      rw [IssuedOnce, hi]
      exact hs.once
    cases h with
    | keep _ _ _ hi => exact heq hi
    | generate hnew _ _ _ hi =>
        rw [IssuedOnce, hi]
        exact hs.once.cons hnew
    | write _ _ _ _ hi => exact heq hi
    | create _ _ _ _ _ _ hi => exact heq hi
    | delete _ _ _ hi => exact heq hi
  · obtain ⟨j, hj⟩ := hs.before id hid
    exact ⟨j, h.issued _ hj⟩
  · rcases h.created with hc | ⟨id', hown, hc⟩
    · exact h.issued _ (hs.created j id (hc ▸ hj))
    · rw [hc, List.mem_cons] at hj
      rcases hj with hj | hj
      · cases hj
        exact h.issued _ hown.1
      · exact h.issued _ (hs.created j id hj)
  · rcases h.row hr with hr | ⟨-, hfile, -⟩
    · exact hrows r hr
    · exact hfile
  · rcases h.row hr with hr | ⟨-, -, hup⟩
    · exact (hs.uploads r hr).imp_right fun ⟨j, hj, hup⟩ => ⟨j, h.created_mono hj, hup⟩
    · exact hup

end Actions

/-! ### The calls keep to it -/

/-- The contract: every statement is a `BlobAction`. -/
def blobContract {app : App} (happ : PlainUuids app) (name : Nat → Option AttachmentCall)
    (old : List Uuid) : Contract Event Env AppState where
  inv := BlobInv app name old
  guar i _ _ := BlobAction app name old i
  adm i l e s := admissible i l e s = true ∧ commits l e = true
  guar_inv := BlobInv.step happ

section Calls

variable {app : App} {happ : PlainUuids app} {name : Nat → Option AttachmentCall}
  {old : List Uuid} {i : Nat}

theorem blobContract_patient : Patient (blobContract happ name old) where
  stay _ _ _ _ _ _ := .keep rfl rfl rfl rfl
  same _ _ _ _ := .keep rfl rfl rfl rfl
  issue i e s _ ha := by
    obtain ⟨hpid, hnew⟩ := not_issued_of_admissible ha.1
    exact .generate hnew rfl rfl rfl (by rw [hpid])

/-- The call has created no row. -/
def CreatedNone (i : Nat) (s : AppState) : Prop := ∀ id, (i, .attachment, id) ∉ s.history.created

theorem createdNone_stable : (blobContract happ name old).Stable i (CreatedNone i) := by
  intro s s' j l e _ hs hj hg id hid
  rcases hg.created with hc | ⟨id', -, hc⟩
  · exact hs id (hc ▸ hid)
  · rw [hc, List.mem_cons] at hid
    rcases hid with hid | hid
    · cases hid
      exact hj rfl
    · exact hs id hid

/-- What one call has generated, another has not. -/
theorem not_own_of_ne {s : AppState} (hi : BlobInv app name old s) {j : Nat} {id : Uuid} (hj : j ≠ i)
    (h : Own old i id s) : ¬ Own old j id s :=
  fun h' => hj (hi.once id j i h'.1 h.1)

theorem own_stable {id : Uuid} : (blobContract happ name old).Stable i (Own old i id) :=
  fun _ _ _ _ _ hi hs hj hg =>
    ⟨hg.issued _ hs.1, hg.not_rowed hs.2 (not_own_of_ne hi hj hs)⟩

/-- The call has stored the file of an attachment that has no row yet. -/
def Stored (app : App) (old : List Uuid) (i : Nat) (t k id : Uuid) (content : Bytes)
    (s : AppState) : Prop :=
  Own old i id s ∧ s.storage (storageKey app t k id) = some content

theorem stored_stable {t k id : Uuid} {content : Bytes} :
    (blobContract happ name old).Stable i (Stored app old i t k id content) := by
  intro s s' j l e hi hs hj hg
  refine ⟨own_stable s s' j l e hi hs.1 hj hg, ?_⟩
  rw [hg.file happ (not_own_of_ne hi hj hs.1) fun hgone => hs.1.2 hgone.1]
  exact hs.2

theorem gone_lasting {id : Uuid} : (blobContract happ name old).Lasting (Gone old id) := by
  intro j l e s s' hi hs hg
  refine ⟨hg.rowed hs.1, fun r hr hid => ?_⟩
  rcases hg.row hr with hr | ⟨hown, -, -⟩
  · exact hs.2 r hr hid
  · exact hown.2 (hid ▸ hs.1)

/-- The attachment has had this row, and has no other. -/
def Seen (app : App) (old : List Uuid) (r : AttachmentRecord) (s : AppState) : Prop :=
  Rowed old s r.id ∧ r.storageKey = storageKey app r.tenantId r.taskId r.id ∧
    ∀ r' ∈ s.db.attachments, r'.id = r.id → r' = r

theorem seen_lasting {r : AttachmentRecord} :
    (blobContract happ name old).Lasting (Seen app old r) := by
  intro j l e s s' hi hs hg
  refine ⟨hg.rowed hs.1, hs.2.1, fun r' hr' hid => ?_⟩
  rcases hg.row hr' with hr' | ⟨hown, -, -⟩
  · exact hs.2.2 r' hr' hid
  · exact absurd (hid ▸ hs.1) hown.2

/-- A row that is there is seen. -/
theorem seen_of_mem {s : AppState} (hi : BlobInv app name old s) {r : AttachmentRecord}
    (hr : r ∈ s.db.attachments) : Seen app old r s := by
  obtain ⟨hrowed, hfile⟩ := hi.rows r hr
  exact ⟨hrowed, hfile.key, fun r' hr' hid => Table.eq_of_key hr' hr hid⟩

theorem mem_of_findAttachment {s : AppState} {t k a : Uuid} {r : AttachmentRecord}
    (h : findAttachment s t k a = some r) : r ∈ s.db.attachments ∧ r.id = a := by
  obtain ⟨hf, hr⟩ := Option.filter_eq_some_iff.mp h
  exact Table.find?_eq_some.mp hf

/-- The result of `getTask` does not matter here, and its error is neither of those spoken of. -/
theorem getTask_or {P : AppState → Prop} {F : AppError → AppState → Prop} {t k : Uuid}
    (hP : (blobContract happ name old).Stable i P) (hF : ∀ x, (blobContract happ name old).Stable i (F x))
    (hdb : ∀ detail s, P s → F (databaseError detail) s)
    (hnone : ∀ s, P s → F (.notFound "task not found") s) :
    (blobContract happ name old).Triple i P (Tasks.getTask t k) (orFail F fun _ => P) := by
  refine Triple.seq_or (select_or blobContract_patient hP hF (fun _ => hP)
    (fun detail s _ => hdb detail s) fun _ _ _ hs => hs) fun o => ?_
  refine (Triple.okOr_or hP fun s _ hs _ => hnone s hs).post ?_
  rintro (x | task) s - h
  · exact h
  · exact h.2

/-! #### Uploads -/

/-- Storing a file, for an attachment without a row. -/
theorem put_or {t k id : Uuid} {bytes : Bytes} :
    (blobContract happ name old).Triple i (fun s => CreatedNone i s ∧ Own old i id s)
      (Storage.put (storageKey app t k id) bytes)
      (orFail (fun _ => CreatedNone i) fun _ s =>
        CreatedNone i s ∧ Stored app old i t k id bytes s) := by
  have hP : (blobContract happ name old).Stable i fun s => CreatedNone i s ∧ Own old i id s :=
    createdNone_stable.and own_stable
  have hwrite : ∀ s content, Own old i id s → BlobAction app name old i s
      { s with storage := Function.update s.storage (storageKey app t k id) content } :=
    fun s content hown => .write (.inl hown) rfl rfl rfl rfl
  refine Triple.seq_or (Q := fun _ s => CreatedNone i s ∧ Own old i id s) ?_ fun _ => ?_
  · refine Triple.done hP fun s _ hs => ?_
    cases Storage.validateKey (storageKey app t k id) with
    | ok => exact hs
    | error x => exact hs.1
  refine Triple.seq_or (Q := fun _ s => CreatedNone i s ∧ Own old i id s) ?_ fun _ => ?_
  · refine Triple.atomic hP (stable_orFail (fun _ => createdNone_stable) fun _ => hP)
      fun s e _ hs _ _ => ?_
    cases e.fault with
    | none => exact ⟨hwrite s _ hs.2, hs⟩
    | failed => exact ⟨.keep rfl rfl rfl rfl, hs.1⟩
    | lost => exact ⟨.keep rfl rfl rfl rfl, hs.1⟩
  · refine Triple.atomic hP (stable_orFail (fun _ => createdNone_stable) fun _ =>
      createdNone_stable.and stored_stable) fun s e _ hs _ _ => ?_
    cases e.fault with
    | none => exact ⟨hwrite s _ hs.2, hs.1, hs.2, Function.update_self _ _ _⟩
    | failed => exact ⟨hwrite s _ hs.2, hs.1⟩
    | lost => exact ⟨hwrite s _ hs.2, hs.1⟩

/-- Deleting the file of an attachment that has no row yet, or none any more. -/
theorem deleteFile_or {P : AppState → Prop} {t k id : Uuid}
    (hP : (blobContract happ name old).Stable i P)
    (hfree : ∀ s, (blobContract happ name old).inv s → P s → Own old i id s ∨ Gone old id s)
    (hkeep : ∀ s content, P s →
      P { s with storage := Function.update s.storage (storageKey app t k id) content }) :
    (blobContract happ name old).Triple i P (Storage.delete (storageKey app t k id)) fun _ => P := by
  refine Triple.bind (Q := fun _ => P) (Triple.done hP fun _ _ hs => hs) (fun _ => ?_)
    fun _ _ _ hs => hs
  refine Triple.atomic hP (fun _ => hP) fun s e hi hs _ _ => ?_
  cases e.fault with
  | none => exact ⟨.write (hfree s hi hs) rfl rfl rfl rfl, hkeep s _ hs⟩
  | failed => exact ⟨.keep rfl rfl rfl rfl, hs⟩
  | lost => exact ⟨.keep rfl rfl rfl rfl, hs⟩

/-- Generating an identifier leaves the others' as they are. -/
theorem own_issue {s : AppState} {id : Uuid} {x : Uuid × Nat} (h : Own old i id s) :
    Own old i id { s with history.issued := x :: s.history.issued } :=
  ⟨List.mem_cons_of_mem _ h.1, h.2⟩

theorem createAttachment_or {t k id actorId : Uuid} {fileName contentType : String}
    {bytes : Bytes} (hname : name i = some (.upload t k actorId fileName contentType bytes)) :
    (blobContract happ name old).Triple i
      (fun s => CreatedNone i s ∧ Stored app old i t k id bytes s)
      (createAttachment app id t k actorId fileName contentType bytes.length
        (storageKey app t k id) bytes)
      (orFail (fun _ s => CreatedNone i s ∧ Own old i id s) fun _ _ => True) := by
  have hP : (blobContract happ name old).Stable i
      fun s => CreatedNone i s ∧ Stored app old i t k id bytes s :=
    createdNone_stable.and stored_stable
  have hF : ∀ x : AppError, (blobContract happ name old).Stable i
      fun s => CreatedNone i s ∧ Own old i id s := fun _ => createdNone_stable.and own_stable
  refine Triple.seq_or (Q := fun _ s => CreatedNone i s ∧ Stored app old i t k id bytes s) ?_
    fun now => ?_
  · exact Triple.atomic hP (stable_orFail hF fun _ => hP)
      fun s e _ hs _ _ => ⟨.keep rfl rfl rfl rfl, hs⟩
  refine Triple.seq_or (Q := fun _ s => CreatedNone i s ∧ Stored app old i t k id bytes s) ?_
    fun auditId => ?_
  · refine Triple.atomic hP (stable_orFail hF fun _ => hP) fun s e hi hs _ ha => ?_
    exact ⟨blobContract_patient.issue i e s hi ha, hs.1, own_issue hs.2.1, hs.2.2⟩
  refine Triple.atomic hP (stable_orFail hF fun _ => stable_const) fun s e hi hs _ ha => ?_
  obtain ⟨hnone, hown, hfile⟩ := hs
  cases hf : e.fault with
  | failed => exact ⟨.keep rfl rfl rfl rfl, hnone, hown⟩
  | lost =>
      -- A failed commit is not committed.
      exact absurd hf (of_decide_eq_true ha.2)
  | none =>
      dsimp only
      split
      · rename_i attachments taskAudit hins _
        refine ⟨.create hown ⟨rfl, hfile, rfl⟩ ?_ (Table.insert_eq_some hins).2 rfl ?_ rfl, trivial⟩
        · exact hname
        · simp [noteCreated, (not_issued_of_admissible ha.1).1]
      · exact ⟨.keep rfl rfl rfl rfl, hnone, hown⟩

theorem createOrCleanUp_or {t k id actorId : Uuid} {fileName contentType : String}
    {bytes : Bytes} (hname : name i = some (.upload t k actorId fileName contentType bytes)) :
    (blobContract happ name old).Triple i
      (fun s => CreatedNone i s ∧ Stored app old i t k id bytes s)
      (createOrCleanUp app t k actorId id fileName contentType bytes)
      (orFail (fun _ => CreatedNone i) fun _ _ => True) := by
  refine Triple.seq_or (Triple.attempt_or (createAttachment_or hname)) fun r => ?_
  cases r with
  | ok attachment => exact Triple.done stable_const fun _ _ _ => trivial
  | error x =>
      have hP : (blobContract happ name old).Stable i fun s => CreatedNone i s ∧ Own old i id s :=
        createdNone_stable.and own_stable
      refine Triple.seq_or (Triple.attempt_or (deleteFile_or hP (fun _ _ hs => .inl hs.2)
        fun _ _ hs => hs)) fun _ => ?_
      exact Triple.done hP fun _ _ hs => hs.1

theorem newUuid_own : (blobContract happ name old).Triple i (CreatedNone i) newUuid
    (orFail (fun _ => CreatedNone i) fun id s => CreatedNone i s ∧ Own old i id s) := by
  refine Triple.atomic createdNone_stable (stable_orFail (fun _ => createdNone_stable) fun _ =>
    createdNone_stable.and own_stable) fun s e hi hs _ ha => ?_
  obtain ⟨hpid, hnew⟩ := not_issued_of_admissible ha.1
  refine ⟨blobContract_patient.issue i e s hi ha, hs, ?_, ?_⟩
  · exact hpid ▸ List.mem_cons_self
  · -- What has had a row has been generated before.
    rintro (hold | ⟨j, hj⟩)
    · exact hnew (hi.before _ hold)
    · exact hnew ⟨j, hi.created j _ hj⟩

theorem uploadAttachment_or {t k actorId : Uuid} {fileName contentType : String} {bytes : Bytes}
    (hname : name i = some (.upload t k actorId fileName contentType bytes)) :
    (blobContract happ name old).Triple i (CreatedNone i)
      (uploadAttachment app t k actorId fileName contentType bytes)
      (orFail (fun _ => CreatedNone i) fun _ _ => True) := by
  have hP : (blobContract happ name old).Stable i (CreatedNone i) := createdNone_stable
  refine Triple.seq_or (getTask_or hP (fun _ => hP) (fun _ _ hs => hs) fun _ hs => hs) fun _ => ?_
  refine Triple.seq_or (select_or blobContract_patient hP (fun _ => hP) (fun _ => hP)
    (fun _ _ _ hs => hs) fun _ _ _ hs => hs) fun count => ?_
  refine Triple.seq_or (Triple.ensure_or hP fun _ _ hs => hs) fun _ => ?_
  refine Triple.seq_or newUuid_own fun id => ?_
  exact Triple.seq_or put_or fun _ => createOrCleanUp_or hname

/-! #### Downloads and deletions -/

/-- The answer to a download that finds no file. -/
def contentMissing : AppError := .notFound "attachment content is no longer available"

/-- A row that is found is seen, and no error before is the one about the file. -/
theorem getAttachment_or {t k a : Uuid} {F : AppError → AppState → Prop}
    (hF : ∀ x, (blobContract happ name old).Stable i (F x))
    (hdb : ∀ detail s, F (databaseError detail) s) (hnone : ∀ s, F attachmentNotFound s) :
    (blobContract happ name old).Triple i (fun _ => True) (getAttachment t k a)
      (orFail F fun r s => r.id = a ∧ Seen app old r s) := by
  have hst : ∀ o : Option AttachmentRecord, (blobContract happ name old).Stable i
      fun s => ∀ r, o = some r → r.id = a ∧ Seen app old r s :=
    fun o s s' j l e hi h hj hg r ho => ⟨(h r ho).1, seen_lasting j l e s s' hi (h r ho).2 hg⟩
  refine Triple.seq_or (select_or blobContract_patient stable_const hF hst
    (fun detail s _ _ => hdb detail s) fun s e hi _ r hr => ?_) fun o => ?_
  · obtain ⟨hmem, hid⟩ := mem_of_findAttachment hr
    exact ⟨hid, seen_of_mem hi hmem⟩
  · refine (Triple.okOr_or (hst o) fun s _ _ _ => hnone s).post ?_
    rintro (x | r) s - h
    · exact h
    · exact h.2 r h.1

/-- A download misses the file only of an attachment that is gone. -/
theorem downloadAttachment_or {t k a : Uuid} :
    (blobContract happ name old).Triple i (fun _ => True) (downloadAttachment t k a)
      (orFail (fun x s => x = contentMissing → Gone old a s) fun _ _ => True) := by
  have hF : ∀ x : AppError, (blobContract happ name old).Stable i
      fun s => x = contentMissing → Gone old a s :=
    fun x s s' j l e hi h hj hg hx => gone_lasting j l e s s' hi (h hx) hg
  have hdb : ∀ detail (s : AppState), databaseError detail = contentMissing → Gone old a s :=
    fun detail s h => by cases h
  refine Triple.seq_or (getTask_or stable_const hF (fun detail s _ => hdb detail s)
    fun _ _ h => ?_) fun _ => ?_
  · simp [contentMissing] at h
  refine Triple.seq_or (getAttachment_or hF hdb fun _ h => ?_) fun r => ?_
  · simp [contentMissing, attachmentNotFound] at h
  refine Triple.of_fact fun hid => ?_
  subst hid
  have hS : (blobContract happ name old).Stable i (Seen app old r) := seen_lasting.stable i
  refine Triple.seq_or (Q := fun o s => o = none → Gone old r.id s) ?_ fun o => ?_
  · refine Triple.seq_or (Q := fun _ => Seen app old r) (Triple.done hS fun s _ hs => ?_) fun _ => ?_
    · unfold Storage.validateKey
      split
      · exact hs
      · intro h
        simp [contentMissing] at h
    refine Triple.atomic hS (stable_orFail hF fun o s s' j l e hi h hj hg ho =>
      gone_lasting j l e s s' hi (h ho) hg) fun s e hi hs _ _ => ?_
    have hkeep : BlobAction app name old i s s := .keep rfl rfl rfl rfl
    cases e.fault with
    | none =>
        refine ⟨hkeep, fun hmiss => ⟨hs.1, fun r' hr' hid => ?_⟩⟩
        -- The row is still there, and with it the file.
        obtain rfl := hs.2.2 r' hr' hid
        have hfile := (hi.rows r' hr').2.file
        rw [hmiss] at hfile
        cases hfile
    | failed => exact ⟨hkeep, fun h => by simp [contentMissing] at h⟩
    | lost => exact ⟨hkeep, fun h => by simp [contentMissing] at h⟩
  · have hO : (blobContract happ name old).Stable i fun s => o = none → Gone old r.id s :=
      fun s s' j l e hi h hj hg ho => gone_lasting j l e s s' hi (h ho) hg
    refine Triple.seq_or (Triple.okOr_or hO fun _ _ hs ho _ => hs ho) fun bytes => ?_
    exact Triple.done (stable_const.and hO) fun _ _ _ => trivial

theorem deleteAttachment_safe {t k a actorId : Uuid} {role : MembershipRole} :
    (blobContract happ name old).Safe i (Attachments.deleteAttachment app t k a actorId role) := by
  have hK : Patient (blobContract happ name old) := blobContract_patient
  refine .bind (.bind (select_safe hK) fun _ => .okOr) fun _ => ?_
  refine .bind (.bind (select_safe hK) fun _ => .okOr) fun r => .bind .ensure fun _ => ?_
  refine Triple.bind (Q := onOk fun r s => Gone old r.id s ∧
    r.storageKey = storageKey app r.tenantId r.taskId r.id) ?_ (fun r => ?_) fun _ _ _ _ => trivial
  · refine Triple.seq (newUuid_safe hK).onOk_any fun auditId => ?_
    refine Triple.seq (utcNow_safe hK).onOk_any fun auditAt => ?_
    refine sql_triple hK stable_const (fun _ => (gone_lasting.and lasting_const).stable i)
      fun s e hi _ _ _ => ?_
    have hkeep : BlobAction app name old i s s := .keep rfl rfl rfl rfl
    dsimp only
    split
    · exact ⟨hkeep, trivial⟩
    · rename_i r hr
      split
      · exact ⟨hkeep, trivial⟩
      · obtain ⟨hmem, hid⟩ := mem_of_findAttachment hr
        obtain ⟨hrowed, hfile⟩ := hi.rows r hmem
        refine ⟨.delete (fun r' hr' => (Table.mem_delete.mp hr').1) rfl rfl rfl,
          ⟨hrowed, fun r' hr' hid' => ?_⟩, hfile.key⟩
        obtain ⟨hr', hkept⟩ := Table.mem_delete.mp hr'
        obtain rfl := Table.eq_of_key hr' hmem hid'
        have hsel := (Option.filter_eq_some_iff.mp hr).2
        rw [hkept] at hsel
        cases hsel
  · refine (Triple.of_fact fun hkey => ?_).pre fun s _ hs => hs.symm
    rw [hkey]
    refine Triple.bind (Q := fun _ _ => True) (Triple.attempt (deleteFile_or
      (gone_lasting.stable i) (fun _ _ hs => .inr hs) fun _ _ hs => hs)).any (fun _ => Safe.done)
      fun _ _ _ _ => trivial

/-- What a call has achieved when it returns. -/
def BlobPost (old : List Uuid) (i : Nat) :
    AttachmentCall → Except AppError AttachmentReply → AppState → Prop
  | .upload .., .error _, s => CreatedNone i s
  | .download _ _ attachmentId, .error x, s => x = contentMissing → Gone old attachmentId s
  | _, _, _ => True

theorem attachmentCall_triple (i : Nat) (k : AttachmentCall) (hname : name i = some k) :
    (blobContract happ name old).Triple i (CreatedNone i) ((attachmentSystem app).body k)
      (BlobPost old i k) := by
  cases k with
  | upload t k actorId fileName contentType bytes =>
      refine Triple.bind (uploadAttachment_or hname) (fun a => Triple.done stable_const fun _ _ _ => trivial)
        fun x s _ h => h
  | download t k a =>
      refine Triple.bind (downloadAttachment_or.pre fun _ _ _ => trivial)
        (fun r => Triple.done stable_const fun _ _ _ => trivial) fun x s _ h => h
  | delete t k a actorId role =>
      refine Triple.bind (deleteAttachment_safe.pre fun _ _ _ => trivial)
        (fun r => Triple.done stable_const fun _ _ _ => trivial) fun x s _ h => trivial

end Calls

/-! ### Runs -/

abbrev AttachmentConfig := Config Event Env AppState AppError AttachmentCall AttachmentReply

/-- What holds when a run starts: each row has its file, its identifier has been generated, and the
history notes no creation yet. -/
structure BlobStart (app : App) (s : AppState) : Prop where
  once : IssuedOnce s
  issued : ∀ r ∈ s.db.attachments, Issued s r.id
  files : ∀ r ∈ s.db.attachments, HasFile app s r
  created : ∀ i, CreatedNone i s

/-- The attachments that have a row. -/
def attachmentIds (s : AppState) : List Uuid := s.db.attachments.rows.map (·.id)

theorem BlobStart.inv {app : App} {s : AppState} (h : BlobStart app s)
    (name : Nat → Option AttachmentCall) : BlobInv app name (attachmentIds s) s := by
  refine ⟨h.once, fun id hid => ?_, fun j id hj => absurd hj (h.created j id), fun r hr => ?_,
    fun r hr => .inl (List.mem_map_of_mem hr)⟩
  · obtain ⟨r, hr, rfl⟩ := List.mem_map.mp hid
    exact h.issued r hr
  · exact ⟨.inl (List.mem_map_of_mem hr), h.files r hr⟩

end Fluxa.Attachments

namespace Fluxa
open Interleave Relational Attachments

/-- In every run of uploads, downloads and deletions, the key of each row holds in all states what
has been uploaded, which are the bytes of the upload that has created the row; where an upload has
failed, each row was there at the start or is of another call; and where a download has missed the
file, the attachment has no row any more. -/
theorem rows_have_files {app : App} (happ : PlainUuids app) {s : AppState} (hs : BlobStart app s)
    {ms : List (Move Env AttachmentCall)} {c : AttachmentConfig}
    (h : (attachmentSystem app).exec (.start s) ms = some c) :
    (attachmentSystem app).Through (fun d => ∀ r ∈ d.st.db.attachments,
        HasFile app d.st r ∧ FromUpload c.names (attachmentIds s) d.st r) (.start s) ms ∧
      (∀ (i : Nat) t k actorId fileName contentType bytes x,
        c.calls[i]? = some (.upload t k actorId fileName contentType bytes, .done (.error x)) →
        ∀ r ∈ c.st.db.attachments, r.id ∈ attachmentIds s ∨
          ∃ j, j ≠ i ∧ (j, .attachment, r.id) ∈ c.st.history.created) ∧
      ∀ (i : Nat) t k a, c.calls[i]? = some (.download t k a, .done (.error contentMissing)) →
        ∀ r ∈ c.st.db.attachments, r.id ≠ a := by
  have hadm : ∀ i l e t, (attachmentSystem app).adm i l e t = true → True →
      (blobContract happ c.names (attachmentIds s)).adm i l e t := fun i l e t ha _ => by
    simpa [attachmentSystem, blobContract] using ha
  have hall : (attachmentSystem app).Along (fun d m => d.Meets (fun _ _ _ _ => True) m)
      (.start s) ms := System.along_of_forall fun _ _ _ _ _ _ _ => trivial
  have hthrough := Contract.throughNamed (fun _ => createdNone_stable) attachmentCall_triple hadm
    (hs.inv c.names) hs.created hall h c.named_names
  obtain ⟨hkeeps, -⟩ := Contract.soundNamed (fun _ => createdNone_stable) attachmentCall_triple hadm
    (hs.inv c.names) hs.created hall h c.named_names
  refine ⟨hthrough.mono fun d hd r hr => ⟨(hd.1.1.rows r hr).2, hd.1.1.uploads r hr⟩, ?_,
    fun i t k a hi => ?_⟩
  · intro i t k actorId fileName contentType bytes x hi r hr
    have hnone : CreatedNone i c.st := hkeeps.result hi
    rcases (hkeeps.1.rows r hr).1 with hold | ⟨j, hj⟩
    · exact .inl hold
    · refine .inr ⟨j, fun hji => ?_, hj⟩
      subst hji
      exact hnone r.id hj
  · exact (hkeeps.result hi rfl : Gone (attachmentIds s) a c.st).2

namespace Attachments

/-- The texts of the default library are numerals. -/
theorem default_plainUuids : PlainUuids default where
  inj a b h := by
    have htext : String.ofList (Nat.toDigits 10 a) = String.ofList (Nat.toDigits 10 b) := by
      rw [← Nat.repr_eq_ofList_toDigits, ← Nat.repr_eq_ofList_toDigits]
      exact h
    rw [← @Nat.ofDigitChars_ten_toDigits a, ← @Nat.ofDigitChars_ten_toDigits b,
      String.ofList_injective htext]
  slash id h := by
    have hdigit : '/' ∈ Nat.toDigits 10 id := by
      rw [← Nat.toList_repr]
      exact h
    exact absurd (Nat.isDigit_of_mem_toDigits (by decide) (by decide) hdigit) (by decide)

/-- The next `n` statements of call `i`; what they generate is numbered from `first`. -/
def attachmentStatements (i n first : Nat) : List (Move Env AttachmentCall) :=
  (List.range n).map fun k => .exec i { (default : Env) with pid := i, uuid := first + k }

def aTask : TaskRecord :=
  { id := 10, tenantId := 20, projectId := none, title := "t", description := none,
    status := .open, priority := .medium, assigneeId := none, dueAt := none, createdBy := 1,
    updatedBy := 1, createdAt := 0, updatedAt := 0 }

def withTask : AppState := { (default : AppState) with db.tasks := ⟨[aTask], by simp⟩ }

/-- An upload; a download, which finds the row; the deletion of the attachment; the rest of the
download; an upload that fails with its first write, and one that succeeds. -/
def lateDownload : List (Move Env AttachmentCall) :=
  [.call (.upload 20 10 1 "a" "text/plain" [1, 2]), .call (.download 20 10 102),
    .call (.delete 20 10 102 1 .member), .call (.upload 20 10 1 "b" "text/plain" [3]),
    .call (.upload 20 10 1 "c" "text/plain" [4])] ++
  attachmentStatements 0 8 100 ++ attachmentStatements 1 2 200 ++ attachmentStatements 2 6 300 ++
  attachmentStatements 1 1 400 ++ attachmentStatements 3 3 500 ++
  .exec 3 { (default : Env) with pid := 3, uuid := 600, fault := .failed } ::
  attachmentStatements 4 8 700

theorem withTask_blobStart : BlobStart default withTask where
  once _ _ _ h := absurd h List.not_mem_nil
  issued _ h := absurd h Table.not_mem_empty
  files _ h := absurd h Table.not_mem_empty
  created _ _ h := absurd h List.not_mem_nil

/-- The attachment whose content the download with this number has missed. -/
def missed? (c : AttachmentConfig) (i : Nat) : Option Uuid :=
  match (c.calls[i]? : Option (AttachmentCall × Service AttachmentReply)) with
  | some (.download 20 10 a, .done (.error error)) => if error = contentMissing then some a else none
  | _ => none

theorem calls_of_missed? {c : AttachmentConfig} {i : Nat} {a : Uuid} (h : missed? c i = some a) :
    c.calls[i]? = some (.download 20 10 a, .done (.error contentMissing)) := by
  unfold missed? at h
  split at h
  · rename_i hc
    split at h
    · rename_i herror
      cases h
      exact herror ▸ hc
    · cases h
  · cases h

end Attachments

/-- In this run a row remains, and the download misses the file of another one. -/
theorem rows_have_files_lateDownload :
    ∃ c, (attachmentSystem default).exec (.start withTask) lateDownload = some c ∧
      (attachmentSystem default).Through (fun d => ∀ r ∈ d.st.db.attachments,
        HasFile default d.st r ∧ FromUpload c.names (attachmentIds withTask) d.st r)
        (.start withTask) lateDownload ∧
      (∃ r ∈ c.st.db.attachments.rows, r.id = 702) ∧ missed? c 1 = some 102 ∧
      ∀ r ∈ c.st.db.attachments, r.id ≠ 102 := by
  have h : ((attachmentSystem default).exec (.start withTask) lateDownload).any fun c =>
      decide (∃ r ∈ c.st.db.attachments.rows, r.id = 702) && decide (missed? c 1 = some 102) := by
    decide +kernel
  obtain ⟨c, hc, h⟩ := (Option.any_eq_true _ _).mp h
  rw [Bool.and_eq_true, decide_eq_true_eq, decide_eq_true_eq] at h
  obtain ⟨hfiles, -, hgone⟩ := rows_have_files default_plainUuids withTask_blobStart hc
  exact ⟨c, hc, hfiles, h.1, h.2, hgone 1 20 10 102 (calls_of_missed? h.2)⟩

end Fluxa
