import Fluxa.Attachments.Blobs

/-!
# Attachments — the limit

An upload looks up the task, counts its attachments, stores the file and only then inserts the row; nothing is locked, other than where a webhook is registered.

**`attachment_limit`**: a task never has more attachments than it may in a run in which no upload inserts a row for it when, since it has counted, another has inserted one.
-/

namespace Fluxa.Attachments
open Interleave Relational Db Contract

/-- Any number of uploads, downloads and deletions, side by side; a commit that fails may have been
one. -/
def uploadSystem (app : App) :
    System Event Env AppState AppError AttachmentCall AttachmentReply where
  body := AttachmentCall.body app
  adm := admissible

/-- How many attachments the task has. -/
def attachmentsOf (s : AppState) (taskId : Uuid) : Nat :=
  s.db.attachments.count fun a => a.taskId = taskId

/-- The task has no more attachments than it may. -/
def WithinLimit (taskId : Uuid) (s : AppState) : Prop :=
  attachmentsOf s taskId ≤ maxAttachmentsPerTask

instance (taskId : Uuid) (s : AppState) : Decidable (WithinLimit taskId s) :=
  inferInstanceAs (Decidable (_ ≤ _))

/-- The attachments of the task are in the tenant of the task. -/
def Placed (taskId : Uuid) (s : AppState) : Prop :=
  ∀ t ∈ s.db.tasks, t.id = taskId → ∀ a ∈ s.db.attachments, a.taskId = taskId →
    a.tenantId = t.tenantId

/-- An attachment is added to the task. -/
def addsAttachment (taskId : Uuid) (s s' : AppState) : Bool :=
  attachmentsOf s taskId < attachmentsOf s' taskId

/-- An upload looks up the task with its first statement and counts with its second.  To add an
attachment relies on the count, and disturbs the others. -/
def attachmentWatch (taskId : Uuid) : Watch AppState where
  looks n := n = 2
  disturbs := addsAttachment taskId
  relies := addsAttachment taskId

/-! ### What a statement does -/

/-- There is the task. -/
def HasTask (tenantId taskId : Uuid) (s : AppState) : Prop :=
  ∃ t ∈ s.db.tasks, t.id = taskId ∧ t.tenantId = tenantId

/-- What a statement does to tasks and attachments. -/
inductive CountAction : AppState → AppState → Prop where
  | keep {s s'} (ht : s'.db.tasks = s.db.tasks)
      (hsub : ∀ a ∈ s'.db.attachments, a ∈ s.db.attachments)
      (hle : ∀ k, attachmentsOf s' k ≤ attachmentsOf s k) : CountAction s s'
  | insert {s s'} {a : AttachmentRecord} (ht : s'.db.tasks = s.db.tasks)
      (htask : HasTask a.tenantId a.taskId s)
      (hrows : s.db.attachments.insert a = some s'.db.attachments) : CountAction s s'

section Actions

variable {s s' : AppState} {taskId : Uuid}

theorem CountAction.of_eq (ht : s'.db.tasks = s.db.tasks)
    (ha : s'.db.attachments = s.db.attachments) : CountAction s s' :=
  .keep ht (fun _ h => ha ▸ h) fun k => by rw [attachmentsOf, ha, attachmentsOf]

theorem CountAction.tasks (h : CountAction s s') : s'.db.tasks = s.db.tasks := by
  cases h with
  | keep ht => exact ht
  | insert ht => exact ht

/-- An upload checks that the task is of its tenant. -/
theorem CountAction.placed (h : CountAction s s') (hs : Placed taskId s) : Placed taskId s' := by
  intro t ht hid a ha hk
  rw [h.tasks] at ht
  cases h with
  | keep _ hsub => exact hs t ht hid a (hsub a ha) hk
  | @insert b _ htask hrows =>
      rcases (Table.insert_eq_some hrows).2 a |>.mp ha with ha | rfl
      · exact hs t ht hid a ha hk
      · obtain ⟨t', ht', hid', htenant⟩ := htask
        obtain rfl : t' = t := Table.eq_of_key ht' ht (hid'.trans (hk.trans hid.symm))
        exact htenant.symm

theorem attachmentsOf_insert {a : AttachmentRecord}
    (h : s.db.attachments.insert a = some s'.db.attachments) :
    attachmentsOf s' taskId = attachmentsOf s taskId + if a.taskId = taskId then 1 else 0 := by
  simpa [attachmentsOf] using Table.count_insert h fun a => a.taskId = taskId

/-- What an upload counts is what the task has. -/
theorem count_eq_attachmentsOf {tenantId : Uuid} (hs : Placed taskId s)
    (ht : HasTask tenantId taskId s) :
    s.db.attachments.count (isOfTask tenantId taskId) = attachmentsOf s taskId := by
  obtain ⟨t, ht, hid, rfl⟩ := ht
  refine congrArg List.length (List.filter_congr fun a ha => ?_)
  by_cases hk : a.taskId = taskId
  · simp [isOfTask, hk, hs t ht hid a ha hk]
  · simp [isOfTask, hk]

end Actions

/-! ### The calls keep to it -/

/-- The contract of all calls, scheduled or not. -/
def actionContract : Contract Event Env AppState where
  inv _ := True
  guar _ _ _ := CountAction
  adm _ _ _ _ := True
  guar_inv _ _ := trivial

theorem actionContract_tolerant : Tolerant actionContract where
  stay _ _ _ _ _ _ := .of_eq rfl rfl
  bystander _ _ _ _ _ h := .of_eq h.tasks h.attachments
  issue _ _ _ _ _ := .of_eq rfl rfl

/-- The contract: the task is within the limit. -/
def limitContract (taskId : Uuid) : Contract Event Env AppState where
  inv s := Placed taskId s ∧ WithinLimit taskId s
  guar _ _ _ s s' := CountAction s s' ∧ WithinLimit taskId s'
  adm _ _ _ _ := True
  guar_inv hi hg := ⟨hg.1.placed hi.1, hg.2⟩

theorem limitContract_tolerant {taskId : Uuid} : Tolerant (limitContract taskId) where
  stay _ _ _ _ hi _ := ⟨.of_eq rfl rfl, hi.2⟩
  bystander _ _ _ _ hi h := ⟨.of_eq h.tasks h.attachments, by
    rw [WithinLimit, attachmentsOf, h.attachments]
    exact hi.2⟩
  issue _ _ _ hi _ := ⟨.of_eq rfl rfl, hi.2⟩

/-- The contract as long as nobody adds an attachment to the task but call `i`. -/
abbrev calmLimit (taskId : Uuid) (i : Nat) : Contract Event Env AppState :=
  (limitContract taskId).calm (attachmentWatch taskId) i

theorem not_adds_of_eq {taskId : Uuid} {s s' : AppState}
    (h : s'.db.attachments = s.db.attachments) : addsAttachment taskId s s' = false := by
  simp [addsAttachment, attachmentsOf, h]

theorem calmLimit_tolerant {taskId : Uuid} {i : Nat} : Tolerant (calmLimit taskId i) :=
  limitContract_tolerant.calm (fun _ _ h => not_adds_of_eq h.attachments)
    fun _ _ => not_adds_of_eq rfl

section Calls

variable {K : Contract Event Env AppState} {i : Nat} {app : App} {t k a actorId : Uuid}

section Any

variable (hK : Tolerant K)
include hK

theorem getTask_safe : K.Safe i (Tasks.getTask t k) :=
  .bind (select_safe hK.toPatient) fun _ => .okOr

theorem getAttachment_safe : K.Safe i (getAttachment t k a) :=
  .bind (select_safe hK.toPatient) fun _ => .okOr

theorem downloadAttachment_safe : K.Safe i (downloadAttachment t k a) :=
  .bind (getTask_safe hK) fun _ => .bind (getAttachment_safe hK) fun _ =>
    .bind (storageGet_safe hK.toPatient) fun _ => .bind .okOr fun _ => .done

/-- A deletion takes rows away. -/
theorem deleteAttachment_safe_count {role : MembershipRole}
    (hdelete : ∀ s e s', K.inv s → s'.db.tasks = s.db.tasks →
      (∀ a ∈ s'.db.attachments, a ∈ s.db.attachments) →
      (∀ k, attachmentsOf s' k ≤ attachmentsOf s k) → K.guar i .quiet e s s') :
    K.Safe i (Attachments.deleteAttachment app t k a actorId role) := by
  refine .bind (getTask_safe hK) fun _ => .bind (getAttachment_safe hK) fun _ =>
    .bind .ensure fun _ => .bind (.bind (newUuid_safe hK.toPatient) fun auditId =>
      .bind (utcNow_safe hK.toPatient) fun now => ?_) fun _ =>
        .bind (.attempt (storageDelete_safe hK.lenient)) fun _ => .done
  refine sql_safe hK.toPatient fun s e hi _ _ => ?_
  dsimp only
  split
  · exact hK.same i e s hi
  · split
    · exact hK.same i e s hi
    · exact hdelete s e _ hi rfl (fun _ h => (Table.mem_delete.mp h).1) fun _ =>
        Table.count_delete_le

/-- What is so of tasks and attachments stays so where none of them changes. -/
theorem carry_quiet {A : Type} {p : Service A} {F : AppState → Prop} (hF : K.Stable i F)
    (hsame : ∀ s s', s'.db.tasks = s.db.tasks → s'.db.attachments = s.db.attachments → F s → F s')
    (hp : ∀ K' : Contract Event Env AppState, Tolerant K' → K'.Safe i p) :
    K.Triple i F p (onOk fun _ => F) := by
  let W : Event → Env → AppState → AppState → Prop := fun _ _ s s' =>
    s'.db.tasks = s.db.tasks ∧ s'.db.attachments = s.db.attachments
  have hwithin : Tolerant (K.within i W) :=
    hK.within (fun _ _ _ => ⟨rfl, rfl⟩) (fun _ _ _ h => ⟨h.tasks, h.attachments⟩)
      fun _ _ => ⟨rfl, rfl⟩
  exact ((hp _ hwithin).carry (lasting_within hF fun _ _ s s' _ hs _ h =>
    hsame s s' h.1 h.2 hs)).of_within

/-- The row is inserted where there is the task, and room for it. -/
theorem createAttachment_from {id : Uuid} {fileName contentType key : String} {size : Nat}
    {content : Bytes} {F : AppState → Prop} (hF : K.Stable i F)
    (hsame : ∀ s s', s'.db.tasks = s.db.tasks → s'.db.attachments = s.db.attachments → F s → F s')
    (hkeep : ∀ s e, K.inv s → K.guar i .insertAttachment e s s)
    (hinsert : ∀ s e s' a, K.inv s → F s → a.taskId = k → a.tenantId = t →
      s'.db.tasks = s.db.tasks → s.db.attachments.insert a = some s'.db.attachments →
      K.guar i .insertAttachment e s s') :
    K.Triple i F (createAttachment app id t k actorId fileName contentType size key content)
      fun _ _ => True := by
  refine Triple.bind (carry_quiet hK hF hsame fun _ h => utcNow_safe h.toPatient) (fun now => ?_)
    fun _ _ _ _ => trivial
  refine Triple.bind (carry_quiet hK hF hsame fun _ h => newUuid_safe h.toPatient)
    (fun auditId => ?_) fun _ _ _ _ => trivial
  refine sql_from hK.toPatient hF fun s e hi hs _ _ => ?_
  dsimp only
  split
  · exact hinsert s e _ _ hi hs rfl rfl rfl ‹_›
  · exact hkeep s e hi

end Any

/-- What follows the look-up of the task. -/
def uploadCounted (app : App) (tenantId taskId actorId : Uuid) (fileName contentType : String)
    (bytes : Bytes) : Service AttachmentRecord := do
  let count ← countTaskAttachments tenantId taskId
  Prog.ensure (count < maxAttachmentsPerTask)
    (.validation s!"a task can have at most {maxAttachmentsPerTask} attachments")
  let attachmentId ← newUuid
  Storage.put (storageKey app tenantId taskId attachmentId) bytes
  createOrCleanUp app tenantId taskId actorId attachmentId fileName contentType bytes

theorem uploadAttachment_eq {fileName contentType : String} {bytes : Bytes} :
    uploadAttachment app t k actorId fileName contentType bytes =
      (Tasks.getTask t k).bind fun _ =>
        uploadCounted app t k actorId fileName contentType bytes := rfl

/-- An upload inserts a row if its count has left room for it. -/
theorem uploadCounted_from (hK : Tolerant K) {fileName contentType : String} {bytes : Bytes}
    {F G : AppState → Prop} (hG : K.Stable i G)
    (hsame : ∀ s s', s'.db.tasks = s.db.tasks → s'.db.attachments = s.db.attachments → G s → G s')
    (hcount : K.Triple i F (countTaskAttachments t k)
      (onOk fun n s => n < maxAttachmentsPerTask → G s))
    (hkeep : ∀ s e, K.inv s → K.guar i .insertAttachment e s s)
    (hinsert : ∀ s e s' a, K.inv s → G s → a.taskId = k → a.tenantId = t →
      s'.db.tasks = s.db.tasks → s.db.attachments.insert a = some s'.db.attachments →
      K.guar i .insertAttachment e s s') :
    K.Triple i F (uploadCounted app t k actorId fileName contentType bytes) fun _ _ => True := by
  refine Triple.bind hcount (fun n => ?_) fun _ _ _ _ => trivial
  refine Triple.bind (Triple.ensure (stable_imp hG)) (fun _ => ?_) fun _ _ _ _ => trivial
  refine Triple.pre (P := G) ?_ fun s _ h => h.2 (of_decide_eq_true h.1)
  refine Triple.bind (carry_quiet hK hG hsame fun _ h => newUuid_safe h.toPatient) (fun id => ?_)
    fun _ _ _ _ => trivial
  refine Triple.bind (carry_quiet hK hG hsame fun _ h => storagePut_safe h.lenient.discreet)
    (fun _ => ?_) fun _ _ _ _ => trivial
  refine Triple.bind
    (Triple.attempt (createAttachment_from hK hG hsame hkeep hinsert).onOk_any)
    (fun created => Triple.pre (P := fun _ => True) ?_ fun _ _ _ => trivial) fun _ _ _ _ => trivial
  split
  · exact Safe.done
  · exact Safe.bind (.attempt (storageDelete_safe hK.lenient)) fun _ => .fail

/-! ### Scheduled or not -/

theorem hasTask_of_getTask {s : AppState} {task : TaskRecord} (h : findTask s t k = some task) :
    HasTask t k s := by
  obtain ⟨hfind, htenant⟩ := Option.filter_eq_some_iff.mp h
  obtain ⟨hmem, hid⟩ := Table.find?_eq_some.mp hfind
  exact ⟨task, hmem, hid, of_decide_eq_true htenant⟩

theorem HasTask.of_tasks {s s' : AppState} (h : s'.db.tasks = s.db.tasks) (hs : HasTask t k s) :
    HasTask t k s' := by
  rw [HasTask, h]
  exact hs

/-- A look-up that succeeds finds the task. -/
theorem getTask_finds (hK : Tolerant K) (hF : K.Stable i (HasTask t k)) :
    K.Triple i (fun _ => True) (Db.getTask t k)
      (onOk fun found s => ∀ task, found = some task → HasTask t k s) :=
  sql_triple hK.toPatient stable_const (fun _ => stable_forall fun _ => stable_imp hF)
    fun s e hi _ _ _ => ⟨hK.same i e s hi, fun _ h => hasTask_of_getTask h⟩

theorem uploadAttachment_from (hK : Tolerant K) (hF : K.Stable i (HasTask t k))
    {fileName contentType : String} {bytes : Bytes}
    (h : K.Triple i (HasTask t k) (uploadCounted app t k actorId fileName contentType bytes)
      fun _ _ => True) :
    K.Safe i (uploadAttachment app t k actorId fileName contentType bytes) := by
  rw [uploadAttachment_eq]
  refine Triple.bind (Q := onOk fun _ => HasTask t k) ?_ (fun _ => h) fun _ _ _ _ => trivial
  refine Triple.seq (getTask_finds hK hF) fun found => ?_
  refine (Triple.okOr (stable_forall fun _ => stable_imp hF)).post fun r s _ hr => ?_
  cases r with
  | error x => trivial
  | ok task => exact hr.2 task hr.1

section Base

theorem hasTask_stable : actionContract.Stable i (HasTask t k) :=
  fun _ _ _ _ _ _ hs _ hg => hs.of_tasks hg.tasks

theorem uploadAttachment_action {fileName contentType : String} {bytes : Bytes} :
    actionContract.Safe i (uploadAttachment app t k actorId fileName contentType bytes) := by
  have hK : Tolerant actionContract := actionContract_tolerant
  refine uploadAttachment_from hK hasTask_stable (uploadCounted_from hK (G := HasTask t k)
    hasTask_stable (fun _ _ h _ => .of_tasks h) ?_ (fun _ _ _ => .of_eq rfl rfl) ?_)
  · exact (select_keep hK.toPatient hasTask_stable).post fun r s _ h => by
      cases r with
      | error x => trivial
      | ok n => exact fun _ => h
  · rintro s e s' a - hs rfl rfl htasks hrows
    exact .insert htasks hs hrows

theorem attachmentCall_action (c : AttachmentCall) :
    actionContract.Safe i ((uploadSystem app).body c) := by
  have hK : Tolerant actionContract := actionContract_tolerant
  cases c with
  | upload => exact .bind uploadAttachment_action fun _ => .done
  | download => exact .bind (downloadAttachment_safe hK) fun _ => .done
  | delete =>
      exact .bind (deleteAttachment_safe_count hK fun _ _ _ _ ht hsub hle => .keep ht hsub hle)
        fun _ => .done

end Base

section Calm

variable {taskId : Uuid}

/-- There is the task, and if it is the one that is watched, it has room for another attachment. -/
def HasRoom (taskId tenantId taskId' : Uuid) (s : AppState) : Prop :=
  HasTask tenantId taskId' s ∧
    (taskId' = taskId → attachmentsOf s taskId < maxAttachmentsPerTask)

theorem hasTask_calm : (calmLimit taskId i).Stable i (HasTask t k) :=
  fun _ _ _ _ _ _ hs _ hg => hs.of_tasks hg.1.1.tasks

theorem hasRoom_calm : (calmLimit taskId i).Stable i (HasRoom taskId t k) := by
  refine stable_calm fun s s' _ _ _ _ hs hg hadds => ⟨hs.1.of_tasks hg.1.tasks, fun hk => ?_⟩
  have hle : attachmentsOf s' taskId ≤ attachmentsOf s taskId :=
    Nat.not_lt.mp (of_decide_eq_false hadds)
  exact Nat.lt_of_le_of_lt hle (hs.2 hk)

/-- A count that leaves room is that of the task. -/
theorem countTaskAttachments_calm :
    (calmLimit taskId i).Triple i (HasTask t k) (countTaskAttachments t k)
      (onOk fun n s => n < maxAttachmentsPerTask → HasRoom taskId t k s) := by
  refine sql_triple calmLimit_tolerant.toPatient hasTask_calm (fun _ => stable_imp hasRoom_calm)
    fun s e hi hs _ _ => ⟨calmLimit_tolerant.same i e s hi, fun hn => ⟨hs, ?_⟩⟩
  rintro rfl
  rw [← count_eq_attachmentsOf hi.1 hs]
  exact hn

theorem calmLimit_own {l : Event} {e : Env} {s s' : AppState} (h : CountAction s s')
    (hs' : WithinLimit taskId s') : (calmLimit taskId i).guar i l e s s' :=
  ⟨⟨h, hs'⟩, fun hne => absurd rfl hne⟩

theorem uploadCounted_calm {fileName contentType : String} {bytes : Bytes} :
    (calmLimit taskId i).Triple i (HasTask t k)
      (uploadCounted app t k actorId fileName contentType bytes) fun _ _ => True := by
  refine uploadCounted_from calmLimit_tolerant (G := HasRoom taskId t k) hasRoom_calm
    (fun s s' ht ha hs => ⟨hs.1.of_tasks ht, ?_⟩) countTaskAttachments_calm
    (fun s e hi => calmLimit_own (.of_eq rfl rfl) hi.2) ?_
  · rw [attachmentsOf, ha]
    exact hs.2
  · rintro s e s' a hi ⟨htask, hroom⟩ rfl rfl htasks hrows
    refine calmLimit_own (.insert htasks htask hrows) ?_
    rw [WithinLimit, attachmentsOf_insert hrows]
    split
    · rename_i hk
      exact hroom hk
    · exact hi.2

theorem downloadAttachment_limit : (limitContract taskId).Safe i (downloadAttachment t k a) :=
  downloadAttachment_safe limitContract_tolerant

theorem deleteAttachment_limit {role : MembershipRole} :
    (limitContract taskId).Safe i (Attachments.deleteAttachment app t k a actorId role) :=
  deleteAttachment_safe_count limitContract_tolerant fun _ _ _ hi ht hsub hle =>
    ⟨.keep ht hsub hle, Nat.le_trans (hle taskId) hi.2⟩

theorem attachmentCall_calm (c : AttachmentCall) :
    (calmLimit taskId i).Safe i ((uploadSystem app).body c) := by
  cases c with
  | upload =>
      exact .bind (uploadAttachment_from calmLimit_tolerant hasTask_calm uploadCounted_calm)
        fun _ => .done
  | download => exact .bind downloadAttachment_limit.calm fun _ => .done
  | delete => exact .bind deleteAttachment_limit.calm fun _ => .done

/-- From its count on an upload goes by what it has counted. -/
theorem uploadAttachment_fromLooks {fileName contentType : String} {bytes : Bytes} {s : AppState} :
    (limitContract taskId).FromLooks (attachmentWatch taskId) i 0
      (uploadAttachment app t k actorId fileName contentType bytes) s := by
  have hcalm : (calmLimit taskId i).Safe i
      (uploadAttachment app t k actorId fileName contentType bytes) :=
    uploadAttachment_from calmLimit_tolerant hasTask_calm uploadCounted_calm
  have hF : (limitContract taskId).Stable i (HasTask t k) :=
    fun _ _ _ _ _ _ hs _ hg => hs.of_tasks hg.1.tasks
  rw [uploadAttachment_eq, Tasks.getTask, Prog.bind_eq, Prog.bind_assoc] at hcalm ⊢
  refine fromLooks_bind (P := fun _ => True) stable_const hcalm
    (getTask_finds limitContract_tolerant hF) (fun found s hs => ?_) trivial
  cases found with
  | none => trivial
  | some task =>
      refine fromLooks_of_triple (fun m hm => ?_) hF uploadCounted_calm (hs task rfl)
      simp only [attachmentWatch, decide_eq_false_iff_not]
      omega

theorem attachmentCall_fromLooks (c : AttachmentCall) {s : AppState}
    (hs : (limitContract taskId).inv s) :
    (limitContract taskId).FromLooks (attachmentWatch taskId) i 0 ((uploadSystem app).body c) s := by
  cases c with
  | upload =>
      exact FromLooks.bind uploadAttachment_fromLooks (fun _ => .done) fun _ _ _ => trivial
  | download =>
      exact (Safe.bind downloadAttachment_limit (fun _ => .done) s hs trivial).fromLooks
  | delete => exact (Safe.bind deleteAttachment_limit (fun _ => .done) s hs trivial).fromLooks

end Calm

end Calls

end Fluxa.Attachments

namespace Fluxa
open Interleave Attachments Contract

/-- In a run of uploads, downloads and deletions a task never has more attachments than it may, if
none is inserted for it when, since its upload has counted, another one has been inserted. -/
theorem attachment_limit {app : App} {taskId : Uuid} {s : AppState} (hplaced : Placed taskId s)
    (hs : Attachments.WithinLimit taskId s) {ms : List (Move Env AttachmentCall)}
    (hschedule : (attachmentWatch taskId).Scheduled (uploadSystem app) (.start s) ms) :
    (uploadSystem app).Through (fun d => Attachments.WithinLimit taskId d.st) (.start s) ms := by
  refine System.Through.mono (fun _ h => h.2) <| scheduled_through (K := limitContract taskId)
    (J := actionContract) (P := fun _ _ _ _ => True) (fun _ => attachmentCall_action)
    (fun _ => attachmentCall_calm) (fun _ c _ => attachmentCall_fromLooks c)
    (fun _ _ _ _ _ => trivial) (fun _ _ _ _ _ _ => trivial)
    (fun _ _ _ s s' hi _ hg hadds => ⟨hg, ?_⟩) ⟨hplaced, hs⟩ trivial hschedule
    (System.along_of_forall fun _ _ _ _ _ _ _ => trivial)
  exact Nat.le_trans (Nat.not_lt.mp (of_decide_eq_false hadds)) hi.2

/-! ### Two uploads for the last place -/

namespace Attachments

/-- The task with nineteen attachments. -/
def nineteenAttachments : AppState :=
  { withTask with
    db.attachments :=
      ⟨(List.range 19).map fun n =>
        { id := n, taskId := 10, tenantId := 20, uploadedBy := 1, fileName := "a",
          contentType := "text/plain", sizeBytes := 0, storageKey := "k", createdAt := 0,
          content := [] }, by decide⟩ }

theorem nineteenAttachments_placed : Placed 10 nineteenAttachments := by
  intro t ht _ a ha _
  obtain rfl := List.mem_singleton.mp ht
  obtain ⟨n, -, rfl⟩ := List.mem_map.mp ha
  rfl

/-- One upload inserts the twentieth attachment, and another one starts; an attachment is deleted,
and only then the other upload counts. -/
def oneUploadAfterTheOther : List (Move Env AttachmentCall) :=
  [.call (.upload 20 10 1 "a" "text/plain" [1]), .call (.upload 20 10 1 "b" "text/plain" [2]),
    .call (.delete 20 10 3 1 .member)] ++
  attachmentStatements 0 8 100 ++ attachmentStatements 1 1 200 ++ attachmentStatements 2 6 300 ++
  attachmentStatements 1 7 400

/-- Both uploads count nineteen attachments before either inserts another one. -/
def bothCountNineteen : List (Move Env AttachmentCall) :=
  [.call (.upload 20 10 1 "a" "text/plain" [1]), .call (.upload 20 10 1 "b" "text/plain" [2])] ++
  attachmentStatements 0 2 100 ++ attachmentStatements 1 2 200 ++ attachmentStatements 0 6 300 ++
  attachmentStatements 1 6 400

end Attachments

/-- The theorem at that run. -/
theorem attachment_limit_oneUploadAfterTheOther :
    (uploadSystem default).Through (fun d => Attachments.WithinLimit 10 d.st)
      (.start nineteenAttachments) oneUploadAfterTheOther :=
  attachment_limit nineteenAttachments_placed (by decide +kernel) (by decide +kernel)

/-- Two uploads at once leave a task with one attachment more than it may have. -/
theorem attachment_limit_exceeded :
    Placed 10 nineteenAttachments ∧ Attachments.WithinLimit 10 nineteenAttachments ∧
      ∃ c, (uploadSystem default).exec (.start nineteenAttachments) bothCountNineteen = some c ∧
        ¬ Attachments.WithinLimit 10 c.st := by
  have h : ((uploadSystem default).exec (.start nineteenAttachments) bothCountNineteen).map
      (fun c => attachmentsOf c.st 10) = some 21 := by
    decide +kernel
  obtain ⟨c, hc, hcount⟩ := Option.map_eq_some_iff.mp h
  refine ⟨nineteenAttachments_placed, by decide +kernel, c, hc, fun hlimit => ?_⟩
  rw [Attachments.WithinLimit, hcount] at hlimit
  exact absurd hlimit (by decide)

end Fluxa
