import Fluxa.Http.Quiet
import Fluxa.Http.Tasks
import Fluxa.Members.Authority
import Fluxa.Relational.Imprints
import Fluxa.Services.Quiet

/-!
# Tasks — authors

Comments belong to their authors, attachments to their uploaders.  Who may edit or delete one is asked of a row that has been read before; the row is written by its identifier.

* **`authors_decide`**: in every run, each statement that adds a comment or an attachment does so for a request authorised as that of its author; one that edits a comment, for a request authorised as that of the author; one that deletes a comment or an attachment, for such a request or one authorised as that of an owner or admin of the tenant.  Nothing but the text of a comment ever changes, under an identifier that belongs to no other row at any time of the run.
-/

namespace Fluxa
open Interleave Relational Db Contract

namespace Authors

/-! ### The system -/

/-- The routes. -/
inductive Route where
  | createTaskComment (taskId : Uuid) (idempotencyKey : Option String) (body : String)
  | updateTaskComment (taskId commentId : Uuid) (body : String)
  | deleteTaskComment (taskId commentId : Uuid)
  | uploadTaskAttachment (taskId : Uuid) (fileName : String)
      (contentType idempotencyKey : Option String) (body : Bytes)
  | deleteTaskAttachment (taskId attachmentId : Uuid)

def Route.handler (app : App) (user : AuthenticatedUser) : Route → Service Unit
  | .createTaskComment taskId idempotencyKey body => do
    let _ ← Http.createTaskComment app user taskId idempotencyKey body
    return ()
  | .updateTaskComment taskId commentId body => do
    let _ ← Http.updateTaskComment app user taskId commentId body
    return ()
  | .deleteTaskComment taskId commentId => Http.deleteTaskComment app user taskId commentId
  | .uploadTaskAttachment taskId fileName contentType idempotencyKey body => do
    let _ ← Http.uploadTaskAttachment app user taskId fileName contentType idempotencyKey body
    return ()
  | .deleteTaskAttachment taskId attachmentId =>
    Http.deleteTaskAttachment app user taskId attachmentId

/-- The kind of a comment or an attachment. -/
def authored : ResourceKind → Bool
  | .comment | .attachment => true
  | _ => false

/-- The statement may generate an identifier, authorise a request with the role that its user has,
and note rows that it inserts. -/
structure Noted (e : Env) (s s' : AppState) : Prop where
  issued : s'.history.issued = s.history.issued ∨
    s'.history.issued = (e.uuid, e.pid) :: s.history.issued
  authorised : ∀ x ∈ s.history.authorised, x ∈ s'.history.authorised
  roles : Authority.NotesRole e.pid s s'
  created : ∀ x ∈ s.history.created, x ∈ s'.history.created
  own : ∀ x ∈ s'.history.created, x ∈ s.history.created ∨
    x.1 = e.pid ∧ (authored x.2.1 = true → Issued s x.2.2)

/-- The statement writes no comments and no attachments. -/
structure Elsewhere (e : Env) (s s' : AppState) : Prop extends Noted e s s' where
  comments : s'.db.comments = s.db.comments
  attachments : s'.db.attachments = s.db.attachments

/-- A call. -/
inductive AuthorCall where
  /-- A request, with the user and the active tenant of its token. -/
  | request (userId activeTenantId : Uuid) (route : Route)
  /-- Whatever else the service does, such as changing tasks, members and their roles. -/
  | elsewhere (p : Service Unit) (h : Makes (fun _ e s s' => Elsewhere e s s') p)

def AuthorCall.body (app : App) : AuthorCall → Service Unit
  | .request userId activeTenantId route => do
    let user ← Authority.authorise activeTenantId userId
    route.handler app user
  | .elsewhere p _ => p

/-- Any number of calls, side by side. -/
def authorSystem (app : App) : System Event Env AppState AppError AuthorCall Unit :=
  ⟨AuthorCall.body app, admissible⟩

/-! ### Who may do what -/

variable {K₀ : Uuid → Prop} {app : App} {i : Nat} {s s' : AppState} {id : Uuid}

/-- Call `i` is a request authorised as that of the user in the tenant. -/
def As (i : Nat) (s : AppState) (tenantId userId : Uuid) : Prop :=
  ∃ role, (i, tenantId, userId, role) ∈ s.history.authorised

/-- Call `i` is a request authorised as that of the user, or of an owner or admin, in the tenant. -/
def AsOrAdmin (i : Nat) (s : AppState) (tenantId userId : Uuid) : Prop :=
  As i s tenantId userId ∨ ∃ adminId role,
    (i, tenantId, adminId, role) ∈ s.history.authorised ∧ role.privileged = true

/-- The call has generated the identifier, which no row of the kind has had: none of those that
there were at first, and none that has been inserted since. -/
def Unused (K₀ : Uuid → Prop) (kind : ResourceKind) (i : Nat) (s : AppState)
    (id : Uuid) : Prop :=
  ¬ K₀ id ∧ (id, i) ∈ s.history.issued ∧ (i, kind, id) ∉ s.history.created

/-- All of a comment but its text. -/
def imprint (c : CommentRecord) : CommentRecord := { c with body := "", updatedAt := 0 }

/-- What a statement of call `i` may do to comments and attachments. -/
structure Entitled (K₀ : Uuid → Prop) (i : Nat) (s s' : AppState) : Prop where
  comments : Table.Moves imprint (Unused K₀ .comment i s) (fun c => As i s c.tenantId c.authorId)
    (fun c => As i s c.tenantId c.authorId) (fun c => AsOrAdmin i s c.tenantId c.authorId)
    s.db.comments s'.db.comments
  attachments : Table.Moves (fun a => a) (Unused K₀ .attachment i s)
    (fun a => As i s a.tenantId a.uploadedBy) (fun _ => False)
    (fun a => AsOrAdmin i s a.tenantId a.uploadedBy) s.db.attachments s'.db.attachments

/-! ### Identifiers -/

/-- A row of the kind has had the identifier. -/
def Known (K₀ : Uuid → Prop) (kind : ResourceKind) (s : AppState) (id : Uuid) :
    Prop :=
  K₀ id ∨ ∃ j, (id, j) ∈ s.history.issued ∧ (j, kind, id) ∈ s.history.created

theorem Known.not_unused {kind : ResourceKind} (h : Known K₀ kind s id) (hs : IssuedOnce s) :
    ¬ Unused K₀ kind i s id := by
  intro hu
  rcases h with h | ⟨j, hj, hc⟩
  · exact hu.1 h
  · obtain rfl := hs _ _ _ hj hu.2.1
    exact hu.2.2 hc

/-- Every row has an identifier that is known, and identifiers are generated once. -/
structure AuthorInv (K₀ : Uuid → Prop) (s : AppState) : Prop where
  comments : ∀ c ∈ s.db.comments, Known K₀ .comment s c.id
  attachments : ∀ a ∈ s.db.attachments, Known K₀ .attachment s a.id
  noted : ∀ x ∈ s.history.created, authored x.2.1 = true → Issued s x.2.2
  once : IssuedOnce s
  past : ∀ id, K₀ id → Issued s id

/-- What a statement of call `i` does. -/
structure Action (K₀ : Uuid → Prop) (i : Nat) (s s' : AppState) : Prop where
  entitled : Entitled K₀ i s s'
  issued : ∀ x ∈ s.history.issued, x ∈ s'.history.issued
  authorised : ∀ x ∈ s.history.authorised, x ∈ s'.history.authorised
  roles : Authority.NotesRole i s s'
  created : ∀ x ∈ s.history.created, x ∈ s'.history.created
  own : ∀ x ∈ s'.history.created, x ∈ s.history.created ∨ x.1 = i
  inv : AuthorInv K₀ s'

/-- The contract: every statement is an `Action`. -/
def authorContract (K₀ : Uuid → Prop) : Contract Event Env AppState where
  inv := AuthorInv K₀
  guar i _ _ := Action K₀ i
  adm i l e s := admissible i l e s = true
  guar_inv _ h := h.inv

section Actions

variable {l : Event} {e : Env}

theorem Noted.of_history (h : s'.history = s.history) : Noted e s s' :=
  ⟨.inl (by rw [h]), fun _ hx => h ▸ hx, fun _ hx => .inl (h ▸ hx), fun _ hx => h ▸ hx,
    fun _ hx => .inl (h ▸ hx)⟩

theorem Noted.of_created {kind : ResourceKind} (hid : Issued s id)
    (h : s'.history = noteCreated e kind id s.history) : Noted e s s' := by
  have hcreated : s'.history.created = (e.pid, kind, id) :: s.history.created := by rw [h]; rfl
  refine ⟨.inl (by rw [h]; rfl), fun x hx => by rw [h]; exact hx, fun x hx => .inl ?_,
    fun x hx => hcreated ▸ List.mem_cons_of_mem _ hx, fun x hx => ?_⟩
  · rw [h] at hx
    exact hx
  · rcases List.mem_cons.mp (hcreated ▸ hx) with rfl | hold
    · exact .inr ⟨rfl, fun _ => hid⟩
    · exact .inl hold

theorem Noted.issued_of_mem (h : Noted e s s') {x : Uuid × Nat} (hx : x ∈ s.history.issued) :
    x ∈ s'.history.issued := by
  rcases h.issued with he | he
  · exact he ▸ hx
  · exact he ▸ List.mem_cons_of_mem _ hx

theorem Noted.issuedOnce (h : Noted e s s') (hs : IssuedOnce s) (hfresh : ¬ Issued s e.uuid) :
    IssuedOnce s' := by
  rcases h.issued with he | he
  · exact fun id a b ha hb => hs id a b (he ▸ ha) (he ▸ hb)
  · exact fun id a b ha hb => hs.cons hfresh id a b (he ▸ ha) (he ▸ hb)

theorem Noted.known (h : Noted e s s') {kind : ResourceKind} (hk : Known K₀ kind s id) :
    Known K₀ kind s' id :=
  hk.imp_right fun ⟨j, hj, hc⟩ => ⟨j, h.issued_of_mem hj, h.created _ hc⟩

/-- A statement that is entitled, and notes what it inserts. -/
theorem Action.of_entitled (hi : AuthorInv K₀ s) (ha : admissible i l e s = true)
    (hnoted : Noted e s s') (h : Entitled K₀ i s s')
    (hcomments : ∀ c ∈ s'.db.comments, (∃ c₀ ∈ s.db.comments, c₀.id = c.id) ∨
      Known K₀ .comment s' c.id)
    (hattachments : ∀ a ∈ s'.db.attachments, (∃ a₀ ∈ s.db.attachments, a₀.id = a.id) ∨
      Known K₀ .attachment s' a.id) : Action K₀ i s s' := by
  obtain ⟨hpid, hfresh⟩ := not_issued_of_admissible ha
  refine ⟨h, fun _ => hnoted.issued_of_mem, hnoted.authorised, hpid ▸ hnoted.roles,
    hnoted.created,
    fun x hx => (hnoted.own x hx).imp_right fun h => h.1.trans hpid, fun c hc => ?_, fun a ha => ?_,
    fun x hx hk => ?_, hnoted.issuedOnce hi.once hfresh,
    fun id hid => (hi.past id hid).imp fun _ => hnoted.issued_of_mem⟩
  · rcases hcomments c hc with ⟨c₀, hc₀, hid⟩ | hknown
    · exact hid ▸ hnoted.known (hi.comments c₀ hc₀)
    · exact hknown
  · rcases hattachments a ha with ⟨a₀, ha₀, hid⟩ | hknown
    · exact hid ▸ hnoted.known (hi.attachments a₀ ha₀)
    · exact hknown
  · have hold : Issued s x.2.2 :=
      (hnoted.own x hx).elim (fun h => hi.noted x h hk) fun h => h.2 hk
    exact hold.imp fun _ => hnoted.issued_of_mem

theorem Action.of_tables (hi : AuthorInv K₀ s) (ha : admissible i l e s = true)
    (hnoted : Noted e s s') (hc : s'.db.comments = s.db.comments)
    (hat : s'.db.attachments = s.db.attachments) : Action K₀ i s s' :=
  .of_entitled hi ha hnoted ⟨hc ▸ .refl _, hat ▸ .refl _⟩
    (fun c h => .inl ⟨c, hc ▸ h, rfl⟩) fun a h => .inl ⟨a, hat ▸ h, rfl⟩

theorem Action.known (h : Action K₀ i s s') {kind : ResourceKind} (hk : Known K₀ kind s id) :
    Known K₀ kind s' id :=
  hk.imp_right fun ⟨j, hj, hc⟩ => ⟨j, h.issued _ hj, h.created _ hc⟩

/-- The two states agree on comments, on attachments, and on what is noted. -/
structure Same (s s' : AppState) : Prop where
  comments : s'.db.comments = s.db.comments
  attachments : s'.db.attachments = s.db.attachments
  issued : s'.history.issued = s.history.issued
  authorised : s'.history.authorised = s.history.authorised
  created : s'.history.created = s.history.created

theorem Same.refl (s : AppState) : Same s s := by
  constructor <;> rfl

theorem Action.of_same (hi : AuthorInv K₀ s) (h : Same s s') : Action K₀ i s s' := by
  have hknown : ∀ kind id, Known K₀ kind s id → Known K₀ kind s' id := fun kind id hk =>
    hk.imp_right fun ⟨j, hj, hc⟩ => ⟨j, h.issued ▸ hj, h.created ▸ hc⟩
  have hissued : ∀ id, Issued s id → Issued s' id :=
    fun id hid => hid.imp fun _ hx => h.issued ▸ hx
  refine ⟨⟨h.comments ▸ .refl _, h.attachments ▸ .refl _⟩, fun _ hx => h.issued ▸ hx,
    fun _ hx => h.authorised ▸ hx, fun _ hx => .inl (h.authorised ▸ hx),
    fun _ hx => h.created ▸ hx, fun _ hx => .inl (h.created ▸ hx), ?_⟩
  exact ⟨fun c hc => hknown _ _ (hi.comments c (h.comments ▸ hc)),
    fun a ha => hknown _ _ (hi.attachments a (h.attachments ▸ ha)),
    fun x hx hk => hissued _ (hi.noted x (h.created ▸ hx) hk),
    fun id a b ha hb => hi.once id a b (h.issued ▸ ha) (h.issued ▸ hb),
    fun id hid => hissued _ (hi.past id hid)⟩

end Actions

/-! ### The contract's rules -/

theorem authorContract_tolerant : TolerantOfKeys (authorContract K₀) where
  stay _ _ _ s hi _ := .of_same hi (.refl s)
  bystander _ _ _ _ hi h := .of_same hi
    ⟨h.comments, h.attachments, by rw [h.history], by rw [h.history], by rw [h.history]⟩
  issue _ _ _ hi ha :=
    .of_tables hi ha ⟨.inr rfl, fun _ h => h, fun _ h => .inl h, fun _ h => h,
      fun _ h => .inl h⟩ rfl rfl
  keys _ _ _ _ hi h := .of_same hi
    ⟨by rw [h.db], by rw [h.db], by rw [h.history], by rw [h.history], by rw [h.history]⟩

/-- A statement on the database that is beside the point. -/
theorem sql_same {A : Type} {event : Event} {ready : AppState → Bool}
    {run : Env → AppState → Except AppError A × AppState} (h : ∀ e s, Same s (run e s).2) :
    (authorContract K₀).Safe i (sqlWhen event ready run) :=
  sqlWhen_safe authorContract_tolerant.toPatient fun s e hi _ _ _ => .of_same hi (h e s)

theorem authorisedAs_lasting {user : AuthenticatedUser} :
    (authorContract K₀).Lasting (Authority.AuthorisedAs i user) :=
  fun _ _ _ _ _ _ h hg => hg.authorised _ h

theorem unused_stable {kind : ResourceKind} :
    (authorContract K₀).Stable i fun s => Unused K₀ kind i s id := by
  intro s s' j l e _ h hj hg
  refine ⟨h.1, hg.issued _ h.2.1, fun hc => ?_⟩
  rcases hg.own _ hc with hold | hi
  · exact h.2.2 hold
  · exact hj hi.symm

theorem newUuid_unused {kind : ResourceKind} (hkind : authored kind = true) {F : AppState → Prop}
    (hF : (authorContract K₀).Lasting F) : (authorContract K₀).Triple i F newUuid
      (onOk fun id s => Unused K₀ kind i s id ∧ F s) := by
  refine Triple.atomic (hF.stable i) (stable_onOk fun _ => unused_stable.and (hF.stable i))
    fun s e hi hs _ ha => ?_
  obtain ⟨hpid, hfresh⟩ := not_issued_of_admissible ha
  have hg := authorContract_tolerant.issue i e s hi ha
  refine ⟨hg, ⟨fun h => hfresh (hi.past _ h), ?_, fun hc => ?_⟩, hF i _ e s _ hi hs hg⟩
  · exact hpid ▸ List.mem_cons_self
  · exact hfresh (hi.noted _ hc hkind)

/-- The comment has had the imprint, and has it unless it has been deleted. -/
def CommentOf (K₀ : Uuid → Prop) (commentId : Uuid) (o : CommentRecord) (s : AppState) : Prop :=
  Known K₀ .comment s commentId ∧ ∀ c ∈ s.db.comments, c.id = commentId → imprint c = o

theorem commentOf_lasting {o : CommentRecord} :
    (authorContract K₀).Lasting (CommentOf K₀ id o) := by
  intro i l e s s' hi h hg
  refine ⟨hg.known h.1, ?_⟩
  exact hg.entitled.comments.imprint_eq (h.1.not_unused hi.once) h.2

/-- The attachment is this one, unless it has been deleted. -/
def AttachmentOf (K₀ : Uuid → Prop) (a : AttachmentRecord) (s : AppState) : Prop :=
  Known K₀ .attachment s a.id ∧ ∀ b ∈ s.db.attachments, b.id = a.id → b = a

theorem attachmentOf_lasting {a : AttachmentRecord} :
    (authorContract K₀).Lasting (AttachmentOf K₀ a) := by
  intro i l e s s' hi h hg
  refine ⟨hg.known h.1, ?_⟩
  exact hg.entitled.attachments.imprint_eq (h.1.not_unused hi.once) h.2

theorem AuthorInv.commentOf {c : CommentRecord} (hi : AuthorInv K₀ s) (hc : c ∈ s.db.comments) :
    CommentOf K₀ c.id (imprint c) s :=
  ⟨hi.comments c hc, fun b hb hid => by rw [s.db.comments.eq_of_key hb hc hid]⟩

theorem AuthorInv.attachmentOf {a : AttachmentRecord} (hi : AuthorInv K₀ s)
    (ha : a ∈ s.db.attachments) : AttachmentOf K₀ a s :=
  ⟨hi.attachments a ha, fun _ hb hid => s.db.attachments.eq_of_key hb ha hid⟩

/-! ### Statements -/

section Statements

variable {user : AuthenticatedUser} {taskId commentId attachmentId : Uuid}

theorem As.of_authorised (h : Authority.AuthorisedAs i user s) :
    As i s user.tenantId user.userId := ⟨user.role, h⟩

theorem AsOrAdmin.of_check {authorId : Uuid} (h : Authority.AuthorisedAs i user s)
    (hcheck : (authorId = user.userId || user.role = .owner || user.role = .admin) = true) :
    AsOrAdmin i s user.tenantId authorId := by
  simp only [Bool.or_eq_true, decide_eq_true_eq] at hcheck
  rcases hcheck with (rfl | hrole) | hrole
  · exact .inl (.of_authorised h)
  · exact .inr ⟨user.userId, user.role, h, by rw [hrole]; rfl⟩
  · exact .inr ⟨user.userId, user.role, h, by rw [hrole]; rfl⟩

theorem isComment_iff {tenantId : Uuid} {c : CommentRecord} :
    isComment tenantId taskId commentId c = true ↔
      c.id = commentId ∧ c.tenantId = tenantId ∧ c.taskId = taskId := by
  simp [isComment, and_assoc]

theorem isAttachment_iff {tenantId : Uuid} {a : AttachmentRecord} :
    isAttachment tenantId taskId attachmentId a = true ↔
      a.id = attachmentId ∧ a.tenantId = tenantId ∧ a.taskId = taskId := by
  simp [isAttachment, and_assoc]

/-- What is true of every row that a query can find is true of the one that is found. -/
theorem found_triple {A : Type} {run : Env → AppState → Option A} {error : AppError}
    {P : AppState → Prop} {Q : A → AppState → Prop} (hP : (authorContract K₀).Stable i P)
    (hQ : ∀ a, (authorContract K₀).Stable i (Q a))
    (h : ∀ e s a, AuthorInv K₀ s → P s → run e s = some a → Q a s) :
    (authorContract K₀).Triple i P ((select run).bind fun o => Prog.okOr o error) (onOk Q) := by
  have hstable (o : Option A) : (authorContract K₀).Stable i fun s => ∀ a, o = some a → Q a s :=
    stable_forall fun a => stable_imp (hQ a)
  refine Triple.seq (sql_triple authorContract_tolerant.toPatient hP hstable
    fun s e hi hs _ _ => ⟨.of_same hi (.refl s), fun a ha => h e s a hi hs ha⟩) fun o => ?_
  cases o with
  | none => exact Triple.fail
  | some a => exact Triple.done (hstable (some a)) fun _ _ h => h a rfl

/-- A row that is found is what its identifier stands for from then on. -/
theorem getComment_triple {tenantId : Uuid} {F : AppState → Prop}
    (hF : (authorContract K₀).Lasting F) :
    (authorContract K₀).Triple i F (getComment tenantId taskId commentId)
      (onOk fun c s => c.id = commentId ∧ CommentOf K₀ c.id (imprint c) s ∧ F s) := by
  refine found_triple (hF.stable i)
    (fun c => stable_const.and ((commentOf_lasting.and hF).stable i)) fun e s c hi hs hc => ?_
  obtain ⟨hmem, hid⟩ := Table.find?_eq_some.mp (Option.filter_eq_some_iff.mp hc).1
  exact ⟨hid, hi.commentOf hmem, hs⟩

theorem getAttachment_triple {tenantId : Uuid} {F : AppState → Prop}
    (hF : (authorContract K₀).Lasting F) :
    (authorContract K₀).Triple i F (getAttachment tenantId taskId attachmentId)
      (onOk fun a s => a.id = attachmentId ∧ AttachmentOf K₀ a s ∧ F s) := by
  refine found_triple (hF.stable i)
    (fun a => stable_const.and ((attachmentOf_lasting.and hF).stable i)) fun e s a hi hs ha => ?_
  obtain ⟨hmem, hid⟩ := Table.find?_eq_some.mp (Option.filter_eq_some_iff.mp ha).1
  exact ⟨hid, hi.attachmentOf hmem, hs⟩

/-- The call is the user's, and has an identifier for a row. -/
def Ready (K₀ : Uuid → Prop) (kind : ResourceKind) (i : Nat)
    (user : AuthenticatedUser) (id : Uuid) (s : AppState) : Prop :=
  Unused K₀ kind i s id ∧ Authority.AuthorisedAs i user s

theorem ready_stable {kind : ResourceKind} :
    (authorContract K₀).Stable i (Ready K₀ kind i user id) :=
  unused_stable.and (authorisedAs_lasting.stable i)

theorem newUuid_ready {kind : ResourceKind} (hkind : authored kind = true) :
    (authorContract K₀).Triple i (Authority.AuthorisedAs i user) newUuid
      (onOk (Ready K₀ kind i user)) :=
  newUuid_unused hkind authorisedAs_lasting

/-- A call that has generated an identifier may generate others. -/
theorem newUuid_keep {kind : ResourceKind} :
    (authorContract K₀).Triple i (Ready K₀ kind i user id) newUuid
      (onOk fun _ => Ready K₀ kind i user id) := by
  refine (newUuid_or authorContract_tolerant.toPatient ready_stable fun s x h => ?_).post
    fun r s _ h => ?_
  · exact ⟨⟨h.1.1, List.mem_cons_of_mem _ h.1.2.1, h.1.2.2⟩, h.2⟩
  · cases r with
    | ok id => exact h
    | error x => trivial

theorem storagePut_keep {kind : ResourceKind} {key : String} {bytes : Bytes} :
    (authorContract K₀).Triple i (Ready K₀ kind i user id) (Storage.put key bytes)
      (onOk fun _ => Ready K₀ kind i user id) := by
  have hwrite : ∀ (s : AppState) content, (authorContract K₀).inv s →
      Ready K₀ kind i user id s →
      Action K₀ i s { s with storage := Function.update s.storage key content } ∧
        Ready K₀ kind i user id { s with storage := Function.update s.storage key content } :=
    fun s content hi hs => ⟨.of_same hi (by constructor <;> rfl), hs⟩
  refine Triple.seq (Q := fun _ => Ready K₀ kind i user id) (Triple.done ready_stable ?_)
    fun _ => ?_
  · intro s _ hs
    cases Storage.validateKey key with
    | ok u => exact hs
    | error x => trivial
  refine Triple.seq (Q := fun _ => Ready K₀ kind i user id)
    (Triple.atomic ready_stable (stable_onOk fun _ => ready_stable) fun s e hi hs _ _ => ?_)
    fun _ => Triple.atomic ready_stable (stable_onOk fun _ => ready_stable)
      fun s e hi hs _ _ => ?_
  · split
    · exact hwrite s _ hi hs
    · exact ⟨.of_same hi (.refl s), trivial⟩
    · exact ⟨.of_same hi (.refl s), trivial⟩
  · split
    · exact hwrite s _ hi hs
    · exact ⟨(hwrite s _ hi hs).1, trivial⟩

/-! ### The writes of comments -/

theorem authorId_eq_of_imprint {b c : CommentRecord} (h : imprint b = imprint c) :
    b.authorId = c.authorId := by
  have himprint : (imprint b).authorId = (imprint c).authorId := by rw [h]
  exact himprint

theorem createComment_row {body : String} :
    (authorContract K₀).Triple i (Authority.AuthorisedAs i user)
      (Db.createComment app user.tenantId taskId user.userId body) fun _ _ => True := by
  have hK : Patient (authorContract K₀) := authorContract_tolerant.toPatient
  refine (utcNow_safe hK).carry_bind authorisedAs_lasting fun now => ?_
  refine Triple.bind (Q := onOk (Ready K₀ .comment i user)) (newUuid_ready rfl) (fun id => ?_)
    fun _ _ _ _ => trivial
  refine Triple.bind newUuid_keep (fun auditId => ?_) fun _ _ _ _ => trivial
  refine sql_from hK ready_stable fun s e hi hs ha _ => ?_
  have hpid : e.pid = i := (not_issued_of_admissible ha).1
  dsimp only
  split
  · rename_i comments taskAudit hins _
    refine .of_entitled hi ha (.of_created ⟨i, hs.1.2.1⟩ rfl)
      ⟨.insert hins hs.1 (.of_authorised hs.2), .refl _⟩ (fun c hc => ?_)
      fun a ha => .inl ⟨a, ha, rfl⟩
    rcases ((Table.insert_eq_some hins).2 c).mp hc with hold | rfl
    · exact .inl ⟨c, hold, rfl⟩
    · exact .inr (.inr ⟨i, hs.1.2.1, hpid ▸ List.mem_cons_self⟩)
  · exact .of_same hi (.refl s)

theorem updateComment_row {c : CommentRecord} {body : String} (hid : c.id = commentId)
    (hauthor : c.authorId = user.userId) :
    (authorContract K₀).Triple i
      (fun s => CommentOf K₀ c.id (imprint c) s ∧ Authority.AuthorisedAs i user s)
      (Db.updateComment user.tenantId taskId commentId body) fun _ _ => True := by
  refine sql_from authorContract_tolerant.toPatient
    ((commentOf_lasting.stable i).and (authorisedAs_lasting.stable i)) fun s e hi hs ha _ => ?_
  dsimp only
  split
  · exact .of_same hi (.refl s)
  · have hkeeps : Table.KeepsKey CommentRecord.id fun c => { c with body, updatedAt := e.now } :=
      ⟨fun _ => rfl⟩
    refine .of_entitled hi ha (.of_history rfl)
      ⟨.update hkeeps (fun _ => rfl) fun b hb hmatch => ?_, .refl _⟩
      (fun b hb => ?_) fun a ha => .inl ⟨a, ha, rfl⟩
    · obtain ⟨hbid, hbtenant, -⟩ := isComment_iff.mp hmatch
      have hsame : b.authorId = c.authorId :=
        authorId_eq_of_imprint (hs.1.2 b hb (hbid.trans hid.symm))
      rw [hbtenant, hsame, hauthor]
      exact .of_authorised hs.2
    · simp only [Table.mem_update] at hb
      obtain ⟨b₀, hb₀, rfl⟩ := hb
      refine .inl ⟨b₀, hb₀, ?_⟩
      split <;> rfl

theorem deleteComment_row {c : CommentRecord} (hid : c.id = commentId)
    (hcheck : (c.authorId = user.userId || user.role = .owner || user.role = .admin) = true) :
    (authorContract K₀).Triple i
      (fun s => CommentOf K₀ c.id (imprint c) s ∧ Authority.AuthorisedAs i user s)
      (Db.deleteComment app user.tenantId taskId commentId user.userId) fun _ _ => True := by
  have hK : Patient (authorContract K₀) := authorContract_tolerant.toPatient
  have hF : (authorContract K₀).Lasting fun s =>
      CommentOf K₀ c.id (imprint c) s ∧ Authority.AuthorisedAs i user s :=
    commentOf_lasting.and authorisedAs_lasting
  refine (newUuid_safe hK).carry_bind hF fun auditId => ?_
  refine (utcNow_safe hK).carry_bind hF fun auditAt => ?_
  refine sql_from hK (hF.stable i) fun s e hi hs ha _ => ?_
  dsimp only
  split
  · exact .of_same hi (.refl s)
  · refine .of_entitled hi ha (.of_history rfl) ⟨.delete fun b hb hmatch => ?_, .refl _⟩
      (fun b hb => .inl ⟨b, (Table.mem_delete.mp hb).1, rfl⟩) fun a ha => .inl ⟨a, ha, rfl⟩
    obtain ⟨hbid, hbtenant, -⟩ := isComment_iff.mp hmatch
    have hsame : b.authorId = c.authorId :=
      authorId_eq_of_imprint (hs.1.2 b hb (hbid.trans hid.symm))
    rw [hbtenant, hsame]
    exact .of_check hs.2 hcheck
  · exact .of_same hi (.refl s)

/-! ### The writes of attachments -/

theorem createAttachment_row {fileName contentType storageKey : String} {sizeBytes : Nat}
    {content : Bytes} :
    (authorContract K₀).Triple i (Ready K₀ .attachment i user attachmentId)
      (Db.createAttachment app attachmentId user.tenantId taskId user.userId fileName contentType
        sizeBytes storageKey content) fun _ _ => True := by
  have hK : Patient (authorContract K₀) := authorContract_tolerant.toPatient
  refine Triple.bind (utcNow_keep hK ready_stable) (fun now => ?_) fun _ _ _ _ => trivial
  refine Triple.bind newUuid_keep (fun auditId => ?_) fun _ _ _ _ => trivial
  refine sql_from hK ready_stable fun s e hi hs ha _ => ?_
  have hpid : e.pid = i := (not_issued_of_admissible ha).1
  dsimp only
  split
  · rename_i attachments taskAudit hins _
    refine .of_entitled hi ha (.of_created ⟨i, hs.1.2.1⟩ rfl)
      ⟨.refl _, .insert hins hs.1 (.of_authorised hs.2)⟩ (fun c hc => .inl ⟨c, hc, rfl⟩)
      fun a ha => ?_
    rcases ((Table.insert_eq_some hins).2 a).mp ha with hold | rfl
    · exact .inl ⟨a, hold, rfl⟩
    · exact .inr (.inr ⟨i, hs.1.2.1, hpid ▸ List.mem_cons_self⟩)
  · exact .of_same hi (.refl s)

theorem deleteAttachment_row {a : AttachmentRecord} (hid : a.id = attachmentId)
    (hcheck : (a.uploadedBy = user.userId || user.role = .owner || user.role = .admin) = true) :
    (authorContract K₀).Triple i (fun s => AttachmentOf K₀ a s ∧ Authority.AuthorisedAs i user s)
      (Db.deleteAttachment app user.tenantId taskId attachmentId user.userId)
      fun _ _ => True := by
  have hK : Patient (authorContract K₀) := authorContract_tolerant.toPatient
  have hF : (authorContract K₀).Lasting fun s =>
      AttachmentOf K₀ a s ∧ Authority.AuthorisedAs i user s :=
    attachmentOf_lasting.and authorisedAs_lasting
  refine (newUuid_safe hK).carry_bind hF fun auditId => ?_
  refine (utcNow_safe hK).carry_bind hF fun auditAt => ?_
  refine sql_from hK (hF.stable i) fun s e hi hs ha _ => ?_
  dsimp only
  split
  · exact .of_same hi (.refl s)
  · split
    · exact .of_same hi (.refl s)
    · refine .of_entitled hi ha (.of_history rfl) ⟨.refl _, .delete fun b hb hmatch => ?_⟩
        (fun c hc => .inl ⟨c, hc, rfl⟩) fun b hb => .inl ⟨b, (Table.mem_delete.mp hb).1, rfl⟩
      obtain ⟨hbid, hbtenant, -⟩ := isAttachment_iff.mp hmatch
      obtain rfl : b = a := hs.1.2 b hb (hbid.trans hid.symm)
      rw [hbtenant]
      exact .of_check hs.2 hcheck

/-! ### Whole requests -/

theorem getTask_safe {tenantId : Uuid} :
    (authorContract K₀).Safe i (Tasks.getTask tenantId taskId) :=
  .bind (select_safe authorContract_tolerant.toPatient) fun _ => .okOr

theorem enqueueNotification_safe {n : NewNotification} {maxAttempts : Nat} :
    (authorContract K₀).Safe i (enqueueNotification n maxAttempts) :=
  enqueue_safe authorContract_tolerant.toPatient fun _ _ _ _ hi _ _ => .of_same hi (by constructor <;> rfl)

theorem notifyAssignee_safe {task : TaskRecord} {tenantId authorId : Uuid}
    {comment : CommentRecord} : (authorContract K₀).Safe i
      (Comments.notifyAssignee app task tenantId authorId comment) := by
  have hK : Tolerant (authorContract K₀) := authorContract_tolerant.toTolerant
  unfold Comments.notifyAssignee
  split
  · exact .done
  · refine .ite (fun _ => .done) fun _ => .bind (select_safe hK).attempt fun _ => .ite
      (fun _ => .bind (getUserById_safe hK).attempt fun found => ?_) fun _ => .done
    cases found with
    | error _ => exact .done
    | ok assignee => exact .bind enqueueNotification_safe.attempt fun _ => .done

theorem createComment_from {body : String} :
    (authorContract K₀).Triple i (Authority.AuthorisedAs i user)
      (Comments.createComment app user.tenantId taskId user.userId body) fun _ _ => True := by
  refine getTask_safe.carry_bind authorisedAs_lasting fun task => ?_
  refine Triple.bind createComment_row (fun comment => ?_) fun _ _ _ _ => trivial
  exact Safe.bind notifyAssignee_safe fun _ => .done

theorem updateComment_from {body : String} :
    (authorContract K₀).Triple i (Authority.AuthorisedAs i user)
      (Comments.updateComment user.tenantId taskId commentId user.userId body)
      fun _ _ => True := by
  have hF : (authorContract K₀).Lasting (Authority.AuthorisedAs i user) := authorisedAs_lasting
  refine getTask_safe.carry_bind hF fun _ => ?_
  refine Triple.bind (getComment_triple hF) (fun c => ?_) fun _ _ _ _ => trivial
  refine Triple.of_fact fun hid => ?_
  have hboth : (authorContract K₀).Lasting fun s =>
      CommentOf K₀ c.id (imprint c) s ∧ Authority.AuthorisedAs i user s :=
    commentOf_lasting.and hF
  refine Triple.bind (Triple.ensure (hboth.stable i)) (fun _ => ?_) fun _ _ _ _ => trivial
  exact Triple.of_fact fun hauthor => updateComment_row hid (of_decide_eq_true hauthor)

theorem deleteComment_from :
    (authorContract K₀).Triple i (Authority.AuthorisedAs i user)
      (Comments.deleteComment app user.tenantId taskId commentId user.userId user.role)
      fun _ _ => True := by
  have hF : (authorContract K₀).Lasting (Authority.AuthorisedAs i user) := authorisedAs_lasting
  refine getTask_safe.carry_bind hF fun _ => ?_
  refine Triple.bind (getComment_triple hF) (fun c => ?_) fun _ _ _ _ => trivial
  refine Triple.of_fact fun hid => ?_
  have hboth : (authorContract K₀).Lasting fun s =>
      CommentOf K₀ c.id (imprint c) s ∧ Authority.AuthorisedAs i user s :=
    commentOf_lasting.and hF
  refine Triple.bind (Triple.ensure (hboth.stable i)) (fun _ => ?_) fun _ _ _ _ => trivial
  exact Triple.of_fact fun hcheck => deleteComment_row hid hcheck

theorem uploadAttachment_from {fileName contentType : String} {bytes : Bytes} :
    (authorContract K₀).Triple i (Authority.AuthorisedAs i user)
      (Attachments.uploadAttachment app user.tenantId taskId user.userId fileName contentType
        bytes) fun _ _ => True := by
  have hK : Tolerant (authorContract K₀) := authorContract_tolerant.toTolerant
  have hF : (authorContract K₀).Lasting (Authority.AuthorisedAs i user) := authorisedAs_lasting
  refine getTask_safe.carry_bind hF fun _ => ?_
  refine (select_safe hK).carry_bind hF fun count => ?_
  refine Safe.ensure.carry_bind hF fun _ => ?_
  refine Triple.bind (Q := onOk (Ready K₀ .attachment i user)) (newUuid_ready rfl)
    (fun attachmentId => ?_) fun _ _ _ _ => trivial
  refine Triple.bind storagePut_keep (fun _ => ?_) fun _ _ _ _ => trivial
  refine Triple.bind createAttachment_row.onOk_any.attempt (fun created => ?_)
    fun _ _ _ _ => trivial
  refine Triple.pre (P := fun _ => True) ?_ fun _ _ _ => trivial
  cases created with
  | ok attachment => exact Safe.done
  | error error => exact Safe.bind (storageDelete_safe hK).attempt fun _ => .fail

theorem deleteAttachment_from :
    (authorContract K₀).Triple i (Authority.AuthorisedAs i user)
      (Attachments.deleteAttachment app user.tenantId taskId attachmentId user.userId user.role)
      fun _ _ => True := by
  have hK : Tolerant (authorContract K₀) := authorContract_tolerant.toTolerant
  have hF : (authorContract K₀).Lasting (Authority.AuthorisedAs i user) := authorisedAs_lasting
  refine getTask_safe.carry_bind hF fun _ => ?_
  refine Triple.bind (getAttachment_triple hF) (fun a => ?_) fun _ _ _ _ => trivial
  refine Triple.of_fact fun hid => ?_
  have hboth : (authorContract K₀).Lasting fun s =>
      AttachmentOf K₀ a s ∧ Authority.AuthorisedAs i user s :=
    attachmentOf_lasting.and hF
  refine Triple.bind (Triple.ensure (hboth.stable i)) (fun _ => ?_) fun _ _ _ _ => trivial
  refine Triple.of_fact fun hcheck => ?_
  refine Triple.bind (deleteAttachment_row hid hcheck) (fun deleted => ?_) fun _ _ _ _ => trivial
  exact Safe.bind (storageDelete_safe hK).attempt fun _ => .done

theorem handler_from (route : Route) :
    (authorContract K₀).Triple i (Authority.AuthorisedAs i user) (route.handler app user)
      fun _ _ => True := by
  have hF : (authorContract K₀).Lasting (Authority.AuthorisedAs i user) := authorisedAs_lasting
  have unit {A : Type} {p : Service A}
      (h : (authorContract K₀).Triple i (Authority.AuthorisedAs i user) p fun _ _ => True) :
      (authorContract K₀).Triple i (Authority.AuthorisedAs i user) (p.bind fun _ => pure ())
        fun _ _ => True :=
    .bind h (fun _ => Safe.done) fun _ _ _ _ => trivial
  cases route with
  | createTaskComment taskId idempotencyKey body =>
      refine unit (.lift_bind fun _ _ => .lift_bind fun _ _ => .lift_bind fun key _ => ?_)
      exact idempotent_from authorContract_tolerant.patient hF fun _ => createComment_from
  | updateTaskComment taskId commentId body =>
      refine unit (.lift_bind fun _ _ => .lift_bind fun body _ => ?_)
      exact .bind updateComment_from (fun _ => Safe.done) fun _ _ _ _ => trivial
  | deleteTaskComment taskId commentId => exact deleteComment_from
  | uploadTaskAttachment taskId fileName contentType idempotencyKey body =>
      refine unit (.lift_bind fun _ _ => .lift_bind fun _ _ => .lift_bind fun _ _ =>
        .lift_bind fun key _ => ?_)
      exact idempotent_from authorContract_tolerant.patient hF fun _ => uploadAttachment_from
  | deleteTaskAttachment taskId attachmentId => exact deleteAttachment_from

theorem authorise_triple {tenantId userId : Uuid} :
    (authorContract K₀).Triple i (fun _ => True) (Authority.authorise tenantId userId)
      (onOk fun user s => Authority.AuthorisedAs i user s ∧ user.tenantId = tenantId) := by
  refine Authority.authorise_noted authorContract_tolerant.toPatient
    (fun _ => authorisedAs_lasting) (fun _ _ ha => (not_issued_of_admissible ha).1)
    fun s e role hi ha hrole => ?_
  refine .of_tables hi ha ⟨.inl rfl, fun _ h => List.mem_cons_of_mem _ h, fun x hx => ?_,
    fun _ h => h, fun _ h => .inl h⟩ rfl rfl
  rcases List.mem_cons.mp hx with rfl | hold
  · exact .inr ⟨rfl, hrole⟩
  · exact .inl hold

theorem call_keeps (k : AuthorCall) :
    (authorContract K₀).Safe i ((authorSystem app).body k) := by
  change (authorContract K₀).Safe i (k.body app)
  cases k with
  | request userId activeTenantId route =>
      refine Triple.bind authorise_triple (fun user => ?_) fun _ _ _ _ => trivial
      exact (handler_from route).pre fun _ _ hs => hs.1
  | elsewhere p h =>
      exact h.safe fun _ _ _ _ hi ha h => .of_tables hi ha h.toNoted h.comments h.attachments

end Statements

/-- The identifiers of the rows have been generated, each once. -/
structure AuthorStart (s : AppState) : Prop where
  comments : ∀ c ∈ s.db.comments, Issued s c.id
  attachments : ∀ a ∈ s.db.attachments, Issued s a.id
  noted : ∀ x ∈ s.history.created, authored x.2.1 = true → Issued s x.2.2
  once : IssuedOnce s

theorem AuthorStart.inv (h : AuthorStart s) : AuthorInv (Issued s) s :=
  ⟨fun c hc => .inl (h.comments c hc), fun a ha => .inl (h.attachments a ha), h.noted, h.once,
    fun _ hid => hid⟩

end Authors

open Authors

/-- In every run, comments and attachments come, change and go as only their authors and the
privileged members may have it, with identifiers that are new; and whatever has the identifier of a
comment or an attachment later is that, but for the text of the comment. -/
theorem authors_decide {app : App} {s : AppState} {ms₁ ms₂ : List (Move Env AuthorCall)}
    {d c : Config Event Env AppState AppError AuthorCall Unit} (hs : AuthorStart s)
    (hd : (authorSystem app).exec (.start s) ms₁ = some d)
    (hc : (authorSystem app).exec d ms₂ = some c) :
    (authorSystem app).Along (fun b m => ∀ b', (authorSystem app).step b m = some b' →
      b'.st = b.st ∨ ∃ i e, m = .exec i e ∧ Entitled (Issued s) i b.st b'.st ∧
        Authority.NotesRole i b.st b'.st) (.start s) ms₁ ∧
    (∀ o ∈ d.st.db.comments, ∀ o' ∈ c.st.db.comments, o'.id = o.id → imprint o' = imprint o) ∧
    ∀ o ∈ d.st.db.attachments, ∀ o' ∈ c.st.db.attachments, o'.id = o.id → o' = o := by
  have hkeeps : Keeps (authorContract (Issued s)) (fun _ _ _ _ => True) d :=
    sound_all (fun _ k => call_keeps k) (fun _ _ _ _ ha => ha) hs.inv hd
  refine ⟨?_, fun o ho => ?_, fun o ho => ?_⟩
  · refine (along_guar (K := authorContract (Issued s)) (fun _ k => call_keeps k)
      (fun _ _ _ _ ha => ha) hs.inv hd).mono fun b m hb b' hb' => ?_
    rcases hb b' hb' with ⟨-, hst⟩ | ⟨i, e, l, hm, hg⟩
    · exact .inl hst
    · exact .inr ⟨i, e, hm, hg.entitled, hg.roles⟩
  · exact (hkeeps.lasting commentOf_lasting (fun _ k => call_keeps k) (fun _ _ _ _ ha => ha)
      (hkeeps.1.commentOf ho) hc).2
  · exact (hkeeps.lasting attachmentOf_lasting (fun _ k => call_keeps k) (fun _ _ _ _ ha => ha)
      (hkeeps.1.attachmentOf ho) hc).2

/-! ### An edit -/

namespace Authors

/-- Tenant 1 with the owner 10, the member 12 and a task of the owner. -/
def ownersTask : AppState :=
  { (default : AppState) with
    db := { (default : Database) with
      users := .single ⟨12, "b@x", "h", none, none, 0⟩
      tenants := .single ⟨1, "T", 0⟩
      memberships := ⟨[⟨1, 12, .member, 5⟩, ⟨1, 10, .owner, 5⟩], by decide⟩
      tasks := .single ⟨6, 1, none, "t", none, .open, .low, none, none, 10, 10, 0, 0⟩ } }

theorem ownersTask_start : AuthorStart ownersTask :=
  ⟨fun _ h => absurd h Table.not_mem_empty, fun _ h => absurd h Table.not_mem_empty,
    fun _ h => absurd h List.not_mem_nil, fun _ _ _ h => absurd h List.not_mem_nil⟩

/-- The next `n` statements of call `i`; what they generate is numbered from `first`. -/
def authorMoves (i n first : Nat) : List (Move Env AuthorCall) :=
  (List.range n).map fun k => .exec i { (default : Env) with pid := i, uuid := first + k }

/-- The member comments on the task. -/
def firstComment : List (Move Env AuthorCall) :=
  .call (.request 12 1 (.createTaskComment 6 (some "key") "first")) :: authorMoves 0 10 100

/-- The owner is refused an edit of the comment; its author is not. -/
def twoEdits : List (Move Env AuthorCall) :=
  .call (.request 10 1 (.updateTaskComment 6 106 "other")) :: authorMoves 1 3 200 ++
    .call (.request 12 1 (.updateTaskComment 6 106 "second")) :: authorMoves 2 4 300

/-- The texts of the comments. -/
def texts (c : Config Event Env AppState AppError AuthorCall Unit) : List String :=
  c.st.db.comments.rows.map (·.body)

end Authors

/-- What is said of runs, of one with two edits. -/
theorem authors_decide_edits :
    ∃ d c, (authorSystem default).exec (.start ownersTask) firstComment = some d ∧
      (authorSystem default).exec d twoEdits = some c ∧ texts d = ["first"] ∧ texts c = ["second"] ∧
      (authorSystem default).Along (fun b m => ∀ b', (authorSystem default).step b m = some b' →
        b'.st = b.st ∨ ∃ i e, m = .exec i e ∧ Entitled (Issued ownersTask) i b.st b'.st ∧
          Authority.NotesRole i b.st b'.st) (.start ownersTask) firstComment ∧
      (∀ o ∈ d.st.db.comments, ∀ o' ∈ c.st.db.comments, o'.id = o.id → imprint o' = imprint o) ∧
      ∀ o ∈ d.st.db.attachments, ∀ o' ∈ c.st.db.attachments, o'.id = o.id → o' = o := by
  have h : ((authorSystem default).exec (.start ownersTask) firstComment).any fun d =>
      texts d = ["first"] ∧
        ((authorSystem default).exec d twoEdits).any fun c => texts c = ["second"] := by
    decide +kernel
  obtain ⟨d, hd, hrest⟩ := (Option.any_eq_true _ _).mp h
  obtain ⟨hfirst, hedits⟩ := of_decide_eq_true hrest
  obtain ⟨c, hc, hsecond⟩ := (Option.any_eq_true _ _).mp hedits
  exact ⟨d, c, hd, hc, hfirst, of_decide_eq_true hsecond, authors_decide ownersTask_start hd hc⟩

end Fluxa
