import Fluxa.Http.Members
import Fluxa.Http.Quiet
import Fluxa.Members.Writes

/-!
# Members — role authority

Any number of requests invite members, accept invitations, change roles and remove members, side by side.  A request carries the role with which it was authorised; the role of its target it reads in one statement and writes in a later one.

* **`role_authority`**: in every run, what is done to a membership that is neither owner nor admin is done rightfully: a grant of such a role is made for a request authorised as that of an owner, or accepts an invitation that such a request has created.  So is all that is done to the membership if no request changes it while it is owner or admin when, since the request has looked, another has made it one.
* **`admin_removed_by_admin`**: an admin removes a member who has been made an admin since the check.
-/

namespace Fluxa
open Interleave Relational Db Contract

namespace Authority

variable {i : Nat} {s s' : AppState} {tenantId userId : Uuid}

/-! ### The system -/

/-- The statement with which `protected_middleware` authorises a request, once the token has passed
its checks; the history notes what it has found. -/
def authorise (tenantId userId : Uuid) : Service AuthenticatedUser :=
  sql .quiet fun e s =>
    match (s.db.memberships.find? (tenantId, userId)).bind (joinTenant s) with
    | none => (.error (.unauthorized "membership not found"), s)
    | some m => (.ok ⟨userId, tenantId, m.role, 0⟩, { s with
        history.authorised := (e.pid, tenantId, userId, m.role) :: s.history.authorised })

/-- The routes. -/
inductive Route where
  | createInvitation (tenantId : Uuid) (idempotencyKey : Option String) (email role : String)
  | revokeInvitation (tenantId invitationId : Uuid)
  | acceptInvitation (tenantId : Uuid) (token : String)
  | updateMemberRole (tenantId memberId : Uuid) (role : String)
  | removeMember (tenantId memberId : Uuid)

def Route.handler (app : App) (user : AuthenticatedUser) : Route → Service Unit
  | .createInvitation tenantId idempotencyKey email role => do
    let _ ← Http.createInvitation app user tenantId idempotencyKey email role
    return ()
  | .revokeInvitation tenantId invitationId => Http.revokeInvitation user tenantId invitationId
  | .acceptInvitation tenantId token => do
    let _ ← Http.acceptInvitation app user tenantId token
    return ()
  | .updateMemberRole tenantId memberId role => do
    let _ ← Http.updateMemberRole user tenantId memberId role
    return ()
  | .removeMember tenantId memberId => Http.removeMember user tenantId memberId

/-- A request: the user and the active tenant of its token, and its route. -/
structure MemberRequest where
  userId : Uuid
  activeTenantId : Uuid
  route : Route

/-- Any number of requests, side by side. -/
def authoritySystem (app : App) : System Event Env AppState AppError MemberRequest Unit where
  body k := do
    let user ← authorise k.activeTenantId k.userId
    k.route.handler app user
  adm := admissible

/-! ### Authority -/

/-- The role of the user in the tenant. -/
def roleOf (s : AppState) (tenantId userId : Uuid) : Option MembershipRole :=
  (s.db.memberships.find? (tenantId, userId)).map (·.role)

/-- The role is owner or admin. -/
def Privileged (role : Option MembershipRole) : Prop := role.any MembershipRole.privileged = true

instance (role : Option MembershipRole) : Decidable (Privileged role) :=
  inferInstanceAs (Decidable (_ = _))

/-- Request `i` has been authorised as that of an owner. -/
def OwnersRequest (i : Nat) (tenantId : Uuid) (s : AppState) : Prop :=
  ∃ u, (i, tenantId, u, .owner) ∈ s.history.authorised

/-- A request of its creator, authorised as that of an owner, has created the invitation. -/
def InvitedByOwner (s : AppState) (v : InvitationRecord) : Prop :=
  ∃ j, (j, .invitation, v.id) ∈ s.history.created ∧
    (j, v.tenantId, v.createdBy, .owner) ∈ s.history.authorised

/-- The invitations to a privileged role are those of owners. -/
def OwnersInvite (s : AppState) : Prop :=
  ∀ v ∈ s.db.invitations, v.role.privileged = true → InvitedByOwner s v

/-- From `s` to `s'` the invitation is accepted. -/
def Accepts (v : InvitationRecord) (s s' : AppState) : Prop :=
  v ∈ s.db.invitations ∧ v.acceptedAt = none ∧
    ∃ v' ∈ s'.db.invitations, v'.id = v.id ∧ v'.acceptedAt.isSome

/-- What request `i` does to the membership if it is privileged before or after, it does as the
request of an owner, or it accepts an owner's invitation. -/
def Rightful (i : Nat) (tenantId userId : Uuid) (s s' : AppState) : Prop :=
  roleOf s' tenantId userId ≠ roleOf s tenantId userId →
    Privileged (roleOf s tenantId userId) ∨ Privileged (roleOf s' tenantId userId) →
    OwnersRequest i tenantId s ∨ roleOf s tenantId userId = none ∧ ∃ v, Accepts v s s' ∧
      v.tenantId = tenantId ∧ roleOf s' tenantId userId = some v.role ∧ InvitedByOwner s v

/-- What request `i` notes when it is authorised is the role that its user has. -/
def NotesRole (i : Nat) (s s' : AppState) : Prop :=
  ∀ x ∈ s'.history.authorised, x ∈ s.history.authorised ∨
    x.1 = i ∧ roleOf s x.2.1 x.2.2.1 = some x.2.2.2

/-- A request is authorised with its first statement, and one that is to change the membership looks
at it with its second.  To make it privileged disturbs what others have seen; to change it while it
is privileged relies on having seen that. -/
def roleWatch (tenantId userId : Uuid) : Watch AppState where
  looks n := n = 2
  disturbs s s' := !Privileged (roleOf s tenantId userId) && Privileged (roleOf s' tenantId userId)
  relies s s' := Privileged (roleOf s tenantId userId) &&
    roleOf s' tenantId userId ≠ roleOf s tenantId userId

theorem not_disturbs_of_eq (h : roleOf s' tenantId userId = roleOf s tenantId userId) :
    (roleWatch tenantId userId).disturbs s s' = false := by
  simp [roleWatch, h]

theorem privileged_of_not_disturbs (h : (roleWatch tenantId userId).disturbs s s' = false)
    (hp : Privileged (roleOf s' tenantId userId)) : Privileged (roleOf s tenantId userId) := by
  by_contra hno
  simp [roleWatch, hno, hp] at h

theorem roleOf_eq_of_not_relies (h : (roleWatch tenantId userId).relies s s' = false)
    (hp : Privileged (roleOf s tenantId userId)) :
    roleOf s' tenantId userId = roleOf s tenantId userId := by
  simpa [roleWatch, hp] using h

/-! ### What a statement does -/

/-- The invitations are those there were, but for their acceptance and revocation. -/
def SameInvitations (s s' : AppState) : Prop :=
  ∀ v' ∈ s'.db.invitations, ∃ v ∈ s.db.invitations, v'.id = v.id ∧ v'.tenantId = v.tenantId ∧
    v'.role = v.role ∧ v'.createdBy = v.createdBy

/-- What a statement of request `i` does to memberships and invitations; it writes a membership where
`M` allows it. -/
inductive Action (M : Nat → Uuid → Uuid → AppState → Prop) (i : Nat) :
    Event → Env → AppState → AppState → Prop where
  | quiet {l e s s'} (hm : s'.db.memberships = s.db.memberships) (hv : SameInvitations s s')
      (ha : s'.history.authorised = s.history.authorised)
      (hc : s'.history.created = s.history.created) : Action M i l e s s'
  | authorise {e s s' tenantId userId role} (hr : roleOf s tenantId userId = some role)
      (hdb : s'.db = s.db)
      (ha : s'.history.authorised = (i, tenantId, userId, role) :: s.history.authorised)
      (hc : s'.history.created = s.history.created) : Action M i .quiet e s s'
  | invite {e s s'} {v : InvitationRecord} (hm : s'.db.memberships = s.db.memberships)
      (hv : ∀ v' ∈ s'.db.invitations, v' ∈ s.db.invitations ∨ v' = v)
      (hrole : v.role.privileged = true →
        (i, v.tenantId, v.createdBy, .owner) ∈ s.history.authorised)
      (ha : s'.history.authorised = s.history.authorised)
      (hc : s'.history.created = (i, .invitation, v.id) :: s.history.created) :
      Action M i .quiet e s s'
  | accept {e s s'} {v : InvitationRecord} {userId now} (hv : Accepts v s s')
      (hm : s.db.memberships.insert ⟨v.tenantId, userId, v.role, now⟩ = some s'.db.memberships)
      (hvs : SameInvitations s s') (ha : s'.history.authorised = s.history.authorised)
      (hc : s'.history.created = s.history.created) : Action M i .commitAcceptance e s s'
  | write {e s s' tenantId userId role} (hM : M i tenantId userId s) (ht : HasTarget tenantId userId role s)
      (hrole : Privileged role → OwnersRequest i tenantId s)
      (hm : s'.db.memberships = written tenantId userId role s.db.memberships)
      (hv : s'.db.invitations = s.db.invitations) (hh : s'.history = s.history) :
      Action M i (.membershipWrite tenantId userId role) e s s'

/-- If the membership is this one and privileged, it is written as the request of an owner. -/
def AsOwner (tenantId userId : Uuid) (i : Nat) (tenantId' userId' : Uuid) (s : AppState) : Prop :=
  (tenantId', userId') = (tenantId, userId) → Privileged (roleOf s tenantId userId) →
    OwnersRequest i tenantId s

/-- Any membership may be written. -/
def anyWrite (_ : Nat) (_ _ : Uuid) (_ : AppState) : Prop := True

variable {M : Nat → Uuid → Uuid → AppState → Prop}

theorem SameInvitations.of_eq (h : s'.db.invitations = s.db.invitations) : SameInvitations s s' :=
  fun v hv => ⟨v, h ▸ hv, rfl, rfl, rfl, rfl⟩

/-- A statement that touches none of it. -/
theorem Action.of_eq {e : Env} (hm : s'.db.memberships = s.db.memberships)
    (hv : s'.db.invitations = s.db.invitations)
    (ha : s'.history.authorised = s.history.authorised)
    (hc : s'.history.created = s.history.created) : Action M i .quiet e s s' :=
  .quiet hm (.of_eq hv) ha hc

theorem Action.authorised_mono {l : Event} {e : Env} (h : Action M i l e s s') {x}
    (hx : x ∈ s.history.authorised) : x ∈ s'.history.authorised := by
  cases h with
  | quiet _ _ ha => exact ha ▸ hx
  | authorise _ _ ha => exact ha ▸ List.mem_cons_of_mem _ hx
  | invite _ _ _ ha => exact ha ▸ hx
  | accept _ _ _ ha => exact ha ▸ hx
  | write _ _ _ _ _ hh => exact hh ▸ hx

theorem Action.created_mono {l : Event} {e : Env} (h : Action M i l e s s') {x}
    (hx : x ∈ s.history.created) : x ∈ s'.history.created := by
  cases h with
  | quiet _ _ _ hc => exact hc ▸ hx
  | authorise _ _ _ hc => exact hc ▸ hx
  | invite _ _ _ _ hc => exact hc ▸ List.mem_cons_of_mem _ hx
  | accept _ _ _ _ hc => exact hc ▸ hx
  | write _ _ _ _ _ hh => exact hh ▸ hx

theorem InvitedByOwner.mono {l : Event} {e : Env} {v : InvitationRecord}
    (hv : InvitedByOwner s v) (h : Action M i l e s s') : InvitedByOwner s' v :=
  let ⟨j, hj, ho⟩ := hv
  ⟨j, h.created_mono hj, h.authorised_mono ho⟩

theorem InvitedByOwner.congr {v v' : InvitationRecord} (hv : InvitedByOwner s v)
    (hid : v'.id = v.id) (ht : v'.tenantId = v.tenantId) (hc : v'.createdBy = v.createdBy) :
    InvitedByOwner s v' := by
  rw [InvitedByOwner, hid, ht, hc]
  exact hv

theorem Action.sameInvitations {l : Event} {e : Env} (h : Action M i l e s s')
    (hs : SameInvitations s s') (hi : OwnersInvite s) : OwnersInvite s' := by
  intro v' hv' hr
  obtain ⟨v, hv, hid, ht, hrole, hc⟩ := hs v' hv'
  exact ((hi v hv (hrole ▸ hr)).mono h).congr hid ht hc

theorem Action.ownersInvite {l : Event} {e : Env} (hi : OwnersInvite s) (h : Action M i l e s s') :
    OwnersInvite s' := by
  cases id h with
  | quiet _ hv => exact h.sameInvitations hv hi
  | authorise _ hdb => exact h.sameInvitations (.of_eq (by rw [hdb])) hi
  | invite _ hv hrole ha hc =>
      intro v' hv' hr
      rcases hv v' hv' with hold | rfl
      · exact (hi v' hold hr).mono h
      · exact ⟨i, hc ▸ List.mem_cons_self, ha ▸ hrole hr⟩
  | accept _ _ hvs => exact h.sameInvitations hvs hi
  | write _ _ _ _ hv => exact h.sameInvitations (.of_eq hv) hi

/-! ### Roles after a statement -/

theorem roleOf_of_eq (h : s'.db.memberships = s.db.memberships) :
    roleOf s' tenantId userId = roleOf s tenantId userId := by
  simp only [roleOf, h]

theorem isMembership_iff {m : MembershipRow} :
    isMembership tenantId userId m = true ↔ (m.tenantId, m.userId) = (tenantId, userId) := by
  simp [isMembership]

/-- The target of a write has the role written, and nobody else's role changes. -/
theorem roleOf_written {tenantId' userId' : Uuid} {role : Option MembershipRole}
    (hm : s'.db.memberships = written tenantId userId role s.db.memberships)
    (ht : HasTarget tenantId userId role s) : roleOf s' tenantId' userId' =
      if (tenantId', userId') = (tenantId, userId) then role else roleOf s tenantId' userId' := by
  obtain ⟨⟨m, hmem, hkey⟩, -⟩ := ht
  rw [isMembership_iff] at hkey
  cases hf : s.db.memberships.find? (tenantId', userId') with
  | none =>
      have hne : (tenantId', userId') ≠ (tenantId, userId) := fun he =>
        Table.find?_eq_none.mp hf m hmem (hkey.trans he.symm)
      cases role with
      | none => simp [roleOf, hm, written, Table.find?_delete, hf, hne]
      | some role => simp [roleOf, hm, written, Table.find?_update, hf, hne]
  | some a =>
      obtain ⟨ha, hka⟩ := Table.find?_eq_some.mp hf
      by_cases he : (tenantId', userId') = (tenantId, userId)
      · have hat : isMembership tenantId userId a = true := isMembership_iff.mpr (hka.trans he)
        simp only [Prod.mk.injEq] at he
        obtain ⟨rfl, rfl⟩ := he
        cases role with
        | none => simp [roleOf, hm, written, Table.find?_delete, hf, hat]
        | some role => simp [roleOf, hm, written, Table.find?_update, hf, hat]
      · have hat : isMembership tenantId userId a = false := by
          rw [Bool.eq_false_iff, ne_eq, isMembership_iff]
          exact fun h => he (hka.symm.trans h)
        cases role with
        | none => simp [roleOf, hm, written, Table.find?_delete, hf, he, hat]
        | some role => simp [roleOf, hm, written, Table.find?_update, hf, he, hat]

/-- A new member has the role of the invitation, and nobody else's role changes. -/
theorem roleOf_insert {m : MembershipRow}
    (hm : s.db.memberships.insert m = some s'.db.memberships) : roleOf s' tenantId userId =
      if (m.tenantId, m.userId) = (tenantId, userId) then some m.role
      else roleOf s tenantId userId := by
  rw [roleOf, Table.find?_insert hm]
  split
  · rfl
  · rfl

theorem roleOf_none_of_insert {m : MembershipRow}
    (hm : s.db.memberships.insert m = some s'.db.memberships) :
    roleOf s m.tenantId m.userId = none := by
  rw [roleOf, Table.find?_eq_none.mpr (Table.insert_eq_some hm).1]
  rfl

/-- What is written as the request of an owner, if it is privileged, is written rightfully. -/
theorem Action.rightful {l : Event} {e : Env} (hi : OwnersInvite s)
    (h : Action (AsOwner tenantId userId) i l e s s') : Rightful i tenantId userId s s' := by
  intro hne hp
  cases h with
  | quiet hm => exact absurd (roleOf_of_eq hm) hne
  | authorise _ hdb => exact absurd (roleOf_of_eq (by rw [hdb])) hne
  | invite hm => exact absurd (roleOf_of_eq hm) hne
  | @accept _ _ _ v u' now hv hm =>
      refine .inr ?_
      rw [roleOf_insert hm] at hne hp
      by_cases hk : (v.tenantId, u') = (tenantId, userId)
      · simp only [Prod.mk.injEq] at hk
        obtain ⟨rfl, rfl⟩ := hk
        have hnone := roleOf_none_of_insert hm
        refine ⟨hnone, v, hv, rfl, by rw [roleOf_insert hm]; simp, hi v hv.1 ?_⟩
        rw [hnone] at hp
        simpa [Privileged] using hp
      · simp [hk] at hne
  | @write _ _ _ t₀ u₀ role hM ht hrole hm =>
      rw [roleOf_written hm ht] at hne hp
      by_cases hk : (tenantId, userId) = (t₀, u₀)
      · simp only [Prod.mk.injEq] at hk
        obtain ⟨rfl, rfl⟩ := hk
        rcases hp with hp | hp
        · exact .inl (hM rfl hp)
        · exact .inl (hrole (by simpa using hp))
      · simp [hk] at hne

/-- A write is as the request of an owner unless it changes a privileged membership. -/
theorem Action.asOwner {l : Event} {e : Env} (h : Action M i l e s s')
    (hsame : Privileged (roleOf s tenantId userId) →
      roleOf s' tenantId userId = roleOf s tenantId userId) :
    Action (AsOwner tenantId userId) i l e s s' := by
  cases h with
  | quiet hm hv ha hc => exact .quiet hm hv ha hc
  | authorise hr hdb ha hc => exact .authorise hr hdb ha hc
  | invite hm hv hrole ha hc => exact .invite hm hv hrole ha hc
  | accept hv hm hvs ha hc => exact .accept hv hm hvs ha hc
  | @write _ _ _ t₀ u₀ role hM ht hrole hm hv hh =>
      refine .write (fun hk hp => ?_) ht hrole hm hv hh
      simp only [Prod.mk.injEq] at hk
      obtain ⟨rfl, rfl⟩ := hk
      have hrole' : role = roleOf s t₀ u₀ := by
        rw [← hsame hp, roleOf_written hm ht]
        simp
      exact hrole (hrole' ▸ hp)

theorem Action.notesRole {l : Event} {e : Env} (h : Action M i l e s s') : NotesRole i s s' := by
  intro x hx
  cases h with
  | quiet _ _ ha => exact .inl (ha ▸ hx)
  | authorise hr _ ha =>
      rw [ha] at hx
      rcases List.mem_cons.mp hx with rfl | hx
      · exact .inr ⟨rfl, hr⟩
      · exact .inl hx
  | invite _ _ _ ha => exact .inl (ha ▸ hx)
  | accept _ _ _ ha => exact .inl (ha ▸ hx)
  | write _ _ _ _ _ hh => exact .inl (hh ▸ hx)

/-! ### The requests keep to it -/

/-- The contract: every statement is an `Action`. -/
def authorityContract (M : Nat → Uuid → Uuid → AppState → Prop) : Contract Event Env AppState where
  inv := OwnersInvite
  guar := Action M
  adm i l e s := admissible i l e s = true
  guar_inv := Action.ownersInvite

theorem authorityContract_tolerant : TolerantOfKeys (authorityContract M) where
  stay i l e s _ _ := .quiet rfl (.of_eq rfl) rfl rfl
  bystander i e s s' _ h := .of_eq h.memberships h.invitations (by rw [h.history]) (by rw [h.history])
  issue i e s _ _ := .of_eq rfl rfl rfl rfl
  keys i e s s' _ h := .of_eq (by rw [h.db]) (by rw [h.db]) (by rw [h.history]) (by rw [h.history])

/-- The request has been authorised with the role that `user` carries. -/
def AuthorisedAs (i : Nat) (user : AuthenticatedUser) (s : AppState) : Prop :=
  (i, user.tenantId, user.userId, user.role) ∈ s.history.authorised

/-- Under any contract that lets a request be authorised, one that is has been noted. -/
theorem authorise_noted {K : Contract Event Env AppState} (hK : Patient K)
    (hlast : ∀ user, K.Lasting (AuthorisedAs i user)) (hpid : ∀ e s, K.adm i .quiet e s → e.pid = i)
    (h : ∀ s e role, K.inv s → K.adm i .quiet e s → roleOf s tenantId userId = some role →
      K.guar i .quiet e s { s with
        history.authorised := (e.pid, tenantId, userId, role) :: s.history.authorised }) :
    K.Triple i (fun _ => True) (authorise tenantId userId)
      (onOk fun user s => AuthorisedAs i user s ∧ user.tenantId = tenantId) := by
  refine sql_triple hK stable_const
    (fun user => ((hlast user).stable i).and stable_const) fun s e hi _ ha _ => ?_
  cases hm : s.db.memberships.find? (tenantId, userId) with
  | none => exact ⟨hK.same i e s hi, trivial⟩
  | some m =>
      cases ht : joinTenant s m with
      | none =>
          simp only [Option.bind_some, ht]
          exact ⟨hK.same i e s hi, trivial⟩
      | some r =>
          obtain ⟨tenant, -, rfl⟩ := Option.map_eq_some_iff.mp ht
          simp only [ht, Option.bind_some]
          exact ⟨h s e m.role hi ha (by simp [roleOf, hm]), by simp [AuthorisedAs, hpid e s ha], rfl⟩

theorem AuthorisedAs.owner {user : AuthenticatedUser} (h : AuthorisedAs i user s)
    (howner : user.role = .owner) :
    (i, user.tenantId, user.userId, .owner) ∈ s.history.authorised := by
  rw [← howner]
  exact h

theorem authorisedAs_lasting {user : AuthenticatedUser} :
    (authorityContract M).Lasting (AuthorisedAs i user) :=
  fun _ _ _ _ _ _ h hg => Action.authorised_mono hg h

section Requests

variable {app : App} {user : AuthenticatedUser}

theorem authorise_triple : (authorityContract M).Triple i (fun _ => True) (authorise tenantId userId)
    (onOk fun user s => AuthorisedAs i user s ∧ user.tenantId = tenantId) := by
  refine authorise_noted authorityContract_tolerant.toPatient (fun _ => authorisedAs_lasting)
    (fun _ _ ha => (not_issued_of_admissible ha).1) fun s e role _ ha hr => ?_
  exact .authorise hr rfl (by rw [(not_issued_of_admissible ha).1]) rfl

theorem createInvitation_row {email tokenHash : String} {role : MembershipRole} {expiresAt : Time}
    (hrole : role.privileged = true → user.role = .owner) :
    (authorityContract M).Triple i (AuthorisedAs i user)
      (Db.createInvitation user.tenantId email role tokenHash expiresAt user.userId)
      fun _ _ => True := by
  refine (newUuid_safe authorityContract_tolerant.toPatient).carry_bind authorisedAs_lasting
    fun id => ?_
  refine (utcNow_safe authorityContract_tolerant.toPatient).carry_bind authorisedAs_lasting
    fun now => ?_
  refine sqlWhen_from authorityContract_tolerant.toPatient (authorisedAs_lasting.stable i)
    fun s e _ hs _ ha _ => ?_
  have hpid : e.pid = i := (not_issued_of_admissible ha).1
  split
  · exact .of_eq rfl rfl rfl rfl
  · split
    · exact .of_eq rfl rfl rfl rfl
    · split
      · rename_i invitations hins
        exact .invite rfl (fun v hv => (Table.insert_eq_some hins).2 v |>.mp hv)
          (fun hp => hs.owner (hrole hp)) rfl (by simp [noteCreated, hpid])
      · exact .of_eq rfl rfl rfl rfl

theorem sql_apart {A : Type} {run : Env → AppState → Except AppError A × AppState}
    (h : ∀ e s, Action M i .quiet e s (run e s).2) : (authorityContract M).Safe i (sql .quiet run) :=
  sql_safe authorityContract_tolerant.toPatient fun s e _ _ _ => h e s

theorem enqueueNotification_safe {n : NewNotification} {maxAttempts : Nat} :
    (authorityContract M).Safe i (enqueueNotification n maxAttempts) :=
  enqueue_safe authorityContract_tolerant.toPatient fun _ _ _ _ _ _ _ => .of_eq rfl rfl rfl rfl

theorem ensureNotMember_safe {email : String} :
    (authorityContract M).Safe i (ensureNotMember tenantId email) := by
  refine .bind (select_safe authorityContract_tolerant.toPatient) fun found => ?_
  split
  · exact .done
  · exact .bind (select_safe authorityContract_tolerant.toPatient) fun _ => .ensure

theorem createInvitation_from {email : String} {role : MembershipRole} :
    (authorityContract M).Triple i (AuthorisedAs i user)
      (Fluxa.createInvitation app user.tenantId user.role user.userId email role)
      fun _ _ => True := by
  have hF : (authorityContract M).Lasting (AuthorisedAs i user) := authorisedAs_lasting
  have hK : Patient (authorityContract M) := authorityContract_tolerant.toPatient
  cases hinv : ensureInvitable user.role role with
  | error error =>
      simp only [Fluxa.createInvitation, hinv]
      exact Triple.any (Triple.fail (Q := fun _ _ => True))
  | ok u =>
      have hrole : role.privileged = true → user.role = .owner := by
        intro hp
        cases role with
        | owner => cases hinv
        | admin => simpa [ensureInvitable] using hinv
        | member => cases hp
      simp only [Fluxa.createInvitation, hinv]
      change (authorityContract M).Triple i _ ((ensureNotMember user.tenantId email).bind _) _
      refine ensureNotMember_safe.carry_bind hF fun _ => ?_
      refine (generateRandom_safe hK).carry_bind hF fun token => ?_
      refine (utcNow_safe hK).carry_bind hF fun now => ?_
      refine Triple.bind (Triple.attempt (createInvitation_row hrole).onOk_any) (fun created => ?_)
        fun _ _ _ _ => trivial
      refine Triple.pre (P := fun _ => True) (Safe.bind .done fun invitation => ?_)
        fun _ _ _ => trivial
      refine .bind (.attempt enqueueNotification_safe) fun _ => ?_
      exact .bind (recordEvent_safe authorityContract_tolerant.lenient.discreet) fun _ => .done

theorem SameInvitations.of_rows {p : InvitationRecord → Bool}
    {f : InvitationRecord → InvitationRecord}
    (h : s'.db.invitations.rows = s.db.invitations.rows.map fun v => if p v then f v else v)
    (hf : ∀ v, (f v).id = v.id ∧ (f v).tenantId = v.tenantId ∧ (f v).role = v.role ∧
      (f v).createdBy = v.createdBy) : SameInvitations s s' := by
  intro v' hv'
  rw [Table.mem_def, h] at hv'
  obtain ⟨v, hv, rfl⟩ := List.mem_map.mp hv'
  refine ⟨v, hv, ?_⟩
  split
  · exact hf v
  · exact ⟨rfl, rfl, rfl, rfl⟩

theorem revokeInvitation_safe {actorUserId invitationId : Uuid} :
    (authorityContract M).Safe i (Fluxa.revokeInvitation tenantId actorUserId invitationId) := by
  refine .bind (sqlWhen_safe authorityContract_tolerant.toPatient fun s e _ _ _ _ => ?_) fun _ =>
    recordEvent_safe authorityContract_tolerant.lenient.discreet
  dsimp only
  split
  · refine .quiet rfl (.of_rows rfl ?_) rfl rfl
    exact fun _ => ⟨rfl, rfl, rfl, rfl⟩
  · exact .of_eq rfl rfl rfl rfl

/-- Nothing is asked of an error. -/
def anyError (_ : AppError) (_ : AppState) : Prop := True

theorem endTx_apart {e : Env} {s : AppState} :
    Action M i .quiet e s (endAcceptTx e.pid s) ∧ ∀ x, anyError x (endAcceptTx e.pid s) :=
  ⟨.of_eq rfl rfl rfl rfl, fun _ => trivial⟩

/-- The `UPDATE` finds an invitation that has not been accepted. -/
theorem markAccepted_or {tokenHash : String} {now : Time} :
    (authorityContract M).Triple i (fun _ => True) (markAccepted tenantId tokenHash now)
      (orFail anyError fun T _ => T.invitation.acceptedAt = none) := by
  refine inAcceptTx_or stable_const (fun _ => stable_const) (fun _ => stable_const)
    (fun _ _ _ _ _ => endTx_apart) fun s e T s' _ _ _ _ h => ?_
  dsimp only at h
  split at h
  · cases h
  · rename_i v hv
    obtain ⟨-, hacc⟩ := Table.mem_select.mp (List.mem_of_head? hv)
    simp only [isAcceptable, isPendingInvitation, Bool.and_eq_true, Option.isNone_iff_eq_none]
      at hacc
    cases h
    exact ⟨.of_eq rfl rfl rfl rfl, hacc.1.2.1⟩

/-- The membership that is inserted has the role of the invitation. -/
theorem insertMember_or {T : AcceptTx} (hT : T.invitation.acceptedAt = none) :
    (authorityContract M).Triple i (fun _ => True) (insertMember T userId)
      (orFail anyError fun r _ => r.1.invitation.acceptedAt = none ∧
        r.1.membership = some (AcceptTx.memberFor r.1 userId)) := by
  refine inAcceptTx_or stable_const (fun _ => stable_const) (fun _ => stable_const)
    (fun _ _ _ _ _ => endTx_apart) fun s e r s' _ _ _ _ h => ?_
  dsimp only at h
  split at h
  · cases h
  · cases h
  · cases h
    exact ⟨.of_eq rfl rfl rfl rfl, hT, rfl⟩

theorem commitAcceptance_safe {T : AcceptTx} (hT : T.invitation.acceptedAt = none)
    (hm : T.membership = some (AcceptTx.memberFor T userId)) :
    (authorityContract M).Triple i (fun _ => True) (commitAcceptance T)
      (orFail anyError fun _ _ => True) := by
  refine commitAcceptance_or stable_const (fun _ => stable_const) (fun _ _ _ _ _ => ?_)
    fun s e s' _ _ _ h => ?_
  · exact ⟨.quiet rfl (.of_eq rfl) rfl rfl, fun _ => trivial⟩
  · obtain ⟨m, memberships, hTm, hins, hfind, rfl⟩ := applyAcceptance_eq_some h
    obtain rfl := Option.some.inj (hTm.symm.trans hm)
    obtain ⟨hmem, -⟩ := Table.find?_eq_some.mp hfind
    refine ⟨.accept ⟨hmem, hT, ?_⟩ hins (.of_rows rfl ?_) rfl rfl, fun _ _ => trivial⟩
    · refine ⟨{ T.invitation with acceptedAt := some T.acceptedAt }, ?_, rfl, rfl⟩
      exact Table.mem_update_of_true hmem (by simp)
    · exact fun _ => ⟨rfl, rfl, rfl, rfl⟩

theorem acceptInvitation_row {tokenHash userEmail : String} :
    (authorityContract M).Triple i (fun _ => True)
      (Db.acceptInvitation tenantId tokenHash userId userEmail)
      (orFail anyError fun _ _ => True) := by
  have hclock : (authorityContract M).Triple i (fun _ => True) acceptanceTime
      (orFail anyError fun _ _ => True) :=
    Triple.atomic stable_const (stable_orFail (fun _ => stable_const) fun _ => stable_const)
      fun _ _ _ _ _ _ => ⟨.of_eq rfl rfl rfl rfl, trivial⟩
  refine hclock.seq_or fun now => markAccepted_or.seq_or fun T => Triple.ite (fun _ => ?_) fun _ => ?_
  · exact dropAcceptTx_or stable_const (fun _ => stable_const) fun _ _ _ _ _ => endTx_apart
  · refine Triple.pre (P := fun _ => T.invitation.acceptedAt = none ∧ True) ?_
      fun _ _ h => ⟨h, trivial⟩
    refine Triple.of_fact fun hT => (insertMember_or hT).seq_or fun r => ?_
    refine Triple.pre (P := fun _ => (r.1.invitation.acceptedAt = none ∧
      r.1.membership = some (AcceptTx.memberFor r.1 userId)) ∧ True) ?_ fun _ _ h => ⟨h, trivial⟩
    refine Triple.of_fact fun hr => (commitAcceptance_safe hr.1 hr.2).seq_or fun _ => ?_
    exact Triple.done stable_const fun _ _ _ => trivial

theorem acceptInvitation_safe {token : String} :
    (authorityContract M).Safe i (Fluxa.acceptInvitation app tenantId userId token) := by
  refine .bind (.bind (select_safe authorityContract_tolerant.toPatient) fun _ => .okOr)
    fun user => .bind acceptInvitation_row.any fun membership => ?_
  exact .bind (recordEvent_safe authorityContract_tolerant.lenient.discreet) fun _ => .done

theorem revokeUserTenant_safe :
    (authorityContract M).Safe i (revokeUserTenantRefreshTokens userId tenantId) := by
  have hK : Patient (authorityContract M) := authorityContract_tolerant.toPatient
  refine .bind (utcNow_safe hK) fun _ => .bind (.bind ?_ fun _ => ?_) fun _ => .done
  · exact .atomic fun _ _ _ _ _ => .of_eq rfl rfl rfl rfl
  · exact sqlWhen_safe hK fun _ _ _ _ _ _ => .of_eq rfl rfl rfl rfl

/-! ### A change of a membership -/

section Changes

variable {K : Contract Event Env AppState} {F : MembershipRole → AppState → Prop} {memberId : Uuid}
  (hK : Tolerant K) (hown : ∀ l e s s', Action M i l e s s' → K.guar i l e s s')
  (hF : ∀ r, K.Stable i (F r))
  (hlook : K.Triple i (AuthorisedAs i user) (getTenantMember user.tenantId memberId)
    (onOk fun found s => ∀ target, found = some target → F target.role s))
include hK hown hF hlook

/-- What the look-up tells of the target's role, with the check, allows the write. -/
theorem updateMemberRole_means {newRole : MembershipRole}
    (hM : ∀ r s, mayChange user.role newRole r = true → F r s →
      AuthorisedAs i user s ∧ M i user.tenantId memberId s) :
    K.Triple i (AuthorisedAs i user)
      (Fluxa.updateMemberRole user.tenantId user.role user.userId memberId newRole)
      fun _ _ => True := by
  rw [updateMemberRole_eq]
  refine changeOfMember_rule hF hlook (fun r _ => ensureOwnerRetained_keep hK (hF r))
    (fun r hcheck => ?_) fun _ => updateMemberRole_rest hK.lenient.discreet
  refine updateMembershipRole_from hK (hF r)
    (fun s e _ _ _ => hown _ e s s (.quiet rfl (.of_eq rfl) rfl rfl)) fun s e _ hs _ ht => ?_
  obtain ⟨hauth, hwrite⟩ := hM r s hcheck hs
  refine hown _ e s _ (.write hwrite ht (fun hp => ⟨user.userId, hauth.owner ?_⟩) rfl rfl rfl)
  have hnew : newRole.privileged = true := hp
  simpa [mayChange, hnew] using hcheck

theorem removeMember_means
    (hrevoke : K.Safe i (revokeUserTenantRefreshTokens memberId user.tenantId))
    (hM : ∀ r s, mayRemove user.role r = true → F r s → M i user.tenantId memberId s) :
    K.Triple i (AuthorisedAs i user)
      (Fluxa.removeMember user.tenantId user.role user.userId memberId) fun _ _ => True := by
  rw [removeMember_eq]
  refine changeOfMember_rule hF hlook (fun r _ => ensureOwnerRetained_keep hK (hF r))
    (fun r hcheck => ?_) fun _ => removeMember_rest hK.lenient.discreet hrevoke
  refine deleteMembership_from hK (hF r)
    (fun s e _ _ _ => hown _ e s s (.quiet rfl (.of_eq rfl) rfl rfl)) fun s e _ hs _ ht => ?_
  exact hown _ e s _ (.write (hM r s hcheck hs) ht (fun hp => by cases hp) rfl rfl rfl)

end Changes

/-- The contract as long as nobody makes the membership privileged but request `i`. -/
abbrev calmRoles (tenantId userId : Uuid) (i : Nat) : Contract Event Env AppState :=
  (authorityContract (AsOwner tenantId userId)).calm (roleWatch tenantId userId) i

theorem calmRoles_tolerant : Tolerant (calmRoles tenantId userId i) :=
  authorityContract_tolerant.toTolerant.calm
    (fun _ _ h => not_disturbs_of_eq (roleOf_of_eq h.memberships))
    fun _ _ => not_disturbs_of_eq rfl

theorem calmRoles_own {l : Event} {e : Env} (h : Action (AsOwner tenantId userId) i l e s s') :
    (calmRoles tenantId userId i).guar i l e s s' :=
  ⟨h, fun hne => absurd rfl hne⟩

/-- The request has been authorised, and if its target is the membership that is watched and is
privileged, it has seen that. -/
def SeenBy (tenantId userId : Uuid) (i : Nat) (user : AuthenticatedUser) (memberId : Uuid)
    (r : MembershipRole) (s : AppState) : Prop :=
  AuthorisedAs i user s ∧ ((user.tenantId, memberId) = (tenantId, userId) →
    Privileged (roleOf s tenantId userId) → r.privileged = true)

theorem seenBy_stable {memberId : Uuid} {r : MembershipRole} :
    (calmRoles tenantId userId i).Stable i (SeenBy tenantId userId i user memberId r) :=
  stable_calm fun _ _ _ _ _ _ hs hg hcalm => ⟨hg.authorised_mono hs.1,
    fun hk hp => hs.2 hk (privileged_of_not_disturbs hcalm hp)⟩

theorem getTenantMember_sees {memberId : Uuid} :
    (calmRoles tenantId userId i).Triple i (AuthorisedAs i user)
      (getTenantMember user.tenantId memberId)
      (onOk fun found s => ∀ target, found = some target →
        SeenBy tenantId userId i user memberId target.role s) := by
  refine sql_triple calmRoles_tolerant.toPatient (authorisedAs_lasting.calm.stable i)
    (fun _ => stable_forall fun _ => stable_imp seenBy_stable) fun s e hi hs _ _ =>
      ⟨calmRoles_tolerant.same i e s hi, fun target h => ⟨hs, fun hk hp => ?_⟩⟩
  simp only [Prod.mk.injEq] at hk
  obtain ⟨rfl, rfl⟩ := hk
  obtain ⟨m, hm, hjoin⟩ := Option.bind_eq_some_iff.mp h
  obtain ⟨u, -, rfl⟩ := Option.map_eq_some_iff.mp hjoin
  simpa [Privileged, roleOf, hm] using hp

/-- Who has seen a privileged role is let through as an owner only. -/
theorem SeenBy.asOwner {memberId : Uuid} {r : MembershipRole}
    (h : SeenBy tenantId userId i user memberId r s)
    (hcheck : r.privileged = true → user.role = .owner) :
    AsOwner tenantId userId i user.tenantId memberId s := by
  intro hk hp
  have howner := h.1.owner (hcheck (h.2 hk hp))
  simp only [Prod.mk.injEq] at hk
  exact ⟨user.userId, hk.1 ▸ howner⟩

theorem updateMemberRole_calm {memberId : Uuid} {newRole : MembershipRole} :
    (calmRoles tenantId userId i).Triple i (AuthorisedAs i user)
      (Fluxa.updateMemberRole user.tenantId user.role user.userId memberId newRole)
      fun _ _ => True := by
  refine updateMemberRole_means (F := SeenBy tenantId userId i user memberId) calmRoles_tolerant (fun _ _ _ _ => calmRoles_own)
    (fun _ => seenBy_stable) getTenantMember_sees fun r s hcheck hs => ⟨hs.1, hs.asOwner ?_⟩
  intro hr
  simpa [mayChange, hr] using hcheck

theorem removeMember_calm {memberId : Uuid} :
    (calmRoles tenantId userId i).Triple i (AuthorisedAs i user)
      (Fluxa.removeMember user.tenantId user.role user.userId memberId) fun _ _ => True := by
  refine removeMember_means (F := SeenBy tenantId userId i user memberId) calmRoles_tolerant (fun _ _ _ _ => calmRoles_own)
    (fun _ => seenBy_stable) getTenantMember_sees revokeUserTenant_safe.calm
    fun r s hcheck hs => hs.asOwner ?_
  intro hr
  simpa [mayRemove, hr] using hcheck

/-! ### Whole requests -/

theorem tenantId_eq_of_ensured {u : Unit} (h : Http.ensureTenantAdmin user tenantId = .ok u) :
    user.tenantId = tenantId := by
  by_contra hne
  simp [Http.ensureTenantAdmin, ensureActiveTenant, hne, bind, Except.bind] at h

theorem handler_from {K : Contract Event Env AppState} (route : Route)
    (hbase : ∀ {A : Type} {p : Service A},
      (authorityContract M).Triple i (AuthorisedAs i user) p (fun _ _ => True) →
      K.Triple i (AuthorisedAs i user) p fun _ _ => True)
    (hupdate : ∀ memberId newRole, K.Triple i (AuthorisedAs i user)
      (Fluxa.updateMemberRole user.tenantId user.role user.userId memberId newRole)
      fun _ _ => True)
    (hremove : ∀ memberId, K.Triple i (AuthorisedAs i user)
      (Fluxa.removeMember user.tenantId user.role user.userId memberId) fun _ _ => True) :
    K.Triple i (AuthorisedAs i user) (route.handler app user) fun _ _ => True := by
  have free {A : Type} {p : Service A} (h : (authorityContract M).Safe i p) :
      K.Triple i (AuthorisedAs i user) p fun _ _ => True := hbase (h.pre fun _ _ _ => trivial)
  have unit {A : Type} {p : Service A}
      (h : K.Triple i (AuthorisedAs i user) p fun _ _ => True) :
      K.Triple i (AuthorisedAs i user) (p.bind fun _ => pure ()) fun _ _ => True :=
    .bind h (fun _ => Safe.done) fun _ _ _ _ => trivial
  cases route with
  | createInvitation tenantId idempotencyKey email role =>
      refine unit (.lift_bind fun _ hu => .lift_bind fun email _ => .lift_bind fun role _ =>
        .lift_bind fun key _ => ?_)
      obtain rfl := tenantId_eq_of_ensured hu
      exact hbase (idempotent_from authorityContract_tolerant.patient authorisedAs_lasting
        fun _ => createInvitation_from)
  | revokeInvitation tenantId invitationId =>
      exact .lift_bind fun _ _ => free revokeInvitation_safe
  | acceptInvitation tenantId token =>
      exact unit (free (Safe.bind .ensure fun _ => acceptInvitation_safe))
  | updateMemberRole tenantId memberId role =>
      refine unit (.lift_bind fun _ hu => .lift_bind fun role _ => ?_)
      obtain rfl := tenantId_eq_of_ensured hu
      exact hupdate memberId role
  | removeMember tenantId memberId =>
      refine .lift_bind fun _ hu => ?_
      obtain rfl := tenantId_eq_of_ensured hu
      exact hremove memberId

theorem handler_calm (user : AuthenticatedUser) (route : Route) : (calmRoles tenantId userId i).Triple i
    (AuthorisedAs i user) (route.handler app user) fun _ _ => True :=
  handler_from route (fun h => h.calm) (fun _ _ => updateMemberRole_calm)
    fun _ => removeMember_calm

/-- Every request keeps to the contract that allows any write. -/
theorem request_safe (k : MemberRequest) :
    (authorityContract anyWrite).Safe i ((authoritySystem app).body k) := by
  refine Triple.bind authorise_triple (fun user => ?_) fun _ _ _ _ => trivial
  have hF : ∀ _ : MembershipRole, (authorityContract anyWrite).Stable i (AuthorisedAs i user) :=
    fun _ => authorisedAs_lasting.stable i
  have hlook {memberId : Uuid} : (authorityContract anyWrite).Triple i (AuthorisedAs i user)
      (getTenantMember user.tenantId memberId)
      (onOk fun found s => ∀ target, found = some target → AuthorisedAs i user s) :=
    ((select_safe authorityContract_tolerant.toPatient).carry authorisedAs_lasting).post
      fun r s _ h => by cases r with
        | error x => trivial
        | ok found => exact fun _ _ => h
  refine (handler_from k.route (fun h => h) (fun memberId newRole => ?_) fun memberId => ?_).pre
    fun _ _ hs => hs.1
  · exact updateMemberRole_means authorityContract_tolerant.toTolerant (fun _ _ _ _ h => h) hF hlook
      fun _ _ _ hs => ⟨hs, trivial⟩
  · exact removeMember_means authorityContract_tolerant.toTolerant (fun _ _ _ _ h => h) hF hlook
      revokeUserTenant_safe fun _ _ _ _ => trivial

theorem request_calm (k : MemberRequest) :
    (calmRoles tenantId userId i).Safe i ((authoritySystem app).body k) :=
  Triple.bind authorise_triple.calm (fun user =>
    (handler_calm user k.route).pre fun _ _ hs => hs.1) fun _ _ _ _ => trivial

/-- From its second statement on a request goes by what it has seen there. -/
theorem request_fromLooks (k : MemberRequest) :
    (authorityContract (AsOwner tenantId userId)).FromLooks (roleWatch tenantId userId) i 0
      ((authoritySystem app).body k) s := by
  refine fromLooks_bind (P := fun _ => True) stable_const (request_calm k) authorise_triple
    (fun user s hs => ?_) trivial
  refine fromLooks_of_triple (fun m hm => ?_) (authorisedAs_lasting.stable i)
    (handler_calm user k.route) hs.1
  simp only [roleWatch, decide_eq_false_iff_not]
  omega

end Requests

end Authority

open Authority

/-- In every run, a request is authorised with the role that its user has then, and what is done to
a membership that is not privileged is done rightfully.  So is all that is done to a membership in
a run in which no request changes it while it is privileged when, since the request has looked,
another has made it so. -/
theorem role_authority {app : App} {s : AppState} {ms : List (Move Env MemberRequest)}
    {c : Config Event Env AppState AppError MemberRequest Unit} (hs : OwnersInvite s)
    (h : (authoritySystem app).exec (.start s) ms = some c) :
    (authoritySystem app).Along (fun d m => ∀ d', (authoritySystem app).step d m = some d' →
      d.Meets (fun i _ _ s => NotesRole i s d'.st ∧ ∀ tenantId userId,
        ¬ Privileged (roleOf s tenantId userId) → Rightful i tenantId userId s d'.st) m)
      (.start s) ms ∧
    ∀ tenantId userId, (roleWatch tenantId userId).Scheduled (authoritySystem app) (.start s) ms →
      (authoritySystem app).Along (fun d m => ∀ d', (authoritySystem app).step d m = some d' →
        d.Meets (fun i _ _ s => Rightful i tenantId userId s d'.st) m) (.start s) ms := by
  have hall : (authoritySystem app).Along
      (fun d m => d.Meets (fun _ _ _ _ => True) m) (.start s) ms :=
    System.along_of_forall fun d m _ _ _ _ _ => trivial
  constructor
  · exact (Contract.invariant (K := authorityContract anyWrite) (P := fun _ => True)
      (R := fun i _ _ s s' => NotesRole i s s' ∧ ∀ tenantId userId,
        ¬ Privileged (roleOf s tenantId userId) → Rightful i tenantId userId s s')
      (fun _ k => request_safe k) (fun _ _ _ _ ha _ => ha)
      (fun _ _ _ _ _ hi _ _ _ hg => ⟨trivial, hg.notesRole, fun _ _ hno =>
        (hg.asOwner fun hp => absurd hp hno).rightful hi⟩) hs trivial hall h).2
  · intro tenantId userId hschedule
    refine (scheduled_along (K := authorityContract (AsOwner tenantId userId))
      (J := authorityContract anyWrite) (P := fun _ _ _ _ => True) (fun _ => request_safe)
      (fun _ => request_calm) (fun _ k _ _ => request_fromLooks k) (fun _ _ _ _ ha => ha)
      (fun _ _ _ _ ha _ => ha) (fun _ _ _ _ _ _ _ hg hrelies => ?_) hs hs hschedule hall).mono ?_
    · exact Action.asOwner hg (roleOf_eq_of_not_relies hrelies)
    · exact fun d m hd d' hd' i e hm l hl =>
        let ⟨hi, hg⟩ := hd d' hd' i e hm l hl
        Action.rightful hi hg

/-! ### A promotion between check and write -/

/-- Tenant 1 with the owner 10, the admin 11 and the member 12. -/
def threeMembers : AppState :=
  { (default : AppState) with
    db := { (default : Database) with
      users := ⟨[⟨10, "a@x", "h", none, none, 0⟩, ⟨11, "b@x", "h", none, none, 0⟩,
        ⟨12, "c@x", "h", none, none, 0⟩], by decide⟩
      tenants := .single ⟨1, "T", 0⟩
      memberships := ⟨[⟨1, 10, .owner, 0⟩, ⟨1, 11, .admin, 0⟩, ⟨1, 12, .member, 0⟩], by decide⟩ } }

theorem threeMembers_invite : OwnersInvite threeMembers :=
  fun _ hv => absurd hv Table.not_mem_empty

/-- A statement of request `i`. -/
def memberMove (i : Nat) : Move Env MemberRequest := .exec i { (default : Env) with pid := i }

/-- The owner's request to promote the member runs to its write before the admin's request to remove
the member looks, and is refused; then the owner's request to remove the member runs. -/
def promotedFirst : List (Move Env MemberRequest) :=
  [.call ⟨11, 1, .removeMember 1 12⟩, .call ⟨10, 1, .updateMemberRole 1 12 "admin"⟩,
    .call ⟨10, 1, .removeMember 1 12⟩, memberMove 0, memberMove 1, memberMove 1, memberMove 1,
    memberMove 0, memberMove 2, memberMove 2, memberMove 2]

/-- The theorem at that run. -/
theorem role_authority_promotedFirst :
    (authoritySystem default).Along (fun d m => ∀ d', (authoritySystem default).step d m = some d' →
      d.Meets (fun i _ _ s => Rightful i 1 12 s d'.st) m) (.start threeMembers) promotedFirst := by
  have h : ((authoritySystem default).exec (.start threeMembers) promotedFirst).isSome := by decide
  obtain ⟨c, hc⟩ := Option.isSome_iff_exists.mp h
  exact (role_authority threeMembers_invite hc).2 1 12 (by decide)

/-- The admin's request to remove the member is authorised and finds a member; then the owner makes
the member an admin. -/
def promotion : List (Move Env MemberRequest) :=
  [.call ⟨11, 1, .removeMember 1 12⟩, .call ⟨10, 1, .updateMemberRole 1 12 "admin"⟩,
    memberMove 0, memberMove 0, memberMove 1, memberMove 1, memberMove 1]

/-- The request of the admin, never authorised as that of an owner, then removes an admin. -/
theorem admin_removed_by_admin : OwnersInvite threeMembers ∧
    ∃ c d, (authoritySystem default).exec (.start threeMembers) promotion = some c ∧
      (authoritySystem default).step c (memberMove 0) = some d ∧
      roleOf c.st 1 12 = some .admin ∧ roleOf d.st 1 12 = none ∧
      c.st.history.authorised = [(1, 1, 10, .owner), (0, 1, 11, .admin)] := by
  have h : ((authoritySystem default).exec (.start threeMembers) promotion).any fun c =>
      ((authoritySystem default).step c (memberMove 0)).any fun d =>
        roleOf c.st 1 12 = some .admin ∧ roleOf d.st 1 12 = none ∧
          c.st.history.authorised = [(1, 1, 10, .owner), (0, 1, 11, .admin)] := by decide
  obtain ⟨c, hc, h⟩ := (Option.any_eq_true _ _).mp h
  obtain ⟨d, hd, h⟩ := (Option.any_eq_true _ _).mp h
  exact ⟨threeMembers_invite, c, d, hc, hd, of_decide_eq_true h⟩

end Fluxa
