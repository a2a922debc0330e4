import Fluxa.Members.Lifecycle
import Fluxa.State.Plays

/-!
# Members — pending invitations

A pending invitation is in the way of another one for the same address, by a unique index that knows no clock; the list of pending invitations leaves out those that have expired.

* **`pending_invitations_agree_iff`**: in every state that requests can reach, a new invitation is refused for a pending one exactly when the list shows one for the address, if and only if no pending invitation for the address has expired.
* **`expired_invitation_in_the_way`**: an invitation that has expired is in the way, and no list shows it.
-/

namespace Fluxa
open Interleave Relational Db Contract

namespace Lifecycle
open Authority Plays

variable {app : App} {tenantId actorUserId : Uuid} {email : String} {es : List Env}
  {s s' : AppState}

/-- The error of a creation that finds a pending invitation. -/
def pendingConflict : AppError := .conflict "a pending invitation already exists for this email"

/-- The user that `get_user_by_email` finds has a membership that `get_membership` finds. -/
def IsMember (s : AppState) (tenantId : Uuid) (email : String) : Prop :=
  ∃ u, (s.db.users.select fun u => u.email = email).head? = some u ∧
    ((s.db.memberships.find? (tenantId, u.id)).bind (joinTenant s)).isSome

/-- The random inputs collide with no invitation. -/
def FreshFor (app : App) (es : List Env) (s : AppState) : Prop :=
  ∀ v ∈ s.db.invitations, ∀ e ∈ es, v.id ≠ e.uuid ∧ v.tokenHash ≠ app.lib.sha256Hex e.random

/-- An invitation for the address is pending. -/
def HasPending (s : AppState) (tenantId : Uuid) (email : String) : Prop :=
  ∃ v ∈ s.db.invitations, v.tenantId = tenantId ∧ v.email = email ∧ isPendingInvitation v = true

theorem play_ensureNotMember {r : Except AppError Unit} (hc : Clean es)
    (hno : ¬ IsMember s tenantId email)
    (h : play (ensureNotMember tenantId email) es s = some (r, s')) : s' = s ∧ r = .ok () := by
  rcases play_bind_cases h with ⟨x, rfl, h₁⟩ | ⟨found, es₁, es₂, t, rfl, h₁, h₂⟩
  · obtain ⟨-, e, -, hr⟩ := play_clean_select hc h₁
    cases hr
  · obtain ⟨rfl, e, -, hr⟩ := play_clean_select hc.append.1 h₁
    cases hr
    split at h₂
    · obtain ⟨-, rfl, rfl⟩ := play_done h₂
      exact ⟨rfl, rfl⟩
    · rename_i u hu
      rcases play_bind_cases h₂ with ⟨x, rfl, h₃⟩ | ⟨m, es₃, es₄, t', rfl, h₃, h₄⟩
      · obtain ⟨-, e', -, hr⟩ := play_clean_select hc.append.2 h₃
        cases hr
      · obtain ⟨rfl, e', -, hr⟩ := play_clean_select hc.append.2.append.1 h₃
        cases hr
        have hnone : ((t'.db.memberships.find? (tenantId, u.id)).bind (joinTenant t')).isNone := by
          rw [← Option.not_isSome]
          simpa using fun hm => hno ⟨u, hu, hm⟩
        rw [hnone] at h₄
        obtain ⟨-, rfl, rfl⟩ := play_done h₄
        exact ⟨rfl, rfl⟩

theorem taken_iff {v : InvitationRecord} (hv : ∀ w ∈ s.db.invitations, w.tokenHash ≠ v.tokenHash) :
    invitationTaken s v = true ↔ HasPending s v.tenantId v.email := by
  rw [invitationTaken, Table.any_eq_true]
  refine exists_congr fun w => and_congr_right fun hw => ?_
  simp [conflictsWith, hv w hw, isPendingInvitation, and_assoc]

/-- The row is inserted unless one is pending. -/
theorem play_createRow {role : MembershipRole} {token : String} {expiresAt : Time}
    {r : Except AppError InvitationRecord} (hc : Clean es) (hrole : role ≠ .owner)
    (hid : ∀ v ∈ s.db.invitations, ∀ e ∈ es, v.id ≠ e.uuid)
    (htoken : ∀ v ∈ s.db.invitations, v.tokenHash ≠ token)
    (h : play (Db.createInvitation tenantId email role token expiresAt actorUserId) es s =
      some (r, s')) :
    (HasPending s tenantId email ∧ r = .error uniqueViolation) ∨
      (¬ HasPending s tenantId email ∧ ∃ v, r = .ok v) := by
  rcases play_bind_cases h with ⟨x, rfl, h₁⟩ | ⟨id, es₁, es₂, t, rfl, h₁, h₂⟩
  · obtain ⟨-, id, hr⟩ := play_newUuid h₁
    cases hr
  · obtain ⟨e, rfl, -, hrun⟩ := play_atomic h₁
    obtain ⟨hr, rfl⟩ := Prod.mk.inj hrun
    cases hr
    rcases play_bind_cases h₂ with ⟨x, rfl, h₃⟩ | ⟨now, es₃, es₄, t', rfl, h₃, h₄⟩
    · obtain ⟨-, e', -, hr⟩ := play_utcNow h₃
      cases hr
    · obtain ⟨rfl, e', -, hr⟩ := play_utcNow h₃
      cases hr
      obtain ⟨e'', -, -, hrun⟩ := play_sqlWhen hc.append.2.append.2 h₄
      rw [if_neg hrole] at hrun
      split at hrun
      · rename_i htaken
        obtain ⟨rfl, -⟩ := Prod.mk.inj hrun
        exact .inl ⟨(taken_iff htoken).mp htaken, rfl⟩
      · rename_i hfree
        refine .inr ⟨fun hp => hfree ((taken_iff htoken).mpr hp), ?_⟩
        split at hrun
        · obtain ⟨rfl, -⟩ := Prod.mk.inj hrun
          exact ⟨_, rfl⟩
        · rename_i hins
          obtain ⟨w, hw, hkey⟩ := Table.insert_eq_none hins
          exact absurd hkey (hid w hw e (List.mem_append_left _ (List.mem_singleton_self e)))

/-- What is left when the row is there fails no more: the notification and the audit row may fail. -/
theorem play_afterRow {role : MembershipRole} {token : String} {expiresAt : Time}
    {invitation : InvitationRecord} {r : Except AppError CreatedInvitation}
    (h : play ((enqueueNotification (invitationNotification app tenantId email role token expiresAt)
        app.config.maxJobAttempts).attempt.bind fun _ =>
      (recordEvent (some tenantId) (some actorUserId) "invitation" (some invitation.id)
        "invitation.created" (.obj [("email", .str email), ("role", .str role.asStr)])).bind
        fun _ => pure ⟨invitation, token⟩) es s = some (r, s')) : ∃ created, r = .ok created := by
  rcases play_bind_cases h with ⟨x, rfl, h₁⟩ | ⟨_, es₁, es₂, t, rfl, -, h₂⟩
  · obtain ⟨r₀, hr, -⟩ := play_attempt h₁
    cases hr
  · rcases play_bind_cases h₂ with ⟨x, rfl, h₃⟩ | ⟨_, es₃, es₄, t', rfl, -, h₄⟩
    · rcases play_bind_cases h₃ with ⟨x', -, h₅⟩ | ⟨_, es₅, es₆, t'', -, -, h₆⟩
      · obtain ⟨r₀, hr, -⟩ := play_attempt h₅
        cases hr
      · obtain ⟨-, hr, -⟩ := play_done h₆
        cases hr
    · obtain ⟨-, rfl, -⟩ := play_done h₄
      exact ⟨_, rfl⟩

/-- A new invitation is refused for a pending one exactly when one is pending, expired or not. -/
theorem play_createInvitation_iff {actorRole role : MembershipRole}
    {r : Except AppError CreatedInvitation} (hc : Clean es)
    (hrole : ensureInvitable actorRole role = .ok ()) (hno : ¬ IsMember s tenantId email)
    (hfresh : FreshFor app es s)
    (h : play (Fluxa.createInvitation app tenantId actorRole actorUserId email role) es s =
      some (r, s')) : r = .error pendingConflict ↔ HasPending s tenantId email := by
  have howner : role ≠ .owner := fun he => by
    rw [he] at hrole
    cases hrole
  simp only [Fluxa.createInvitation, hrole] at h
  change play ((ensureNotMember tenantId email).bind _) es s = some (r, s') at h
  rcases play_bind_cases h with ⟨x, rfl, h₁⟩ | ⟨_, es₁, es₂, t, rfl, h₁, h₂⟩
  · obtain ⟨-, hr⟩ := play_ensureNotMember hc hno h₁
    cases hr
  obtain ⟨rfl, -⟩ := play_ensureNotMember hc.append.1 hno h₁
  rcases play_bind_cases h₂ with ⟨x, rfl, h₃⟩ | ⟨token, es₃, es₄, t', rfl, h₃, h₄⟩
  · obtain ⟨e, -, -, hrun⟩ := play_atomic h₃
    cases hrun
  obtain ⟨e, rfl, -, hrun⟩ := play_atomic h₃
  obtain ⟨htoken, rfl⟩ := Prod.mk.inj hrun
  cases htoken
  rcases play_bind_cases h₄ with ⟨x, rfl, h₅⟩ | ⟨now, es₅, es₆, t', rfl, h₅, h₆⟩
  · obtain ⟨-, e', -, hr⟩ := play_utcNow h₅
    cases hr
  obtain ⟨rfl, e', rfl, hr⟩ := play_utcNow h₅
  cases hr
  rcases play_bind_cases h₆ with ⟨x, rfl, h₇⟩ | ⟨created, es₇, es₈, t'', rfl, h₇, h₈⟩
  · obtain ⟨r₀, hr, -⟩ := play_attempt h₇
    cases hr
  obtain ⟨r₀, hr, hrow⟩ := play_attempt h₇
  cases hr
  have hrow := play_createRow hc.append.2.append.2.append.2.append.1 howner
    (fun v hv e he => (hfresh v hv e (by simp [he])).1)
    (fun v hv => (hfresh v hv e (by simp)).2) hrow
  rcases hrow with ⟨hp, rfl⟩ | ⟨hp, v, rfl⟩
  · obtain ⟨-, rfl, -⟩ := play_done h₈
    exact ⟨fun _ => hp, fun _ => rfl⟩
  · obtain ⟨created, rfl⟩ := play_afterRow h₈
    refine ⟨fun hr => ?_, fun hp' => absurd hp' hp⟩
    cases hr

theorem mem_listed {e : Env} {l : List InvitationRecord}
    (h : play (listInvitations tenantId) [e] s = some (.ok l, s')) (v : InvitationRecord) :
    v ∈ l ↔ v ∈ s.db.invitations ∧ v.tenantId = tenantId ∧ isPendingInvitation v = true ∧
      e.now < v.expiresAt := by
  obtain ⟨-, e', he, hr⟩ := play_select h
  obtain rfl := List.head_eq_of_cons_eq he
  rw [hr l rfl, orderInvitations, List.mem_insertionSort, Table.mem_select]
  simp [and_assoc]

end Lifecycle

open Authority Lifecycle Plays

/-- In every state that requests can reach, and for every address that is no member's: a new invitation
is refused for a pending one exactly when the list of pending invitations at that time shows one for
the address, if and only if no pending invitation for the address has expired by then. -/
theorem pending_invitations_agree_iff {app : App} {s : AppState} {ms : List (Move Env MemberRequest)}
    {c : Config Event Env AppState AppError MemberRequest Unit} (hs : Start s)
    (h : (authoritySystem app).exec (.start s) ms = some c) {tenantId actorUserId : Uuid}
    {actorRole role : MembershipRole} {email : String} {es : List Env} {e : Env} {t : AppState}
    {r : Except AppError CreatedInvitation} {l : List InvitationRecord}
    (hrole : ensureInvitable actorRole role = .ok ()) (hno : ¬ IsMember c.st tenantId email)
    (hclean : Clean es) (hfresh : FreshFor app es c.st)
    (hcreate : play (Fluxa.createInvitation app tenantId actorRole actorUserId email role) es c.st =
      some (r, t))
    (hlist : play (listInvitations tenantId) [e] c.st = some (.ok l, c.st)) :
    (r = .error pendingConflict ↔ ∃ v ∈ l, v.email = email) ↔
      ∀ v ∈ c.st.db.invitations, v.tenantId = tenantId → v.email = email →
        isPendingInvitation v = true → e.now < v.expiresAt := by
  have honce : PendingOnce c.st := by
    have hall : (authoritySystem app).Along (fun d m => d.Meets (fun _ _ _ _ => True) m)
        (.start s) ms := System.along_of_forall fun _ _ _ _ _ _ _ => trivial
    have hend := soundNamed (K := lifecycleContract c.names False) (fun _ => stable_notJoined)
      (fun _ _ hn => request_or hn) (fun _ _ _ _ ha _ => ⟨ha, False.elim⟩) hs.invariant
      (fun i x hx => by rw [hs.unjoined] at hx; cases hx) hall h c.named_names
    exact hend.1.1.pendingOnce
  rw [play_createInvitation_iff hclean hrole hno hfresh hcreate]
  constructor
  · intro hagree v hv ht he hp
    obtain ⟨w, hw, hwe⟩ := hagree.mp ⟨v, hv, ht, he, hp⟩
    obtain ⟨hw, hwt, hwp, hlive⟩ := (mem_listed hlist w).mp hw
    rwa [honce v hv w hw hp hwp (ht.trans hwt.symm) (he.trans hwe.symm)]
  · intro hlive
    constructor
    · rintro ⟨v, hv, ht, he, hp⟩
      exact ⟨v, (mem_listed hlist v).mpr ⟨hv, ht, hp, hlive v hv ht he hp⟩, he⟩
    · rintro ⟨v, hv, he⟩
      obtain ⟨hv, ht, hp, -⟩ := (mem_listed hlist v).mp hv
      exact ⟨v, hv, ht, he, hp⟩

/-! ### An invitation that expires -/

/-- The inputs of a creation at time `now`. -/
def creationAt (now : Time) : List Env :=
  List.replicate 6 { (default : Env) with now, uuid := 99, random := "r" }

/-- The equivalence in a state with a pending invitation, before it expires. -/
theorem pending_invitations_agree_invited :
    ∃ (r : Except AppError CreatedInvitation) (t : AppState) (l : List InvitationRecord),
      play (Fluxa.createInvitation default 1 .owner 10 "C@x" .member) (creationAt 3) invited =
        some (r, t) ∧
      ((r = .error pendingConflict ↔ ∃ v ∈ l, v.email = "C@x") ↔
        ∀ v ∈ invited.db.invitations, v.tenantId = 1 → v.email = "C@x" →
          isPendingInvitation v = true → 3 < v.expiresAt) := by
  have hrun : (play (Fluxa.createInvitation default 1 .owner 10 "C@x" .member) (creationAt 3)
      invited).isSome := by decide +kernel
  obtain ⟨⟨r, t⟩, hplay⟩ := Option.isSome_iff_exists.mp hrun
  have hno : ¬ IsMember invited 1 "C@x" := by
    rintro ⟨u, hu, -⟩
    cases hu
  have hclean : Clean (creationAt 3) := by
    intro e he
    rw [List.eq_of_mem_replicate he]
    rfl
  have hfresh : FreshFor default (creationAt 3) invited := by
    intro v hv e he
    rw [List.eq_of_mem_replicate he]
    obtain rfl := List.mem_singleton.mp hv
    decide
  have hlist : play (listInvitations 1) [{ (default : Env) with now := 3 }] invited =
      some (.ok [⟨7, 1, "C@x", .member, "t", 5, none, none, 10, 0⟩], invited) := rfl
  exact ⟨r, t, _, hplay, @pending_invitations_agree_iff _ _ [] _ invited_start rfl _ _ _ _ _ _ _ _ _ _ rfl hno
    hclean hfresh hplay hlist⟩

/-- Tenant 1 of the user 10. -/
def oneTenant : AppState :=
  { (default : AppState) with
    db := { (default : Database) with
      users := .single ⟨10, "a@x", "h", none, none, 0⟩
      tenants := .single ⟨1, "T", 0⟩
      memberships := .single ⟨1, 10, .owner, 0⟩ } }

theorem oneTenant_start : Start oneTenant where
  exclusive := fun _ hv => absurd hv Table.not_mem_empty
  neverOwner := fun _ hv => absurd hv Table.not_mem_empty
  pendingOnce := fun _ hv => absurd hv Table.not_mem_empty
  closed := rfl
  unjoined := rfl

/-- The owner invites somebody at time 0. -/
def invitation : List (Move Env MemberRequest) :=
  .call ⟨10, 1, .createInvitation 1 (some "k") "c@x" "member"⟩ ::
    (List.range 10).map fun n => .exec 0 { (default : Env) with uuid := n + 1, random := "t" }

/-- When the invitation has expired, it is still in the way, and no list shows it. -/
theorem expired_invitation_in_the_way : Start oneTenant ∧
    ∃ c, (authoritySystem default).exec (.start oneTenant) invitation = some c ∧
      ¬ IsMember c.st 1 "c@x" ∧
      ((play (Fluxa.createInvitation default 1 .owner 10 "c@x" .member)
        (creationAt 1000000000000) c.st).any fun x =>
          match x.1 with
          | .ok _ => false
          | .error error => error = pendingConflict) = true ∧
      ((play (listInvitations 1) [{ (default : Env) with now := 1000000000000 }] c.st).any fun x =>
        x.1.toOption = some []) = true := by
  have h : ((authoritySystem default).exec (.start oneTenant) invitation).any fun c =>
      (c.st.db.users.select fun u => u.email = "c@x").head?.isNone ∧
      ((play (Fluxa.createInvitation default 1 .owner 10 "c@x" .member)
        (creationAt 1000000000000) c.st).any fun x =>
          match x.1 with
          | .ok _ => false
          | .error error => error = pendingConflict) = true ∧
      ((play (listInvitations 1) [{ (default : Env) with now := 1000000000000 }] c.st).any fun x =>
        x.1.toOption = some []) = true := by decide +kernel
  obtain ⟨c, hc, h⟩ := (Option.any_eq_true _ _).mp h
  obtain ⟨hnone, hcreate, hlist⟩ := of_decide_eq_true h
  refine ⟨oneTenant_start, c, hc, ?_, hcreate, hlist⟩
  rintro ⟨u, hu, -⟩
  rw [hu] at hnone
  cases hnone

end Fluxa
