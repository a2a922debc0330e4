import Fluxa.Services.Memberships
import Fluxa.State.Quiet

/-!
# Members — the writes

What the statements of `update_membership_role`, `delete_membership` and `accept_invitation` do to the memberships, under any contract that lets statements fail.

`update_member_role` and `remove_member` go the same way: they look up their target, check the request against its role, count the owners if one is to go, and write (**`changeOfMember`**).  Its rules say once for all contracts what such a call needs.
-/

namespace Fluxa
open Interleave Relational Db Contract

/-- The memberships after the target has got another role, or has been removed. -/
def written (tenantId userId : Uuid) (role : Option MembershipRole)
    (t : Table MembershipRow fun m => (m.tenantId, m.userId)) :
    Table MembershipRow fun m => (m.tenantId, m.userId) :=
  match role with
  | some role =>
      t.update (isMembership tenantId userId) (fun m => { m with role }) (keepsKey_role role)
  | none => t.delete (isMembership tenantId userId)

/-- There is the target's membership, and the user's row, which only a change of the role needs. -/
def HasTarget (tenantId userId : Uuid) (role : Option MembershipRole) (s : AppState) : Prop :=
  (∃ m ∈ s.db.memberships, isMembership tenantId userId m = true) ∧
    (role = none ∨ ∃ u ∈ s.db.users, u.id = userId)

section Writes

variable {K : Contract Event Env AppState} {i : Nat} {tenantId userId : Uuid} (hK : Patient K)
include hK

/-- A change of a role writes it, or finds no target and leaves everything alone. -/
theorem updateMembershipRole_from {role : MembershipRole} {P : AppState → Prop}
    (hP : K.Stable i P)
    (hstay : ∀ s e, K.inv s → e.fault ≠ .failed → ¬ HasTarget tenantId userId (some role) s →
      K.guar i (.membershipWrite tenantId userId (some role)) e s s)
    (hwrite : ∀ s e, K.inv s → P s → e.fault ≠ .failed → HasTarget tenantId userId (some role) s →
      K.guar i (.membershipWrite tenantId userId (some role)) e s
        { s with db.memberships := written tenantId userId (some role) s.db.memberships }) :
    K.Triple i P (updateMembershipRole tenantId userId role) fun _ _ => True := by
  refine sql_from hK hP fun s e hi hs _ hf => ?_
  cases hm : s.db.memberships.find? (tenantId, userId) with
  | none =>
      refine hstay s e hi hf ?_
      rintro ⟨⟨m, hmem, ht⟩, -⟩
      refine Table.find?_eq_none.mp hm m hmem ?_
      simpa [isMembership] using ht
  | some m =>
      obtain ⟨hmem, hk⟩ := Table.find?_eq_some.mp hm
      cases hu : s.db.users.find? m.userId with
      | none =>
          have hno : ¬ HasTarget tenantId userId (some role) s := by
            rintro ⟨-, hu'⟩
            obtain ⟨u, hmem, hid⟩ := hu'.resolve_left (by simp)
            refine Table.find?_eq_none.mp hu u hmem ?_
            rw [hid]
            exact (congrArg Prod.snd hk).symm
          simpa [joinUser, hu] using hstay s e hi hf hno
      | some u =>
          obtain ⟨humem, hid⟩ := Table.find?_eq_some.mp hu
          have htarget : HasTarget tenantId userId (some role) s := by
            refine ⟨⟨m, hmem, by simpa [isMembership] using hk⟩, .inr ⟨u, humem, ?_⟩⟩
            rw [hid]
            exact congrArg Prod.snd hk
          simpa [joinUser, hu, written] using hwrite s e hi hs hf htarget

omit hK in
/-- Without a target there is nothing to remove. -/
theorem written_none_of_no_target {s : AppState} (h : ¬ HasTarget tenantId userId none s) :
    written tenantId userId none s.db.memberships = s.db.memberships := by
  refine Table.delete_eq_self fun m hm => ?_
  rw [Bool.eq_false_iff]
  exact fun ht => h ⟨⟨m, hm, ht⟩, .inl rfl⟩

/-- A removal removes its target, if there is one. -/
theorem deleteMembership_from {P : AppState → Prop} (hP : K.Stable i P)
    (hstay : ∀ s e, K.inv s → e.fault ≠ .failed → ¬ HasTarget tenantId userId none s →
      K.guar i (.membershipWrite tenantId userId none) e s s)
    (hwrite : ∀ s e, K.inv s → P s → e.fault ≠ .failed → HasTarget tenantId userId none s →
      K.guar i (.membershipWrite tenantId userId none) e s
        { s with db.memberships := written tenantId userId none s.db.memberships }) :
    K.Triple i P (deleteMembership tenantId userId) fun _ _ => True := by
  refine sql_from hK hP fun s e hi hs _ hf => ?_
  by_cases ht : HasTarget tenantId userId none s
  · exact hwrite s e hi hs hf ht
  · have hsame := hstay s e hi hf ht
    have hw := written_none_of_no_target ht
    rw [written] at hw
    simpa only [hw] using hsame

theorem ensureOwnerRetained_keep {b : Bool} {F : AppState → Prop} (hF : K.Stable i F) :
    K.Triple i F (ensureOwnerRetained tenantId b) (onOk fun _ => F) := by
  cases b with
  | false => exact Triple.done hF fun _ _ hs => hs
  | true =>
      refine (select_keep hK hF).seq fun owners => (Triple.ensure hF).post fun r s _ h => ?_
      cases r with
      | error x => trivial
      | ok u => exact h.2

end Writes

/-! ### Look-up, check, guard and write -/

/-- A change of a membership, with what follows it. -/
def changeOfMember {A B : Type} (tenantId userId : Uuid) (check takesOwner : MembershipRole → Bool)
    (forbidden : AppError) (write : Service A) (rest : MembershipRole → A → Service B) :
    Service B := do
  let target ← Prog.okOr (← getTenantMember tenantId userId) (.notFound "member not found")
  Prog.ensure (check target.role) forbidden
  ensureOwnerRetained tenantId (takesOwner target.role)
  let a ← write
  rest target.role a

/-- Whom `update_member_role` lets through, by the role of the target. -/
def mayChange (actorRole newRole currentRole : MembershipRole) : Bool :=
  !(currentRole.privileged || newRole.privileged) || actorRole = .owner

/-- Whom `remove_member` lets through. -/
def mayRemove (actorRole targetRole : MembershipRole) : Bool :=
  !targetRole.privileged || actorRole = .owner

section Changes

variable {A B : Type} {tenantId userId actorUserId : Uuid} {actorRole newRole : MembershipRole}
  {check takesOwner : MembershipRole → Bool} {forbidden : AppError} {write : Service A}
  {rest : MembershipRole → A → Service B}

theorem updateMemberRole_eq :
    updateMemberRole tenantId actorRole actorUserId userId newRole =
      changeOfMember tenantId userId (mayChange actorRole newRole)
        (fun currentRole => currentRole = .owner && newRole ≠ .owner)
        (.forbidden "owner role required to change owner or admin roles")
        (updateMembershipRole tenantId userId newRole) (fun currentRole updated =>
          (Prog.okOr updated (.notFound "member not found")).bind fun updated =>
            (recordEvent (some tenantId) (some actorUserId) "membership" (some userId)
              "member.role_updated" (.obj [("from", .str currentRole.asStr),
                ("to", .str newRole.asStr)])).bind fun _ => .done (.ok updated)) :=
  rfl

theorem removeMember_eq :
    removeMember tenantId actorRole actorUserId userId =
      changeOfMember tenantId userId (mayRemove actorRole) (fun targetRole => targetRole = .owner)
        (.forbidden "owner role required to remove an owner or admin")
        (deleteMembership tenantId userId) (fun targetRole deleted =>
          (Prog.ensure deleted (.notFound "member not found")).bind fun _ =>
            (revokeUserTenantRefreshTokens userId tenantId).bind fun _ =>
              recordEvent (some tenantId) (some actorUserId) "membership" (some userId)
                "member.removed" (.obj [("role", .str targetRole.asStr)])) :=
  rfl

variable {K : Contract Event Env AppState} {i : Nat}

/-- What the look-up tells of the target's role holds at the guard, which sees to what the write
needs. -/
theorem changeOfMember_rule {P : AppState → Prop} {F G : MembershipRole → AppState → Prop}
    (hF : ∀ r, K.Stable i (F r))
    (hlook : K.Triple i P (getTenantMember tenantId userId)
      (onOk fun found s => ∀ target, found = some target → F target.role s))
    (hguard : ∀ r, check r = true → K.Triple i (F r) (ensureOwnerRetained tenantId (takesOwner r))
      (onOk fun _ => G r))
    (hwrite : ∀ r, check r = true → K.Triple i (G r) write fun _ _ => True)
    (hrest : ∀ r a, K.Safe i (rest r a)) :
    K.Triple i P (changeOfMember tenantId userId check takesOwner forbidden write rest)
      fun _ _ => True := by
  refine Triple.bind hlook (fun found => ?_) fun _ _ _ _ => trivial
  refine Triple.bind (Triple.okOr (stable_forall fun _ => stable_imp (hF _))) (fun target => ?_)
    fun _ _ _ _ => trivial
  refine Triple.pre (P := F target.role) ?_ fun _ _ h => h.2 target h.1
  refine Triple.bind (Triple.ensure (hF _)) (fun _ => ?_) fun _ _ _ _ => trivial
  refine Triple.of_fact fun hcheck => ?_
  refine Triple.bind (hguard _ hcheck) (fun _ => ?_) fun _ _ _ _ => trivial
  exact Triple.bind (hwrite _ hcheck) (hrest _) fun _ _ _ _ => trivial

theorem changeOfMember_safe (hK : Patient K) (hwrite : K.Safe i write)
    (hrest : ∀ r a, K.Safe i (rest r a)) :
    K.Safe i (changeOfMember tenantId userId check takesOwner forbidden write rest) :=
  changeOfMember_rule (F := fun _ _ => True) (G := fun _ _ => True) (fun _ => stable_const)
    ((select_safe hK).post fun r _ _ _ => by cases r <;> simp)
    (fun _ _ => ensureOwnerRetained_keep hK stable_const) (fun _ _ => hwrite) hrest

variable (hK : Discreet K)
include hK

theorem updateMemberRole_rest {currentRole : MembershipRole}
    (updated : Option TenantMemberRecord) :
    K.Safe i ((Prog.okOr updated (.notFound "member not found")).bind fun updated =>
      (recordEvent (some tenantId) (some actorUserId) "membership" (some userId)
        "member.role_updated" (.obj [("from", .str currentRole.asStr),
          ("to", .str newRole.asStr)])).bind fun _ => .done (.ok updated)) :=
  .bind .okOr fun _ => .bind (recordEvent_safe hK) fun _ => .done

theorem removeMember_rest (hrevoke : K.Safe i (revokeUserTenantRefreshTokens userId tenantId))
    {targetRole : MembershipRole} (deleted : Bool) :
    K.Safe i ((Prog.ensure deleted (.notFound "member not found")).bind fun _ =>
      (revokeUserTenantRefreshTokens userId tenantId).bind fun _ =>
        recordEvent (some tenantId) (some actorUserId) "membership" (some userId)
          "member.removed" (.obj [("role", .str targetRole.asStr)])) :=
  .bind .ensure fun _ => .bind hrevoke fun _ => recordEvent_safe hK

/-- `update_member_role` keeps to what its write keeps to. -/
theorem updateMemberRole_of (hwrite : K.Safe i (updateMembershipRole tenantId userId newRole)) :
    K.Safe i (updateMemberRole tenantId actorRole actorUserId userId newRole) :=
  updateMemberRole_eq ▸ changeOfMember_safe hK hwrite fun _ => updateMemberRole_rest hK

/-- `remove_member` keeps to what its write and its revocation keep to. -/
theorem removeMember_of (hwrite : K.Safe i (deleteMembership tenantId userId))
    (hrevoke : K.Safe i (revokeUserTenantRefreshTokens userId tenantId)) :
    K.Safe i (removeMember tenantId actorRole actorUserId userId) :=
  removeMember_eq ▸ changeOfMember_safe hK hwrite fun _ => removeMember_rest hK hrevoke

end Changes

section Acceptance

variable {K : Contract Event Env AppState} {i : Nat} {A : Type} {P : AppState → Prop}
  {F : AppError → AppState → Prop}

/-- A statement in the transaction of an acceptance does what it is to do, or ends the
transaction. -/
theorem inAcceptTx_or {ready : AppState → Bool}
    {run : Env → AppState → Except AppError (A × AppState)} {Q : A → AppState → Prop}
    (hP : K.Stable i P) (hF : ∀ x, K.Stable i (F x)) (hQ : ∀ a, K.Stable i (Q a))
    (hend : ∀ s e, K.inv s → P s → K.adm i .quiet e s →
      K.guar i .quiet e s (endAcceptTx e.pid s) ∧ ∀ x, F x (endAcceptTx e.pid s))
    (h : ∀ s e a s', K.inv s → P s → ready s = true → K.adm i .quiet e s →
      run e s = .ok (a, s') → K.guar i .quiet e s s' ∧ Q a s') :
    K.Triple i P (inAcceptTx ready run) (orFail F Q) := by
  refine Triple.atomic hP (stable_orFail hF hQ) fun s e hi hs hy ha => ?_
  obtain ⟨hgone, hx⟩ := hend s e hi hs ha
  cases hf : e.fault with
  | none =>
      cases hr : run e s with
      | ok x => exact h s e x.1 x.2 hi hs hy ha hr
      | error x => exact ⟨hgone, hx x⟩
  | failed => exact ⟨hgone, hx _⟩
  | lost => exact ⟨hgone, hx _⟩

theorem dropAcceptTx_or {error : AppError} {Q : A → AppState → Prop} (hP : K.Stable i P)
    (hF : ∀ x, K.Stable i (F x))
    (hend : ∀ s e, K.inv s → P s → K.adm i .quiet e s →
      K.guar i .quiet e s (endAcceptTx e.pid s) ∧ ∀ x, F x (endAcceptTx e.pid s)) :
    K.Triple i P (dropAcceptTx error : Service A) (orFail F Q) := by
  refine Triple.post (Q := fun r s => ∃ x, r = .error x ∧ F x s) ?_ ?_
  · refine Triple.atomic hP (fun r => stable_exists fun x => stable_const.and (hF x))
      fun s e hi hs _ ha => ?_
    obtain ⟨hgone, hx⟩ := hend s e hi hs ha
    exact ⟨hgone, error, rfl, hx error⟩
  · rintro r s - ⟨x, rfl, hx⟩
    exact hx

/-- A `COMMIT` applies the transaction, or ends it. -/
theorem commitAcceptance_or {T : AcceptTx} (hP : K.Stable i P) (hF : ∀ x, K.Stable i (F x))
    (hend : ∀ s e, K.inv s → P s → K.adm i .commitAcceptance e s →
      K.guar i .commitAcceptance e s (endAcceptTx e.pid s) ∧ ∀ x, F x (endAcceptTx e.pid s))
    (h : ∀ s e s', K.inv s → P s → K.adm i .commitAcceptance e s → applyAcceptance T s = some s' →
      K.guar i .commitAcceptance e s (endAcceptTx e.pid s') ∧
        (e.fault = .lost → ∀ x, F x (endAcceptTx e.pid s'))) :
    K.Triple i P (commitAcceptance T) (orFail F fun _ _ => True) := by
  refine Triple.atomic hP (stable_orFail hF fun _ => stable_const) fun s e hi hs _ ha => ?_
  obtain ⟨hgone, hx⟩ := hend s e hi hs ha
  cases hf : e.fault with
  | failed => exact ⟨hgone, hx _⟩
  | none =>
      cases ht : applyAcceptance T s with
      | none => exact ⟨hgone, hx _⟩
      | some s' => exact ⟨(h s e s' hi hs ha ht).1, trivial⟩
  | lost =>
      cases ht : applyAcceptance T s with
      | none => exact ⟨hgone, hx _⟩
      | some s' => exact ⟨(h s e s' hi hs ha ht).1, (h s e s' hi hs ha ht).2 hf _⟩

end Acceptance

end Fluxa
