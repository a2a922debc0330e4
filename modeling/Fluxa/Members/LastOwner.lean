import Fluxa.Members.Writes

/-!
# Members — the last owner

Any number of `update_member_role` and `remove_member` calls run side by side.  Each looks at its target and counts the owners in one statement and takes the owner role away in a later one, so what it has seen may be out of date when the write runs.

* **`retains_owner`**: in every run from a state in which the tenant has an owner, it has one in every state reached if no write takes an owner away from the tenant that another call has taken an owner from since the writing call's last look.
* **`last_owner_lost`**: two owners, one demoted and one removed at the same time, leave none.
-/

namespace Fluxa
open Interleave Relational Db Contract

/-! ### The system -/

/-- The calls. -/
inductive MemberCall where
  | updateMemberRole (tenantId : Uuid) (actorRole : MembershipRole) (actorUserId targetUserId : Uuid)
      (newRole : MembershipRole)
  | removeMember (tenantId : Uuid) (actorRole : MembershipRole) (actorUserId targetUserId : Uuid)

def MemberCall.body : MemberCall → Service Unit
  | .updateMemberRole tenantId actorRole actorUserId targetUserId newRole => do
    let _ ← Fluxa.updateMemberRole tenantId actorRole actorUserId targetUserId newRole
    return ()
  | .removeMember tenantId actorRole actorUserId targetUserId =>
    Fluxa.removeMember tenantId actorRole actorUserId targetUserId

/-- Any number of membership calls, side by side. -/
def memberSystem : System Event Env AppState AppError MemberCall Unit :=
  ⟨MemberCall.body, admissible⟩

/-- The tenant has an owner. -/
def HasOwner (s : AppState) (tenantId : Uuid) : Prop := 0 < tenantOwners s tenantId

instance (s : AppState) (tenantId : Uuid) : Decidable (HasOwner s tenantId) :=
  inferInstanceAs (Decidable (0 < tenantOwners s tenantId))

theorem hasOwner_iff {s : AppState} {tenantId : Uuid} :
    HasOwner s tenantId ↔ ∃ m ∈ s.db.memberships, isOwnerOf tenantId m = true :=
  Table.count_pos

/-- The tenant has lost one of its owners. -/
def losesOwner (tenantId : Uuid) (s s' : AppState) : Bool :=
  s.db.memberships.any fun m => isOwnerOf tenantId m &&
    !s'.db.memberships.any fun m' => m'.userId = m.userId && isOwnerOf tenantId m'

/-- A call looks at its target with its first statement and, if it is to take an owner away, counts
the owners with its second.  To take an owner away relies on these, and disturbs the others. -/
def ownerWatch (tenantId : Uuid) : Watch AppState where
  looks n := n ≤ 2
  disturbs := losesOwner tenantId
  relies := losesOwner tenantId

theorem losesOwner_eq_false {tenantId : Uuid} {s s' : AppState} :
    losesOwner tenantId s s' = false ↔ ∀ m ∈ s.db.memberships, isOwnerOf tenantId m = true →
      ∃ m' ∈ s'.db.memberships, m'.userId = m.userId ∧ isOwnerOf tenantId m' = true := by
  rw [losesOwner, Bool.eq_false_iff, ne_eq, Table.any_eq_true]
  simp

theorem losesOwner_of_same {tenantId : Uuid} {s s' : AppState}
    (h : s'.db.memberships = s.db.memberships) : losesOwner tenantId s s' = false :=
  losesOwner_eq_false.mpr fun m hm ho => ⟨m, h ▸ hm, rfl, ho⟩

/-- A tenant that loses none of its owners keeps one. -/
theorem HasOwner.of_not_loses {tenantId : Uuid} {s s' : AppState} (hs : HasOwner s tenantId)
    (h : losesOwner tenantId s s' = false) : HasOwner s' tenantId := by
  obtain ⟨m, hm, ho⟩ := hasOwner_iff.mp hs
  obtain ⟨m', hm', -, ho'⟩ := losesOwner_eq_false.mp h m hm ho
  exact hasOwner_iff.mpr ⟨m', hm', ho'⟩

/-! ### What a statement does to the memberships -/

theorem mem_written_of_other {tenantId userId : Uuid} {role : Option MembershipRole}
    {t : Table MembershipRow fun m => (m.tenantId, m.userId)} {m : MembershipRow} (hm : m ∈ t)
    (h : isMembership tenantId userId m = false) : m ∈ written tenantId userId role t := by
  cases role with
  | none => exact Table.mem_delete.mpr ⟨hm, h⟩
  | some role =>
      rw [written, Table.mem_update]
      exact ⟨m, hm, by simp [h]⟩

/-- Making an owner keeps the owners there are. -/
theorem owner_mem_written {tenantId tenantId' userId : Uuid}
    {t : Table MembershipRow fun m => (m.tenantId, m.userId)} {m : MembershipRow} (hm : m ∈ t)
    (ho : isOwnerOf tenantId' m = true) :
    ∃ m' ∈ written tenantId userId (some .owner) t, isOwnerOf tenantId' m' = true := by
  simp only [written, Table.mem_update]
  refine ⟨_, ⟨m, hm, rfl⟩, ?_⟩
  cases isMembership tenantId userId m with
  | false => exact ho
  | true =>
      simp only [isOwnerOf, Bool.and_eq_true, decide_eq_true_eq] at ho ⊢
      exact ⟨ho.1, rfl⟩

/-! ### The calls keep to it -/

/-- The contract: the tenant has an owner. -/
def ownerContract (tenantId : Uuid) : Contract Event Env AppState where
  inv s := HasOwner s tenantId
  guar _ _ _ _ s' := HasOwner s' tenantId
  adm _ _ _ _ := True
  guar_inv _ h := h

theorem ownerContract_tolerant {tenantId : Uuid} : Tolerant (ownerContract tenantId) where
  stay _ _ _ _ hi _ := hi
  bystander _ _ _ _ hi h := hi.of_not_loses (losesOwner_of_same h.memberships)
  issue _ _ _ hi _ := hi

/-- The contract as long as nobody takes an owner away but call `i`. -/
abbrev calmOwners (tenantId : Uuid) (i : Nat) : Contract Event Env AppState :=
  (ownerContract tenantId).calm (ownerWatch tenantId) i

theorem calmOwners_tolerant {tenantId : Uuid} {i : Nat} : Tolerant (calmOwners tenantId i) :=
  ownerContract_tolerant.calm (fun _ _ h => losesOwner_of_same h.memberships)
    fun _ _ => losesOwner_of_same rfl

/-- If the write is to the tenant, it makes an owner or the tenant has another one. -/
def Retains (tenantId tenantId' userId : Uuid) (role : Option MembershipRole) (s : AppState) :
    Prop :=
  tenantId' = tenantId → role = some .owner ∨
    ∃ m ∈ s.db.memberships, isOwnerOf tenantId m = true ∧ m.userId ≠ userId

section Calls

variable {i : Nat} {tenantId tenantId' userId : Uuid} {role : Option MembershipRole}

theorem retains_stable :
    (calmOwners tenantId i).Stable i (Retains tenantId tenantId' userId role) := by
  refine stable_calm fun s s' _ _ _ _ hs _ hloses ht => (hs ht).imp_right ?_
  rintro ⟨m, hm, ho, hne⟩
  obtain ⟨m', hm', hu, ho'⟩ := losesOwner_eq_false.mp hloses m hm ho
  exact ⟨m', hm', ho', hu ▸ hne⟩

/-- The write leaves the tenant an owner. -/
theorem Retains.hasOwner {s : AppState} (h : Retains tenantId tenantId' userId role s)
    (hs : HasOwner s tenantId) :
    HasOwner { s with db.memberships := written tenantId' userId role s.db.memberships }
      tenantId := by
  by_cases ht : tenantId' = tenantId
  · rcases h ht with rfl | ⟨m, hm, ho, hne⟩
    · obtain ⟨m, hm, ho⟩ := hasOwner_iff.mp hs
      exact hasOwner_iff.mpr (owner_mem_written hm ho)
    · exact hasOwner_iff.mpr ⟨m, mem_written_of_other hm (by simp [isMembership, hne]), ho⟩
  · obtain ⟨m, hm, ho⟩ := hasOwner_iff.mp hs
    refine hasOwner_iff.mpr ⟨m, mem_written_of_other hm ?_, ho⟩
    have hm' : m.tenantId = tenantId := by
      simp only [isOwnerOf, Bool.and_eq_true, decide_eq_true_eq] at ho
      exact ho.1
    simp [isMembership, hm', Ne.symm ht]

/-- A write where an owner is retained. -/
theorem updateMembershipRole_calm {newRole : MembershipRole} :
    (calmOwners tenantId i).Triple i (Retains tenantId tenantId' userId (some newRole))
      (updateMembershipRole tenantId' userId newRole) fun _ _ => True := by
  refine updateMembershipRole_from calmOwners_tolerant.toPatient retains_stable
    (fun s e hi _ _ => ⟨hi, fun _ => losesOwner_of_same rfl⟩) fun s e hi hs _ _ => ?_
  exact ⟨hs.hasOwner hi, fun h => absurd rfl h⟩

theorem deleteMembership_calm :
    (calmOwners tenantId i).Triple i (Retains tenantId tenantId' userId none)
      (deleteMembership tenantId' userId) fun _ _ => True := by
  refine deleteMembership_from calmOwners_tolerant.toPatient retains_stable
    (fun s e hi _ _ => ⟨hi, fun _ => losesOwner_of_same rfl⟩) fun s e hi hs _ _ => ?_
  exact ⟨hs.hasOwner hi, fun h => absurd rfl h⟩

/-- Where the count is more than one, somebody else is an owner. -/
theorem countTenantOwners_calm (userId : Uuid) (role : Option MembershipRole) :
    (calmOwners tenantId i).Triple i (fun _ => True) (countTenantOwners tenantId')
      (onOk fun owners s => 1 < owners → Retains tenantId tenantId' userId role s) := by
  refine sql_triple calmOwners_tolerant.toPatient stable_const (fun _ => stable_imp retains_stable)
    fun s e hi _ _ _ => ⟨⟨hi, fun h => absurd rfl h⟩, fun hcount ht => .inr ?_⟩
  subst ht
  obtain ⟨m, hm, ho, hne⟩ := Table.exists_key_ne_of_one_lt_count hcount (tenantId', userId)
  refine ⟨m, hm, ho, fun hu => hne ?_⟩
  simp only [isOwnerOf, Bool.and_eq_true, decide_eq_true_eq] at ho
  rw [ho.1, hu]

/-- The guard of the service sees to it that the write retains an owner. -/
theorem ensureOwnerRetained_calm {b : Bool} :
    (calmOwners tenantId i).Triple i
      (fun s => b = false → Retains tenantId tenantId' userId role s)
      (ensureOwnerRetained tenantId' b)
      (onOk fun _ => Retains tenantId tenantId' userId role) := by
  cases b with
  | false => exact (Triple.done retains_stable fun _ _ hs => hs).pre fun _ _ hs => hs rfl
  | true =>
      refine Triple.pre (P := fun _ => True) ?_ fun _ _ _ => trivial
      refine (countTenantOwners_calm userId role).seq fun owners => ?_
      refine (Triple.ensure (stable_imp retains_stable)).post fun r s _ h => ?_
      cases r with
      | error x => trivial
      | ok u => exact h.2 (of_decide_eq_true h.1)

/-- Where the target is no owner, somebody else is. -/
theorem getTenantMember_looks {s : AppState} {target : TenantMemberRecord}
    (hs : HasOwner s tenantId)
    (h : (s.db.memberships.find? (tenantId', userId)).bind (joinUser s) = some target)
    (hrole : target.role ≠ .owner) : Retains tenantId tenantId' userId role s := by
  rintro rfl
  obtain ⟨m, hm, hjoin⟩ := Option.bind_eq_some_iff.mp h
  obtain ⟨hmem, hk⟩ := Table.find?_eq_some.mp hm
  obtain ⟨m₀, hm₀, ho⟩ := hasOwner_iff.mp hs
  refine .inr ⟨m₀, hm₀, ho, ?_⟩
  rintro rfl
  simp only [isOwnerOf, Bool.and_eq_true, decide_eq_true_eq] at ho
  obtain rfl : m = m₀ := Table.eq_of_key hmem hm₀ (hk.trans (by rw [ho.1]))
  obtain ⟨u, -, rfl⟩ := Option.map_eq_some_iff.mp hjoin
  exact hrole ho.2

/-- The look-up of the target. -/
theorem getTenantMember_calm (role : Option MembershipRole) :
    (calmOwners tenantId i).Triple i (fun _ => True) (getTenantMember tenantId' userId)
      (onOk fun found s => ∀ target, found = some target → target.role ≠ .owner →
        Retains tenantId tenantId' userId role s) := by
  refine sql_triple calmOwners_tolerant.toPatient stable_const (fun _ => stable_forall fun _ =>
    stable_imp (stable_imp retains_stable)) fun s e hi _ _ _ => ?_
  exact ⟨⟨hi, fun h => absurd rfl h⟩, fun target h hrole => getTenantMember_looks hi h hrole⟩

/-- A call retains an owner if its guard counts whenever an owner is to go. -/
theorem changeOfMember_calm {A B : Type} {check takesOwner : MembershipRole → Bool}
    {forbidden : AppError} {write : Service A} {rest : MembershipRole → A → Service B}
    (htakes : ∀ r, takesOwner r = false → r ≠ .owner ∨ role = some .owner)
    (hwrite : (calmOwners tenantId i).Triple i (Retains tenantId tenantId' userId role) write
      fun _ _ => True) (hrest : ∀ r a, (calmOwners tenantId i).Safe i (rest r a)) :
    (calmOwners tenantId i).Safe i
      (changeOfMember tenantId' userId check takesOwner forbidden write rest) := by
  refine changeOfMember_rule
    (F := fun r s => r ≠ .owner → Retains tenantId tenantId' userId role s)
    (fun _ => stable_imp retains_stable) (getTenantMember_calm role) (fun r _ => ?_)
    (fun _ _ => hwrite) hrest
  refine ensureOwnerRetained_calm.pre fun s _ hlook hno => ?_
  rcases htakes r hno with hr | hrole
  · exact hlook hr
  · exact fun _ => .inl hrole

/-- After the second statement no look is to come. -/
theorem ownerWatch_looks (m : Nat) (h : 1 + 1 < m) : (ownerWatch tenantId).looks m = false := by
  simp [ownerWatch, Nat.not_le.mpr h]

/-- The second statement is the count, or the write that follows the look-up. -/
theorem guarded_fromLooks {A B : Type} {b : Bool} {l : Event} {ready : AppState → Bool}
    {run : Env → AppState → Except AppError A × AppState} {rest : A → Service B} {s : AppState}
    (hwrite : (calmOwners tenantId i).Triple i (Retains tenantId tenantId' userId role)
      (.atomic l ready run) fun _ _ => True)
    (hrest : ∀ a, (calmOwners tenantId i).Safe i (rest a)) :
    (ownerContract tenantId).FromLooks (ownerWatch tenantId) i 1
      ((ensureOwnerRetained tenantId' b).bind fun _ => (Prog.atomic l ready run).bind rest) s := by
  cases b with
  | false => exact fromLooks_of_rest ownerWatch_looks hrest
  | true =>
      refine fromLooks_of_triple (P := fun _ => True) ownerWatch_looks stable_const ?_ trivial
      have hcount : (calmOwners tenantId i).Triple i (fun _ => True)
          (ensureOwnerRetained tenantId' true)
          (onOk fun _ => Retains tenantId tenantId' userId role) :=
        ensureOwnerRetained_calm.pre fun _ _ _ h => by cases h
      exact Triple.bind hcount (fun _ => Triple.bind hwrite hrest fun _ _ _ _ => trivial)
        fun _ _ _ _ => trivial

theorem changeOfMember_fromLooks {A B : Type} {check takesOwner : MembershipRole → Bool}
    {forbidden : AppError} {l : Event} {ready : AppState → Bool}
    {run : Env → AppState → Except AppError A × AppState} {rest : MembershipRole → A → Service B}
    {s : AppState} (htakes : ∀ r, takesOwner r = false → r ≠ .owner ∨ role = some .owner)
    (hwrite : (calmOwners tenantId i).Triple i (Retains tenantId tenantId' userId role)
      (.atomic l ready run) fun _ _ => True)
    (hrest : ∀ r a, (calmOwners tenantId i).Safe i (rest r a)) :
    (ownerContract tenantId).FromLooks (ownerWatch tenantId) i 0
      (changeOfMember tenantId' userId check takesOwner forbidden (.atomic l ready run) rest) s := by
  refine fromLooks_bind (P := fun _ => True) (Q := fun _ _ => True) stable_const
    (changeOfMember_calm htakes hwrite hrest)
    (select_safe ownerContract_tolerant.toPatient).onOk_any (fun found t _ => ?_) trivial
  cases found with
  | none => trivial
  | some target =>
      simp only [Prog.okOr, Prog.bind_eq, Prog.done_ok_bind, Prog.ensure]
      split
      · exact guarded_fromLooks hwrite (hrest _)
      · trivial

/-- An owner who is not counted stays an owner. -/
theorem updateMemberRole_takes {newRole r : MembershipRole}
    (h : (r = .owner && newRole ≠ .owner : Bool) = false) :
    r ≠ .owner ∨ some newRole = some .owner := by
  by_cases hr : r = .owner
  · exact .inr (by simpa [hr] using h)
  · exact .inl hr

theorem revoke_calm : (calmOwners tenantId i).Safe i
    (revokeUserTenantRefreshTokens userId tenantId') := by
  have hK : Tolerant (calmOwners tenantId i) := calmOwners_tolerant
  have hquiet : ∀ (e : Env) (s s' : AppState), HasOwner s tenantId →
      s'.db.memberships = s.db.memberships → (calmOwners tenantId i).guar i .quiet e s s' :=
    fun e s s' hs h => ⟨hs.of_not_loses (losesOwner_of_same h), fun h => absurd rfl h⟩
  refine .bind (utcNow_safe hK.toPatient) fun _ => .bind (.bind ?_ fun _ => ?_) fun _ => .done
  · exact .atomic fun s e hi _ _ => hquiet e s _ hi rfl
  · exact sqlWhen_safe hK.toPatient fun s e hi _ _ _ => hquiet e s _ hi rfl

section Whole

variable {actorRole newRole : MembershipRole} {actorUserId : Uuid} {s : AppState}

theorem updateMemberRole_calm : (calmOwners tenantId i).Safe i
    (updateMemberRole tenantId' actorRole actorUserId userId newRole) := by
  rw [updateMemberRole_eq]
  exact changeOfMember_calm (fun _ => updateMemberRole_takes) updateMembershipRole_calm
    fun _ => updateMemberRole_rest calmOwners_tolerant.lenient.discreet

theorem updateMemberRole_fromLooks :
    (ownerContract tenantId).FromLooks (ownerWatch tenantId) i 0
      (updateMemberRole tenantId' actorRole actorUserId userId newRole) s := by
  rw [updateMemberRole_eq]
  exact changeOfMember_fromLooks (fun _ => updateMemberRole_takes) updateMembershipRole_calm
    fun _ => updateMemberRole_rest calmOwners_tolerant.lenient.discreet

theorem removeMember_calm : (calmOwners tenantId i).Safe i
    (removeMember tenantId' actorRole actorUserId userId) := by
  rw [removeMember_eq]
  exact changeOfMember_calm (fun r h => .inl (of_decide_eq_false h)) deleteMembership_calm
    fun _ => removeMember_rest calmOwners_tolerant.lenient.discreet revoke_calm

theorem removeMember_fromLooks :
    (ownerContract tenantId).FromLooks (ownerWatch tenantId) i 0
      (removeMember tenantId' actorRole actorUserId userId) s := by
  rw [removeMember_eq]
  exact changeOfMember_fromLooks (fun r h => .inl (of_decide_eq_false h)) deleteMembership_calm
    fun _ => removeMember_rest calmOwners_tolerant.lenient.discreet revoke_calm

end Whole

end Calls

theorem memberCall_calm {tenantId : Uuid} (i : Nat) (k : MemberCall) :
    (calmOwners tenantId i).Safe i (memberSystem.body k) := by
  cases k with
  | updateMemberRole => exact .bind updateMemberRole_calm fun _ => .done
  | removeMember => exact removeMember_calm

theorem memberCall_fromLooks {tenantId : Uuid} (i : Nat) (k : MemberCall) (s : AppState) :
    (ownerContract tenantId).FromLooks (ownerWatch tenantId) i 0 (memberSystem.body k) s := by
  cases k with
  | updateMemberRole =>
      exact .bind updateMemberRole_fromLooks (fun _ => .done) fun _ _ _ => trivial
  | removeMember => exact removeMember_fromLooks

/-! ### Runs -/

/-- The tenant keeps an owner throughout a run in which no write takes an owner away from it when,
since the writing call has last looked, another call has taken one away. -/
theorem retains_owner {s : AppState} {tenantId : Uuid} {ms : List (Move Env MemberCall)}
    (hs : HasOwner s tenantId)
    (hschedule : (ownerWatch tenantId).Scheduled memberSystem (.start s) ms) :
    memberSystem.Through (fun d => HasOwner d.st tenantId) (.start s) ms :=
  scheduled_through (K := ownerContract tenantId) (J := anything)
    (P := fun _ _ _ _ => True) (fun _ _ => anything_safe) memberCall_calm
    (fun i k s _ => memberCall_fromLooks i k s) (fun _ _ _ _ _ => trivial)
    (fun _ _ _ _ _ _ => trivial) (fun _ _ _ _ _ hi _ _ h => hi.of_not_loses h) hs trivial
    hschedule (System.along_of_forall fun _ _ _ _ _ _ _ => trivial)

/-! ### Two owners and no owner left -/

/-- Tenant 1 with the owners 10 and 11. -/
def twoOwners : AppState :=
  { (default : AppState) with
    db := { (default : Database) with
      users := ⟨[⟨10, "a@x", "h", none, none, 0⟩, ⟨11, "b@x", "h", none, none, 0⟩], by decide⟩
      tenants := .single ⟨1, "T", 0⟩
      memberships := ⟨[⟨1, 10, .owner, 0⟩, ⟨1, 11, .owner, 0⟩], by decide⟩ } }

/-- The demotion runs to its write before the removal looks. -/
def oneAfterTheOther : List (Move Env MemberCall) :=
  [.call (.updateMemberRole 1 .owner 10 11 .member), .call (.removeMember 1 .owner 11 10),
    .exec 0 { (default : Env) with pid := 0 }, .exec 0 { (default : Env) with pid := 0 },
    .exec 0 { (default : Env) with pid := 0 }, .exec 1 { (default : Env) with pid := 1 },
    .exec 1 { (default : Env) with pid := 1 }]

/-- The theorem at that run. -/
theorem retains_owner_oneAfterTheOther :
    memberSystem.Through (fun d => HasOwner d.st 1) (.start twoOwners) oneAfterTheOther :=
  retains_owner (by decide) (by decide)

/-- Both calls read their target and count two owners before either writes. -/
def bothCountTwo : List (Move Env MemberCall) :=
  [.call (.updateMemberRole 1 .owner 10 11 .member), .call (.removeMember 1 .owner 11 10),
    .exec 0 { (default : Env) with pid := 0 }, .exec 0 { (default : Env) with pid := 0 },
    .exec 1 { (default : Env) with pid := 1 }, .exec 1 { (default : Env) with pid := 1 },
    .exec 0 { (default : Env) with pid := 0 }, .exec 1 { (default : Env) with pid := 1 }]

/-- A demotion and a removal at the same time leave a tenant with two owners without any. -/
theorem last_owner_lost :
    HasOwner twoOwners 1 ∧
      ∃ c, memberSystem.exec (.start twoOwners) bothCountTwo = some c ∧ ¬ HasOwner c.st 1 := by
  have h : ((memberSystem.exec (.start twoOwners) bothCountTwo).map
      fun c => tenantOwners c.st 1) = some 0 := by decide
  obtain ⟨c, hc, h0⟩ := Option.map_eq_some_iff.mp h
  exact ⟨by decide, c, hc, by simp [HasOwner, h0]⟩

end Fluxa
