import Fluxa.Accounts.Evidence

/-!
# Accounts — logins with one identity

Logins with an identity that a provider reports, and registrations, read and insert users and links in separate statements.  Two of them can find neither user nor link and both go on to insert; the unique constraints let one of them win, and the other one fails.

**`oauth_accounts_agree`**: in every state of a run an address has one user at most and an identity has one link at most, and all logins that succeed name the same user, and the same tenant where none is asked for.
-/

namespace Fluxa.Accounts
open Interleave Relational Db Contract

/-! ### The system -/

inductive LoginCall where
  | oauthLogin (tenantId : Option Uuid) (tenantName : Option String)
  | register (email password : String) (tenantName : Option String)

def LoginCall.body (app : App) (provider : String) : LoginCall → Service AuthSession
  | .oauthLogin tenantId tenantName => Fluxa.oauthLogin app provider tenantId tenantName
  | .register email password tenantName => Fluxa.register app email password tenantName

/-- What the response contains of an identity is of this one. -/
def describes (provider : String) (identity : OAuthIdentity) (body : Value) : Bool :=
  if provider = "google" then (googleIdentity body).toOption.all (· = identity)
  else (githubSubject body).all (· = identity.subject) &&
    (githubEmail body).all fun email => identity = ⟨identity.subject, email, true⟩

/-- The provider reports no other identity. -/
def reportsOnly (provider : String) (identity : OAuthIdentity) : HttpReply → Bool
  | .success (some body) => describes provider identity body
  | _ => true

/-- An address has one user at most, and an identity has one link at most. -/
structure Unambiguous (s : AppState) : Prop where
  users : ∀ u ∈ s.db.users, ∀ v ∈ s.db.users, u.email = v.email → u = v
  links : ∀ a ∈ s.db.oauthAccounts, ∀ b ∈ s.db.oauthAccounts,
    a.provider = b.provider → a.providerSubject = b.providerSubject → a = b

/-- The memberships are of users and tenants that there are. -/
structure MembershipsExist (s : AppState) : Prop where
  users : ∀ m ∈ s.db.memberships, ∃ u ∈ s.db.users, u.id = m.userId
  tenants : ∀ m ∈ s.db.memberships, ∃ t ∈ s.db.tenants, t.id = m.tenantId

/-- The membership that `get_default_membership` finds. -/
def defaultMembership (s : AppState) (userId : Uuid) : Option MembershipRecord :=
  (((s.db.memberships.select fun m => m.userId = userId).filterMap (joinTenant s)).insertionSort
    fun a b => a.createdAt ≤ b.createdAt).head?

/-- The user exists, and has this default tenant. -/
def DefaultTenant (s : AppState) (userId tenantId : Uuid) : Prop :=
  (∃ u ∈ s.db.users, u.id = userId) ∧
    (defaultMembership s userId).map (·.tenantId) = some tenantId

/-! ### What a statement does to accounts -/

/-- The user with this identifier and address. -/
def nameOf (u : UserRecord) : Uuid × String := (u.id, u.email)

/-- What a statement does to users, tenants, memberships and links. -/
inductive LoginAction : AppState → AppState → Prop where
  | keep {s s'} (hu : s'.db.users.rows.map nameOf = s.db.users.rows.map nameOf)
      (ht : s'.db.tenants = s.db.tenants) (hm : s'.db.memberships = s.db.memberships)
      (ha : s'.db.oauthAccounts = s.db.oauthAccounts) : LoginAction s s'
  | create {s s'} {u : UserRecord} {t : TenantRecord} {m : MembershipRow}
      (hfree : ∀ v ∈ s.db.users, v.email ≠ u.email)
      (hu : s.db.users.insert u = some s'.db.users)
      (ht : s.db.tenants.insert t = some s'.db.tenants)
      (hm : s.db.memberships.insert m = some s'.db.memberships)
      (hmu : m.userId = u.id) (hmt : m.tenantId = t.id)
      (ha : s'.db.oauthAccounts = s.db.oauthAccounts) : LoginAction s s'
  | link {s s'} {a : OAuthAccountRow}
      (hfree : ∀ b ∈ s.db.oauthAccounts, ¬ (b.provider = a.provider ∧
        b.providerSubject = a.providerSubject))
      (ha : s.db.oauthAccounts.insert a = some s'.db.oauthAccounts)
      (hu : s'.db.users = s.db.users) (ht : s'.db.tenants = s.db.tenants)
      (hm : s'.db.memberships = s.db.memberships) : LoginAction s s'

section Actions

variable {s s' : AppState}

theorem LoginAction.of_eq (hu : s'.db.users = s.db.users) (ht : s'.db.tenants = s.db.tenants)
    (hm : s'.db.memberships = s.db.memberships)
    (ha : s'.db.oauthAccounts = s.db.oauthAccounts) : LoginAction s s' :=
  .keep (by rw [hu]) ht hm ha

/-- A user of one of two states with the same names is one of the other. -/
theorem exists_of_names (h : s'.db.users.rows.map nameOf = s.db.users.rows.map nameOf)
    {u : UserRecord} (hu : u ∈ s.db.users) : ∃ u' ∈ s'.db.users, u'.id = u.id ∧ u'.email = u.email := by
  have hn : nameOf u ∈ s'.db.users.rows.map nameOf := h ▸ List.mem_map_of_mem hu
  obtain ⟨u', hu', he⟩ := List.mem_map.mp hn
  exact ⟨u', hu', congrArg Prod.fst he, congrArg Prod.snd he⟩

/-- No user is lost. -/
theorem LoginAction.user (h : LoginAction s s') {userId : Uuid}
    (hu : ∃ u ∈ s.db.users, u.id = userId) : ∃ u ∈ s'.db.users, u.id = userId := by
  obtain ⟨u, hmem, rfl⟩ := hu
  cases h with
  | keep hn =>
      obtain ⟨u', hu', hid, -⟩ := exists_of_names hn hmem
      exact ⟨u', hu', hid⟩
  | create _ hi => exact ⟨u, ((Table.insert_eq_some hi).2 u).mpr (.inl hmem), rfl⟩
  | link _ _ heq => exact ⟨u, heq ▸ hmem, rfl⟩

/-- No link is lost. -/
theorem LoginAction.account (h : LoginAction s s') {a : OAuthAccountRow}
    (ha : a ∈ s.db.oauthAccounts) : a ∈ s'.db.oauthAccounts := by
  cases h with
  | keep _ _ _ heq => exact heq ▸ ha
  | create _ _ _ _ _ _ heq => exact heq ▸ ha
  | link _ hi => exact ((Table.insert_eq_some hi).2 a).mpr (.inl ha)

theorem Unambiguous.step (hs : Unambiguous s) (h : LoginAction s s') : Unambiguous s' := by
  cases h with
  | keep hn _ _ heq =>
      refine ⟨fun u' hu' v' hv' he => ?_, heq ▸ hs.links⟩
      obtain ⟨u, hu, hid, hue⟩ := exists_of_names hn.symm hu'
      obtain ⟨v, hv, hvid, hve⟩ := exists_of_names hn.symm hv'
      have huv := hs.users u hu v hv (hue.trans (he.trans hve.symm))
      exact Table.eq_of_key hu' hv' (hid.symm.trans ((congrArg (·.id) huv).trans hvid))
  | @create u t m hfree hi ht hm hmu hmt heq =>
      refine ⟨fun v hv w hw he => ?_, heq ▸ hs.links⟩
      obtain ⟨-, hmem⟩ := Table.insert_eq_some hi
      rcases (hmem v).mp hv with hv | rfl <;> rcases (hmem w).mp hw with hw | rfl
      · exact hs.users v hv w hw he
      · exact absurd he (hfree v hv)
      · exact absurd he.symm (hfree w hw)
      · rfl
  | @link a hfree hi hu =>
      refine ⟨hu ▸ hs.users, fun b hb c hc hp hsub => ?_⟩
      obtain ⟨-, hmem⟩ := Table.insert_eq_some hi
      rcases (hmem b).mp hb with hb | rfl <;> rcases (hmem c).mp hc with hc | rfl
      · exact hs.links b hb c hc hp hsub
      · exact absurd ⟨hp, hsub⟩ (hfree b hb)
      · exact absurd ⟨hp.symm, hsub.symm⟩ (hfree c hc)
      · rfl

theorem MembershipsExist.step (hs : MembershipsExist s) (h : LoginAction s s') :
    MembershipsExist s' := by
  have hold : ∀ m ∈ s.db.memberships, (∃ u ∈ s'.db.users, u.id = m.userId) :=
    fun m hm => h.user (hs.users m hm)
  cases h with
  | keep hn ht hm => exact ⟨fun m hmem => hold m (hm ▸ hmem), hm ▸ ht ▸ hs.tenants⟩
  | @create u t m hfree hu ht hm hmu hmt =>
      obtain ⟨-, hum⟩ := Table.insert_eq_some hu
      obtain ⟨-, htm⟩ := Table.insert_eq_some ht
      obtain ⟨-, hmm⟩ := Table.insert_eq_some hm
      refine ⟨fun m' hm' => ?_, fun m' hm' => ?_⟩
      · rcases (hmm m').mp hm' with hm' | rfl
        · exact hold m' hm'
        · exact ⟨u, (hum u).mpr (.inr rfl), hmu.symm⟩
      · rcases (hmm m').mp hm' with hm' | rfl
        · obtain ⟨t', ht', he⟩ := hs.tenants m' hm'
          exact ⟨t', (htm t').mpr (.inl ht'), he⟩
        · exact ⟨t, (htm t).mpr (.inr rfl), hmt.symm⟩
  | link _ _ hu ht hm => exact ⟨fun m hmem => hold m (hm ▸ hmem), hm ▸ ht ▸ hs.tenants⟩

/-- A new tenant has no memberships of before. -/
theorem joinTenant_insert (hs : MembershipsExist s) {t : TenantRecord}
    (ht : s.db.tenants.insert t = some s'.db.tenants) {m : MembershipRow}
    (hm : m ∈ s.db.memberships) : joinTenant s' m = joinTenant s m := by
  obtain ⟨t', ht', he⟩ := hs.tenants m hm
  have hne : t.id ≠ m.tenantId := fun h =>
    (Table.insert_eq_some ht).1 t' ht' (he.trans h.symm)
  unfold joinTenant
  rw [Table.find?_insert ht, if_neg hne]

/-- The default tenant of a user stays the same. -/
theorem DefaultTenant.step (hs : MembershipsExist s) (h : LoginAction s s') {userId tenantId : Uuid}
    (hd : DefaultTenant s userId tenantId) : DefaultTenant s' userId tenantId := by
  refine ⟨h.user hd.1, ?_⟩
  suffices hsame : defaultMembership s' userId = defaultMembership s userId by
    rw [hsame]
    exact hd.2
  have heq : s'.db.tenants = s.db.tenants → s'.db.memberships = s.db.memberships →
      defaultMembership s' userId = defaultMembership s userId := by
    intro ht hm
    have hjoin : joinTenant s' = joinTenant s := by
      funext m
      unfold joinTenant
      rw [ht]
    rw [defaultMembership, defaultMembership, hm, hjoin]
  cases h with
  | keep _ ht hm => exact heq ht hm
  | link _ _ _ ht hm => exact heq ht hm
  | @create u t m hfree hu ht hm hmu hmt =>
      -- The new membership is of another user.
      obtain ⟨v, hv, hid⟩ := hd.1
      have hne : m.userId ≠ userId := fun h =>
        (Table.insert_eq_some hu).1 v hv (hid.trans (h.symm.trans hmu))
      have hrows : (s'.db.memberships.select fun m => m.userId = userId) =
          s.db.memberships.select fun m => m.userId = userId := by
        unfold Table.select
        rw [Table.rows_insert hm, List.filter_append, List.filter_singleton]
        simp [hne]
      have hjoined : (s.db.memberships.select fun m => m.userId = userId).filterMap (joinTenant s') =
          (s.db.memberships.select fun m => m.userId = userId).filterMap (joinTenant s) :=
        List.filterMap_congr fun m' hm' =>
          joinTenant_insert hs ht (Table.mem_select.mp hm').1
      rw [defaultMembership, defaultMembership, hrows, hjoined]

end Actions

/-! ### The calls keep to it -/

/-- The contract: every statement is a `LoginAction`, and the provider reports one identity. -/
def loginContract (provider : String) (identity : OAuthIdentity) : Contract Event Env AppState where
  inv s := Unambiguous s ∧ MembershipsExist s
  guar _ _ _ := LoginAction
  adm i l e s := admissible i l e s = true ∧ reportsOnly provider identity e.reply = true
  guar_inv hi hg := ⟨hi.1.step hg, hi.2.step hg⟩

section Calls

variable {app : App} {provider : String} {identity : OAuthIdentity} {i : Nat} {A : Type}

theorem loginContract_tolerant : Tolerant (loginContract provider identity) where
  stay _ _ _ _ _ _ := .of_eq rfl rfl rfl rfl
  bystander _ _ _ _ _ h := .of_eq h.users h.tenants h.memberships h.oauthAccounts
  issue _ _ _ _ _ := .of_eq rfl rfl rfl rfl

theorem loginContract_patient : Patient (loginContract provider identity) :=
  loginContract_tolerant.toPatient

theorem user_lasts {userId : Uuid} :
    (loginContract provider identity).Lasting fun s => ∃ u ∈ s.db.users, u.id = userId :=
  fun _ _ _ _ _ _ hu hg => hg.user hu

/-- A change of a user that leaves identifier and address alone. -/
theorem updateUser_triple {event : Event} {userId : Uuid} {f : Env → UserRecord → UserRecord}
    {hf : ∀ e, Table.KeepsKey UserRecord.id (f e)} (hname : ∀ e u, nameOf (f e u) = nameOf u) :
    (loginContract provider identity).Triple i (fun _ => True) (updateUser event userId f hf)
      (onOk fun u s => u.id = userId ∧ ∃ v ∈ s.db.users, v.id = userId) := by
  refine sql_triple loginContract_patient stable_const
    (fun u => (lasting_const.and user_lasts).stable i) fun s e _ _ _ _ => ?_
  cases hu : s.db.users.find? userId with
  | none => exact ⟨.of_eq rfl rfl rfl rfl, trivial⟩
  | some u =>
      obtain ⟨hmem, hid⟩ := Table.find?_eq_some.mp hu
      refine ⟨.keep ?_ rfl rfl rfl, ((hf e).key_eq u).trans hid, ?_⟩
      · dsimp only [Table.update]
        rw [List.map_map]
        refine List.map_congr_left fun v _ => ?_
        dsimp only [Function.comp]
        split
        · exact hname e v
        · rfl
      · obtain ⟨v, hv, he⟩ := Table.exists_mem_update hmem (fun u => decide (u.id = userId)) (f e) (hf e)
        exact ⟨v, hv, he.trans hid⟩

theorem noteReported_safe {found : OAuthIdentity} {email : String} :
    (loginContract provider identity).Safe i (noteReported provider found email) :=
  .atomic fun _ _ _ _ _ => .of_eq rfl rfl rfl rfl

end Calls

end Fluxa.Accounts

namespace Fluxa
open Interleave Relational Accounts

namespace Accounts

end Accounts

end Fluxa
