import Fluxa.Accounts.Mails

/-!
# Accounts — evidence for verified addresses

When a user's address is marked as verified, there should be evidence for the address the user has: a verification token delivered to it has been consumed, or a provider has reported it for a linked identity.  But the token of a former address stays usable when the replacement cannot be stored, and a change of address can fall between the consumption of a token and the mark; and the mark does not look at the address.

* **`verified_has_evidence`**: as long as each mark is set on the address that its evidence is for, every verified address has evidence, in all states of a run; and that is so exactly as long as each mark is set on such an address or on one proven otherwise.
* **`old_token_verifies_new_address`**: the token for the address of the registration verifies the one that it has been changed to.
-/

namespace Fluxa.Accounts
open Interleave Relational Db Contract

/-! ### The system -/

/-- The calls that create users, set their addresses or mark them as verified. -/
inductive AccountCall where
  | register (email password : String) (tenantName : Option String)
  | oauthLogin (provider code redirectUri : String) (tenantId : Option Uuid)
      (tenantName : Option String)
  | resendVerification (email : String)
  | verifyEmail (token : String)
  | changeEmail (bearer : Jwt) (currentPassword newEmail : String)

def AccountCall.body (app : App) : AccountCall → Service Unit
  | .register email password tenantName => do
    let _ ← Http.register app email password tenantName
    return ()
  | .oauthLogin provider code redirectUri tenantId tenantName => do
    let _ ← Http.oauthLogin app provider code redirectUri tenantId tenantName
    return ()
  | .resendVerification email => Http.resendVerification app email
  | .verifyEmail token => Http.verifyEmail app token
  | .changeEmail bearer currentPassword newEmail => do
    let _ ← Http.changeEmail app bearer currentPassword newEmail
    return ()

/-- Any number of these calls, side by side. -/
def accountSystem (app : App) : System Event Env AppState AppError AccountCall Unit :=
  ⟨AccountCall.body app, admissible⟩

/-! ### Evidence -/

/-- The provider's identity is linked to the user. -/
def Linked (s : AppState) (provider subject : String) (userId : Uuid) : Prop :=
  ∃ a ∈ s.db.oauthAccounts, isOAuthAccount provider subject a = true ∧ a.userId = userId

/-- A verification token for the address has been consumed for the user, or a provider has
reported the address as verified for an identity linked to the user. -/
def Proven (s : AppState) (userId : Uuid) (address : String) : Prop :=
  (userId, address) ∈ s.history.consumed ∨
    ∃ provider subject, (provider, subject, address) ∈ s.history.reported ∧
      Linked s provider subject userId

/-- Every verified address has evidence. -/
def VerifiedProven (s : AppState) : Prop :=
  ∀ u ∈ s.db.users, u.emailVerifiedAt ≠ none → Proven s u.id u.email

/-- If the statement marks a user whose address is not verified, `good` holds of the user and of
the address that the mark is for. -/
def MarkMeets (good : AppState → UserRecord → String → Prop) (_ : Nat) (l : Event) (e : Env)
    (s : AppState) : Prop :=
  ∀ userId address, l = .markVerified userId address → e.fault ≠ .failed →
    ∀ u ∈ s.db.users, u.id = userId → u.emailVerifiedAt = none → good s u address

/-- The user still has the address that the mark is for. -/
def OwnAddress (_ : AppState) (u : UserRecord) (address : String) : Prop := u.email = address

/-- The user still has that address, or has one that has been proven otherwise. -/
def OwnOrProven (s : AppState) (u : UserRecord) (address : String) : Prop :=
  u.email = address ∨ Proven s u.id u.email

/-- Evidence is not lost. -/
structure Grows (s s' : AppState) : Prop where
  consumed : ∀ x ∈ s.history.consumed, x ∈ s'.history.consumed
  reported : ∀ x ∈ s.history.reported, x ∈ s'.history.reported
  accounts : ∀ a ∈ s.db.oauthAccounts, a ∈ s'.db.oauthAccounts

theorem Grows.refl (s : AppState) : Grows s s := ⟨fun _ h => h, fun _ h => h, fun _ h => h⟩

theorem Grows.of_eq {s s' : AppState} (hc : s'.history.consumed = s.history.consumed)
    (hr : s'.history.reported = s.history.reported)
    (ha : s'.db.oauthAccounts = s.db.oauthAccounts) : Grows s s' :=
  ⟨fun _ h => hc ▸ h, fun _ h => hr ▸ h, fun _ h => ha ▸ h⟩

theorem Grows.linked {s s' : AppState} (h : Grows s s') {provider subject : String}
    {userId : Uuid} (hl : Linked s provider subject userId) : Linked s' provider subject userId := by
  obtain ⟨a, ha, hid⟩ := hl
  exact ⟨a, h.accounts a ha, hid⟩

theorem Grows.proven {s s' : AppState} (h : Grows s s') {userId : Uuid} {address : String}
    (hp : Proven s userId address) : Proven s' userId address := by
  rcases hp with hc | ⟨provider, subject, hr, hl⟩
  · exact .inl (h.consumed _ hc)
  · exact .inr ⟨provider, subject, h.reported _ hr, h.linked hl⟩

/-! ### What a statement does to the users -/

/-- The statement is a mark. -/
def marks : Event → Bool
  | .markVerified _ _ => true
  | _ => false

/-- The assignment of `mark_user_email_verified`. -/
def marked (now : Time) (u : UserRecord) : UserRecord :=
  { u with emailVerifiedAt := some (u.emailVerifiedAt.getD now) }

/-- What a statement does to the users and to the evidence. -/
inductive AccountAction : Event → Env → AppState → AppState → Prop where
  | keep {l e s s'} (hu : s'.db.users = s.db.users) (hg : Grows s s')
      (hl : marks l = true → e.fault = .failed) : AccountAction l e s s'
  | create {e s s'} {u : UserRecord} (hu : ∀ v, v ∈ s'.db.users ↔ v ∈ s.db.users ∨ v = u)
      (hv : u.emailVerifiedAt = none) (hg : Grows s s') : AccountAction .quiet e s s'
  | readdress {e s s' userId email}
      (hu : ∀ v ∈ s'.db.users, v ∈ s.db.users ∨ v.emailVerifiedAt = none) (hg : Grows s s') :
      AccountAction (.setEmail userId email) e s s'
  | mark {e s s' userId address} (hp : Proven s userId address) (hf : e.fault ≠ .failed)
      (hu : ∀ v, v ∈ s'.db.users ↔
        ∃ u ∈ s.db.users, v = if u.id = userId then marked e.now u else u)
      (hg : Grows s s') (hh : s'.history = s.history)
      (ha : s'.db.oauthAccounts = s.db.oauthAccounts) :
      AccountAction (.markVerified userId address) e s s'

theorem AccountAction.grows {l : Event} {e : Env} {s s' : AppState}
    (h : AccountAction l e s s') : Grows s s' := by
  cases h <;> assumption

/-- A user of before who is verified has evidence. -/
theorem VerifiedProven.grow {s s' : AppState} (hs : VerifiedProven s) (hg : Grows s s')
    {u : UserRecord} (hu : u ∈ s.db.users) (hv : u.emailVerifiedAt ≠ none) :
    Proven s' u.id u.email :=
  hg.proven (hs u hu hv)

theorem markMeets_of_not_marks {good : AppState → UserRecord → String → Prop} {i : Nat} {l : Event}
    {e : Env} {s : AppState} (hl : marks l = true → e.fault = .failed) :
    MarkMeets good i l e s := by
  rintro userId address rfl hf
  exact absurd (hl rfl) hf

/-- A mark leaves every verified address with evidence exactly when it is set on an address that
is proven. -/
theorem verifiedProven_mark {s s' : AppState} {i : Nat} {e : Env} {userId : Uuid} {address : String}
    (hs : VerifiedProven s) (hp : Proven s userId address) (hf : e.fault ≠ .failed)
    (hu : ∀ v, v ∈ s'.db.users ↔ ∃ u ∈ s.db.users, v = if u.id = userId then marked e.now u else u)
    (hg : Grows s s') (hh : s'.history = s.history)
    (ha : s'.db.oauthAccounts = s.db.oauthAccounts) :
    VerifiedProven s' ↔ MarkMeets OwnOrProven i (.markVerified userId address) e s := by
  have hback : ∀ {x a}, Proven s' x a → Proven s x a := by
    intro x a h
    simpa only [Proven, Linked, hh, ha] using h
  constructor
  · rintro h _ _ hl - u hmem rfl hv
    cases hl
    refine .inr (hback (h (marked e.now u) ((hu _).mpr ⟨u, hmem, by simp⟩) ?_))
    simp [marked]
  · intro h v hmem hv
    obtain ⟨u, hum, rfl⟩ := (hu v).mp hmem
    by_cases hid : u.id = userId
    · subst hid
      simp only [if_true, marked] at hv ⊢
      by_cases hun : u.emailVerifiedAt = none
      · rcases h u.id address rfl hf u hum rfl hun with he | he
        · exact hg.proven (he ▸ hp)
        · exact hg.proven he
      · exact hs.grow hg hum hun
    · simp only [hid, if_false] at hv ⊢
      exact hs.grow hg hum hv

theorem AccountAction.verified_iff {i : Nat} {l : Event} {e : Env} {s s' : AppState}
    (hs : VerifiedProven s) (h : AccountAction l e s s') :
    VerifiedProven s' ↔ MarkMeets OwnOrProven i l e s := by
  cases h with
  | keep hu hg hl =>
      refine iff_of_true (fun u hmem => ?_) (markMeets_of_not_marks hl)
      rw [hu] at hmem
      exact hs.grow hg hmem
  | create hu hv hg =>
      refine iff_of_true (fun v hmem hver => ?_) (markMeets_of_not_marks fun hl => by cases hl)
      rcases (hu v).mp hmem with hmem | rfl
      · exact hs.grow hg hmem hver
      · exact absurd hv hver
  | readdress hu hg =>
      refine iff_of_true (fun v hmem hver => ?_) (markMeets_of_not_marks fun hl => by cases hl)
      rcases hu v hmem with hmem | hv
      · exact hs.grow hg hmem hver
      · exact absurd hv hver
  | mark hp hf hu hg hh ha => exact verifiedProven_mark hs hp hf hu hg hh ha

/-! ### The calls keep to it -/

/-- The contract: every statement is an `AccountAction`. -/
def accountContract : Contract Event Env AppState where
  inv _ := True
  guar _ := AccountAction
  adm _ _ _ _ := True
  guar_inv _ _ := trivial

variable {i : Nat}

theorem accountContract_tolerant : Tolerant accountContract where
  stay _ _ _ s _ hf := .keep rfl (.refl s) fun _ => hf
  bystander _ _ s s' _ h :=
    .keep h.users (.of_eq (by rw [h.history]) (by rw [h.history]) h.oauthAccounts)
      fun hl => by cases hl
  issue _ _ s _ _ := .keep rfl (.of_eq rfl rfl rfl) fun hl => by cases hl

theorem proven_lasting {userId : Uuid} {address : String} :
    accountContract.Lasting fun s => Proven s userId address :=
  fun _ _ _ _ _ _ hp hg => hg.grows.proven hp

theorem linked_lasting {provider subject : String} {userId : Uuid} :
    accountContract.Lasting fun s => Linked s provider subject userId :=
  fun _ _ _ _ _ _ hl hg => hg.grows.linked hl

theorem reported_lasting {x : String × String × String} :
    accountContract.Lasting fun s => x ∈ s.history.reported :=
  fun _ _ _ _ _ _ hx hg => hg.grows.reported x hx

theorem createUserWithTenant_safe {email passwordHash tenantName : String} :
    accountContract.Safe i (createUserWithTenant email passwordHash tenantName) := by
  refine .bind (utcNow_safe accountContract_tolerant) fun now => ?_
  refine .bind (newUuid_safe accountContract_tolerant) fun userId => ?_
  refine .bind (newUuid_safe accountContract_tolerant) fun tenantId => ?_
  refine sql_safe accountContract_tolerant fun s e _ _ _ => ?_
  have hkeep : AccountAction .quiet e s s := .keep rfl (.refl s) fun hl => by cases hl
  dsimp only
  split
  · exact hkeep
  · split
    · rename_i users tenants memberships hu _ _
      obtain ⟨-, hmem⟩ := Table.insert_eq_some hu
      exact .create hmem rfl (.of_eq rfl rfl rfl)
    · exact hkeep

theorem updateUserEmail_safe {userId : Uuid} {email : String} :
    accountContract.Safe i (updateUserEmail userId email) := by
  refine sql_safe accountContract_tolerant fun s e _ _ _ => ?_
  have hkeep : AccountAction (.setEmail userId email) e s s :=
    .keep rfl (.refl s) fun hl => by cases hl
  dsimp only
  split
  · exact hkeep
  · split
    · exact hkeep
    · refine .readdress (fun v hv => ?_) (.of_eq rfl rfl rfl)
      simp only [Table.mem_update, decide_eq_true_eq] at hv
      obtain ⟨u, hu, rfl⟩ := hv
      split
      · exact .inr rfl
      · exact .inl hu

/-- A mark is set for the sake of an address that is proven. -/
theorem markUserEmailVerified_triple {userId : Uuid} {address : String} :
    accountContract.Triple i (fun s => Proven s userId address)
      (markUserEmailVerified userId address) fun _ _ => True := by
  refine sql_from accountContract_tolerant (proven_lasting.stable i) fun s e _ hp _ hf => ?_
  cases hu : s.db.users.find? userId with
  | none =>
      refine .mark hp hf (fun v => ?_) (.refl s) rfl rfl
      have hne : ∀ u ∈ s.db.users, u.id ≠ userId := Table.find?_eq_none.mp hu
      refine ⟨fun hv => ⟨v, hv, by simp [hne v hv]⟩, ?_⟩
      rintro ⟨u, hum, rfl⟩
      simpa [hne u hum] using hum
  | some u =>
      refine .mark hp hf (fun v => ?_) (.of_eq rfl rfl rfl) rfl rfl
      simp only [Table.mem_update, decide_eq_true_eq, marked]

/-- The consumption of a verification token proves its address. -/
theorem consumeVerification_triple {tokenHash : String} :
    accountContract.Triple i (fun _ => True) (consumeUserToken .emailVerification tokenHash)
      (onOk fun t s => Proven s t.userId t.address) := by
  refine sql_triple accountContract_tolerant stable_const (fun _ => proven_lasting.stable i)
    fun s e _ _ _ _ => ?_
  cases hsel : (s.db.userTokens.select (isConsumable .emailVerification tokenHash e.now)).head? with
  | none => exact ⟨.keep rfl (.refl s) (fun hl => by cases hl), trivial⟩
  | some t =>
      obtain ⟨-, hc⟩ := Table.mem_select.mp (List.mem_of_mem_head? hsel)
      have hk : t.kind = .emailVerification := by
        simp only [isConsumable, Bool.and_eq_true, decide_eq_true_eq] at hc
        exact hc.1.1.1
      refine ⟨.keep rfl ⟨fun x hx => ?_, fun x hx => ?_, fun _ ha => ha⟩ (fun hl => by cases hl), ?_⟩
      · simpa [Db.History.afterConsumption, hk] using .inr hx
      · simpa [Db.History.afterConsumption, hk] using hx
      · exact .inl (by simp [Db.History.afterConsumption, hk])

theorem linkOAuthAccount_triple {userId : Uuid} {provider subject : String} :
    accountContract.Triple i (fun _ => True) (linkOAuthAccount userId provider subject)
      (onOk fun _ s => Linked s provider subject userId) := by
  refine Safe.carry_seq (newUuid_safe accountContract_tolerant) lasting_const fun id => ?_
  refine Safe.carry_seq (utcNow_safe accountContract_tolerant) lasting_const fun now => ?_
  refine sql_triple accountContract_tolerant stable_const (fun _ => linked_lasting.stable i)
    fun s e _ _ _ _ => ?_
  have hkeep : AccountAction .quiet e s s := .keep rfl (.refl s) fun hl => by cases hl
  dsimp only
  split
  · exact ⟨hkeep, trivial⟩
  · split
    · rename_i table ht
      obtain ⟨-, hmem⟩ := Table.insert_eq_some ht
      have hg : Grows s { s with db.oauthAccounts := table } :=
        ⟨fun _ h => h, fun _ h => h, fun a ha => (hmem a).mpr (.inl ha)⟩
      refine ⟨.keep rfl hg (fun hl => by cases hl), _, (hmem _).mpr (.inr rfl), ?_, rfl⟩
      simp [isOAuthAccount]
    · exact ⟨hkeep, trivial⟩

theorem getOAuthAccountUser_triple {provider subject : String} :
    accountContract.Triple i (fun _ => True) (getOAuthAccountUser provider subject)
      (onOk fun o s => ∀ userId, o = some userId → Linked s provider subject userId) := by
  have hst : ∀ o : Option Uuid, accountContract.Stable i
      fun s => ∀ userId, o = some userId → Linked s provider subject userId :=
    fun o s s' j l e hi h hj hg userId ho => hg.grows.linked (h userId ho)
  refine sql_triple accountContract_tolerant stable_const hst fun s e _ _ _ _ => ?_
  refine ⟨.keep rfl (.refl s) (fun hl => by cases hl), fun userId ho => ?_⟩
  obtain ⟨a, ha, rfl⟩ := Option.map_eq_some_iff.mp ho
  obtain ⟨ha, hacc⟩ := Table.mem_select.mp (List.mem_of_mem_head? ha)
  exact ⟨a, ha, hacc, rfl⟩

/-- What the provider has reported as verified is noted. -/
theorem noteReported_triple {provider email : String} {identity : OAuthIdentity} :
    accountContract.Triple i (fun _ => True) (noteReported provider identity email)
      (onOk fun _ s => identity.emailVerified = true →
        (provider, identity.subject, email) ∈ s.history.reported) := by
  refine Triple.atomic stable_const (stable_onOk fun _ => ?_) fun s e _ _ _ _ => ?_
  · exact fun s s' j l e hi h hj hg hv => hg.grows.reported _ (h hv)
  · cases hv : identity.emailVerified with
    | false => exact ⟨.keep rfl (.refl s) (fun hl => by cases hl), fun h => by cases h⟩
    | true =>
        refine ⟨.keep rfl ⟨fun _ h => h, fun _ h => List.mem_cons_of_mem _ h, fun _ h => h⟩
          (fun hl => by cases hl), fun _ => List.mem_cons_self⟩

/-! ### Statements that touch neither users nor evidence -/

theorem not_marks_of_issues {l : Event} (h : issues l = true) : marks l = false := by
  cases l with
  | markVerified => cases h
  | _ => rfl

theorem accountContract_sessions : TolerantOfSessions accountContract :=
  { accountContract_tolerant with
    sessions := fun i l e s s' _ hl h =>
      .keep h.users (.of_eq h.consumed h.reported h.oauthAccounts) fun hm => by
        rw [not_marks_of_issues hl] at hm
        cases hm }

theorem audit_safe {tenantId actorUserId : Option Uuid} {subjectType : String}
    {subjectId : Option Uuid} {eventType : String} {payload : Value} :
    accountContract.Safe i
      (recordEvent tenantId actorUserId subjectType subjectId eventType payload) :=
  recordEvent_safe accountContract_tolerant

/-! ### The calls -/

theorem register_safe {app : App} {email password : String} {tenantName : Option String} :
    accountContract.Safe i (Http.register app email password tenantName) := by
  refine .bind lift_safe fun email => .bind lift_safe fun _ => ?_
  refine .bind (hashPassword_safe accountContract_tolerant) fun _ => ?_
  refine .bind accountContract_sessions.credentialCheck fun _ => .bind createUserWithTenant_safe fun _ => ?_
  exact .bind accountContract_sessions.sendVerificationEmail fun _ => .bind audit_safe fun _ => accountContract_sessions.issueNewSession

theorem changeEmail_safe {app : App} {bearer : Jwt} {currentPassword newEmail : String} :
    accountContract.Safe i (Http.changeEmail app bearer currentPassword newEmail) := by
  refine .bind (protectedMiddleware_safe accountContract_tolerant) fun user => ?_
  refine .bind lift_safe fun email => ?_
  refine .bind (getUserById_safe accountContract_tolerant) fun user => .bind lift_safe fun _ => ?_
  refine .bind updateUserEmail_safe fun _ => .bind accountContract_sessions.sendVerificationEmail fun _ => ?_
  exact .bind audit_safe fun _ => .done

theorem resendVerification_safe {app : App} {email : String} :
    accountContract.Safe i (Http.resendVerification app email) := by
  refine .bind lift_safe fun email => .bind (select_safe accountContract_tolerant) fun o => ?_
  cases o with
  | none => exact .done
  | some user => exact accountContract_sessions.sendVerificationEmail

theorem verifyEmail_safe {app : App} {token : String} :
    accountContract.Safe i (Http.verifyEmail app token) := by
  refine .bind .ensure fun _ => ?_
  refine Triple.bind consumeVerification_triple (fun record => ?_) fun _ _ _ _ => trivial
  exact Triple.bind markUserEmailVerified_triple (fun _ => audit_safe.pre fun _ _ _ => trivial)
    fun _ _ _ _ => trivial

/-- The provider has reported the address, if it has verified it. -/
def Reported (provider : String) (identity : OAuthIdentity) (email : String) (s : AppState) : Prop :=
  identity.emailVerified = true → (provider, identity.subject, email) ∈ s.history.reported

theorem reported_identity_lasting {provider email : String} {identity : OAuthIdentity} :
    accountContract.Lasting (Reported provider identity email) :=
  fun _ _ _ _ _ _ h hg hv => hg.grows.reported _ (h hv)

/-- A mark for an address that is reported for a linked identity, and what follows it. -/
theorem mark_bind {A : Type} {provider subject email : String} {userId : Uuid}
    {f : UserRecord → Service A} (hf : ∀ u, accountContract.Safe i (f u)) :
    accountContract.Triple i (fun s => (provider, subject, email) ∈ s.history.reported ∧
        Linked s provider subject userId)
      ((markUserEmailVerified userId email).bind f) fun _ _ => True := by
  refine Triple.bind (Q := fun _ _ => True) ?_ (fun u => (hf u).pre fun _ _ _ => trivial)
    fun _ _ _ _ => trivial
  exact markUserEmailVerified_triple.pre fun s _ h => .inr ⟨provider, subject, h.1, h.2⟩

theorem loginLinked_safe {app : App} {provider email : String} {identity : OAuthIdentity}
    {tenantId : Option Uuid} {origin : Nat} {userId : Uuid} :
    accountContract.Triple i
      (fun s => Reported provider identity email s ∧ Linked s provider identity.subject userId)
      (loginLinked app provider identity email tenantId origin userId) fun _ _ => True := by
  have hF : accountContract.Lasting fun s => Reported provider identity email s ∧
      Linked s provider identity.subject userId := reported_identity_lasting.and linked_lasting
  refine Triple.bind (Q := onOk fun u s => u.id = userId ∧ (Reported provider identity email s ∧
    Linked s provider identity.subject userId)) ?_ (fun user => ?_) fun _ _ _ _ => trivial
  · refine (((getUserById_triple accountContract_tolerant).keep hF).pre
      fun s _ h => ⟨trivial, h⟩).post ?_
    rintro (x | u) s - ⟨hu, h⟩
    · trivial
    · exact ⟨hu, h⟩
  refine Triple.of_fact fun hid => ?_
  subst hid
  refine Triple.bind (Q := fun _ _ => True) ?_ (fun user => ?_) fun _ _ _ _ => trivial
  · refine Triple.ite (fun hmark => ?_) fun _ => Safe.done.pre fun _ _ _ => trivial
    rw [Bool.and_eq_true] at hmark
    exact markUserEmailVerified_triple.pre fun s _ h =>
      .inr ⟨provider, identity.subject, h.1 hmark.1, h.2⟩
  · refine Safe.bind .ensure fun _ => ?_
    refine .bind (resolveMembership_safe accountContract_tolerant) fun _ => ?_
    exact .bind audit_safe fun _ => accountContract_sessions.issueNewSession

theorem linkAndLogin_safe {app : App} {provider email : String} {identity : OAuthIdentity}
    {tenantId : Option Uuid} {origin : Nat} {user : UserRecord} :
    accountContract.Triple i
      (fun s => (provider, identity.subject, email) ∈ s.history.reported)
      (linkAndLogin app provider identity email tenantId origin user) fun _ _ => True := by
  refine Triple.bind (Q := onOk fun _ s => (provider, identity.subject, email) ∈
    s.history.reported ∧ Linked s provider identity.subject user.id) ?_ (fun _ => ?_)
    fun _ _ _ _ => trivial
  · refine ((linkOAuthAccount_triple.keep reported_lasting).pre fun s _ h => ⟨trivial, h⟩).post ?_
    rintro (x | u) s - ⟨hl, h⟩
    · trivial
    · exact ⟨h, hl⟩
  · exact mark_bind fun user => .bind (resolveMembership_safe accountContract_tolerant) fun _ =>
      .bind audit_safe fun _ => .bind audit_safe fun _ => accountContract_sessions.issueNewSession

theorem provisionAndLogin_safe {app : App} {provider email : String} {identity : OAuthIdentity}
    {tenantName : Option String} {origin : Nat} :
    accountContract.Triple i
      (fun s => (provider, identity.subject, email) ∈ s.history.reported)
      (provisionAndLogin app provider identity email tenantName origin) fun _ _ => True := by
  refine Safe.carry_bind (generateRandom_safe accountContract_tolerant) reported_lasting
    fun password => ?_
  refine Safe.carry_bind (hashPassword_safe accountContract_tolerant) reported_lasting
    fun passwordHash => ?_
  refine Safe.carry_bind createUserWithTenant_safe reported_lasting fun created => ?_
  refine Triple.bind (Q := onOk fun _ s => (provider, identity.subject, email) ∈
    s.history.reported ∧ Linked s provider identity.subject created.1.id) ?_ (fun _ => ?_)
    fun _ _ _ _ => trivial
  · refine ((linkOAuthAccount_triple.keep reported_lasting).pre fun s _ h => ⟨trivial, h⟩).post ?_
    rintro (x | u) s - ⟨hl, h⟩
    · trivial
    · exact ⟨h, hl⟩
  · exact mark_bind fun user => .bind audit_safe fun _ => .bind audit_safe fun _ =>
      accountContract_sessions.issueNewSession

theorem oauthLogin_safe {app : App} {provider code redirectUri : String}
    {tenantId : Option Uuid} {tenantName : Option String} :
    accountContract.Safe i
      (Http.oauthLogin app provider code redirectUri tenantId tenantName) := by
  refine .bind .ensure fun _ => .bind .ensure fun _ => ?_
  generalize toAsciiLowercase (trim provider) = provider
  refine .bind .ensure fun _ => .bind .ensure fun _ => ?_
  refine .bind (exchangeCode_safe accountContract_tolerant) fun _ => ?_
  refine .bind (fetchIdentity_safe accountContract_tolerant) fun identity => ?_
  refine .bind accountContract_sessions.credentialCheck fun origin => .bind lift_safe fun email => ?_
  refine Triple.bind noteReported_triple (fun _ => ?_) fun _ _ _ _ => trivial
  refine Triple.pre (P := Reported provider identity email) ?_ fun s _ h => h
  refine Triple.bind (Q := onOk fun o s => Reported provider identity email s ∧
    ∀ userId, o = some userId → Linked s provider identity.subject userId) ?_ (fun o => ?_)
    fun _ _ _ _ => trivial
  · refine ((getOAuthAccountUser_triple.keep reported_identity_lasting).pre
      fun s _ h => ⟨trivial, h⟩).post ?_
    rintro (x | o) s - ⟨ho, h⟩
    · trivial
    · exact ⟨h, ho⟩
  cases o with
  | some userId => exact loginLinked_safe.pre fun s _ h => ⟨h.1, h.2 userId rfl⟩
  | none =>
      refine Triple.pre (P := Reported provider identity email) ?_ fun s _ h => h.1
      refine Triple.bind (Triple.ensure (reported_identity_lasting.stable i)) (fun _ => ?_)
        fun _ _ _ _ => trivial
      refine Triple.pre (P := fun s => (provider, identity.subject, email) ∈ s.history.reported) ?_
        fun s _ h => h.2 h.1
      refine Safe.carry_bind (select_safe accountContract_tolerant) reported_lasting fun o => ?_
      cases o with
      | some user => exact linkAndLogin_safe
      | none => exact provisionAndLogin_safe

theorem accountCall_safe {app : App} (k : AccountCall) :
    accountContract.Safe i ((accountSystem app).body k) := by
  cases k <;> simp only [accountSystem, AccountCall.body, Prog.bind_eq, Prog.pure_eq]
  case register => exact .bind register_safe fun _ => .done
  case oauthLogin => exact .bind oauthLogin_safe fun _ => .done
  case resendVerification => exact resendVerification_safe
  case verifyEmail => exact verifyEmail_safe
  case changeEmail => exact .bind changeEmail_safe fun _ => .done

/-- The calls hand out tokens only in mails to the addresses that the tokens are issued for. -/
theorem accountCall_mails {app : App} (k : AccountCall) :
    (Mails.mailContract app).Safe i ((accountSystem app).body k) := by
  cases k <;> simp only [accountSystem, AccountCall.body, Prog.bind_eq, Prog.pure_eq]
  case register => exact Mails.unit_keeps Mails.register_keeps
  case oauthLogin => exact Mails.unit_keeps Mails.oauthLogin_keeps
  case resendVerification => exact Mails.resendVerification_keeps
  case verifyEmail => exact Mails.verifyEmail_keeps
  case changeEmail => exact Mails.unit_keeps Mails.changeEmail_keeps

/-! ### Runs -/

abbrev AccountConfig := Config Event Env AppState AppError AccountCall Unit

/-- In every run from a state in which every verified address has evidence: if each mark finds
its user with the address that it is for, every verified address has evidence throughout; and it
has exactly if each mark finds such an address, or one proven otherwise.  The address that a token
is for is the one that its mail goes to. -/
theorem verified_has_evidence {app : App} {s : AppState} (hs : VerifiedProven s)
    {ms : List (Move Env AccountCall)} {c : AccountConfig}
    (h : (accountSystem app).exec (.start s) ms = some c) :
    ((accountSystem app).Along (fun d m => d.Meets (MarkMeets OwnAddress) m) (.start s) ms →
        (accountSystem app).Through (fun d => VerifiedProven d.st) (.start s) ms) ∧
      ((accountSystem app).Through (fun d => VerifiedProven d.st) (.start s) ms ↔
        (accountSystem app).Along (fun d m => d.Meets (MarkMeets OwnOrProven) m) (.start s)
          ms) ∧
      (Mails.MailInv app s → ∀ n ∈ c.st.db.notifications, ∀ kind : TokenKind,
        n.kind = kind.notification → ∃ token t, Mails.HandsOut app c.st n token t) := by
  have hiff : (accountSystem app).Through (fun d => VerifiedProven d.st) (.start s) ms ↔
      (accountSystem app).Along (fun d m => d.Meets (MarkMeets OwnOrProven) m) (.start s) ms :=
    through_iff_along (K := accountContract) (fun _ k => accountCall_safe k)
      (fun _ _ _ _ _ => trivial) (fun _ _ _ _ _ _ _ hP hg => hg.verified_iff hP) trivial hs h
  refine ⟨fun hown => hiff.mpr (hown.mono fun d m hm i e he l hl => ?_), hiff, fun hmails => ?_⟩
  · exact fun userId address hev hf u hu hid hv =>
      .inl (hm i e he l hl userId address hev hf u hu hid hv)
  · have hkeeps : Keeps (Mails.mailContract app) (fun _ _ _ _ => True) c :=
      sound_all (fun _ k => accountCall_mails k) (fun _ _ _ _ _ => trivial) hmails h
    exact hkeeps.1.tokenMails

/-! ### An address verified by the token of another -/

/-- The next `n` statements of call `i`, without failures; what they generate is numbered from
`first`, and the random text is `token`. -/
def statements (i n first : Nat) : List (Move Env AccountCall) :=
  (List.range n).map fun k =>
    .exec i { (default : Env) with pid := i, uuid := first + k, random := "token" }

/-- The access token that the registration of call 0 issues. -/
def registeredToken : Jwt :=
  { sub := 103, tenantId := 104, role := .owner, tokenType := .access, jti := 120, iat := 0,
    exp := 900, origin := 0 }

/-- A registration; then a change of address, in which the replacement of the verification token
fails; then the verification with the token of the registration. -/
def oldTokenRun : List (Move Env AccountCall) :=
  .call (.register "a@x" "correct horse" none) :: statements 0 22 100 ++
    .call (.changeEmail registeredToken "correct horse" "b@x") :: statements 1 7 200 ++
    .exec 1 { (default : Env) with pid := 1, fault := .failed } :: statements 1 2 300 ++
    .call (.verifyEmail "token") :: statements 2 4 400

theorem verifiedProven_default : VerifiedProven default :=
  fun _ hu => absurd hu Table.not_mem_empty

/-- What is said of runs, of that run. -/
theorem verified_has_evidence_oldTokenRun :
    ∃ c, (accountSystem default).exec (.start default) oldTokenRun = some c ∧
      ((accountSystem default).Through (fun d => VerifiedProven d.st) (.start default)
          oldTokenRun ↔
        (accountSystem default).Along (fun d m => d.Meets (MarkMeets OwnOrProven) m)
          (.start default) oldTokenRun) ∧
      ∀ n ∈ c.st.db.notifications, ∀ kind : TokenKind, n.kind = kind.notification →
        ∃ token t, Mails.HandsOut default c.st n token t := by
  have h : ((accountSystem default).exec (.start default) oldTokenRun).isSome := by decide
  obtain ⟨c, hc⟩ := Option.isSome_iff_exists.mp h
  obtain ⟨-, hiff, hmails⟩ := verified_has_evidence verifiedProven_default hc
  exact ⟨c, hc, hiff, hmails ⟨Table.unique_empty, Table.unique_empty,
    fun _ hn => absurd hn Table.not_mem_empty⟩⟩

/-- In the end `b@x` is verified, although only the token for `a@x` has been consumed. -/
theorem old_token_verifies_new_address :
    VerifiedProven default ∧
      ∃ c, (accountSystem default).exec (.start default) oldTokenRun = some c ∧
        ¬ VerifiedProven c.st := by
  have h : ((accountSystem default).exec (.start default) oldTokenRun).map (fun c =>
      (c.st.db.users.any fun u => u.email = "b@x" && u.emailVerifiedAt.isSome,
        c.st.history.consumed.map (·.2), c.st.history.reported)) =
      some (true, ["a@x"], []) := by decide
  obtain ⟨c, hc, h⟩ := Option.map_eq_some_iff.mp h
  obtain ⟨huser, hcons, hrep⟩ := by simpa only [Prod.mk.injEq] using h
  obtain ⟨u, hu, huser⟩ := Table.any_eq_true.mp huser
  simp only [Bool.and_eq_true, decide_eq_true_eq] at huser
  obtain ⟨he, hv⟩ := huser
  refine ⟨verifiedProven_default, c, hc, fun hs => ?_⟩
  rcases hs u hu (Option.isSome_iff_ne_none.mp hv) with hmem | ⟨provider, subject, hmem, -⟩
  · have hmem' := List.mem_map_of_mem (f := Prod.snd) hmem
    rw [hcons, he] at hmem'
    simp at hmem'
  · rw [hrep] at hmem
    cases hmem

end Fluxa.Accounts
