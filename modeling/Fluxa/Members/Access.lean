import Fluxa.Http.Members
import Fluxa.Members.Writes
import Fluxa.Services.Quiet

/-!
# Members — access

Who is let in, and with which sessions, when sessions, requests and changes of memberships alternate statement by statement.  A member who has been removed still holds tokens, and an invitation that is pending still lets him in again.

* **`removal_ends_access`**: once `remove_member` has returned, no call that comes in is let in as that user in that tenant or gets a session for it, until the user accepts an invitation to the tenant.
-/

namespace Fluxa
open Interleave Relational Db Contract

namespace Access

/-! ### The system -/

/-- A statement that neither writes memberships nor accepts an invitation, and keeps the users. -/
structure Elsewhere (s s' : AppState) : Prop where
  users : ∀ u ∈ s.db.users, ∃ u' ∈ s'.db.users, u'.id = u.id
  memberships : s'.db.memberships = s.db.memberships
  joined : s'.history.joined = s.history.joined

/-- The routes of signed-in users: those that issue a session or write memberships, and any
other. -/
inductive Route where
  | switchTenant (tenantId : Uuid)
  | acceptInvitation (tenantId : Uuid) (token : String)
  | updateMemberRole (tenantId memberId : Uuid) (role : String)
  | removeMember (tenantId memberId : Uuid)
  | other (handler : AuthenticatedUser → Service Unit)
      (h : ∀ user, Makes (fun _ _ s s' => Elsewhere s s') (handler user))

/-- A call. -/
inductive AccessCall where
  | register (email password : String) (tenantName : Option String)
  | login (email password : String) (tenantId : Option Uuid)
  | oauthLogin (provider code redirectUri : String) (tenantId : Option Uuid)
      (tenantName : Option String)
  | refresh (refreshToken : Jwt) (tenantId : Option Uuid)
  /-- A request with an access token. -/
  | request (bearer : Jwt) (route : Route)
  /-- Whatever else the service does. -/
  | elsewhere (p : Service Unit) (h : Makes (fun _ _ s s' => Elsewhere s s') p)

/-- What a call ends with: the users and tenants as which it was let in or for which it got a
session, and how it went. -/
structure AccessReply where
  granted : List (Uuid × Uuid)
  result : Except AppError Unit

/-- The user and the tenant of the session. -/
def ofSession (session : AuthSession) : List (Uuid × Uuid) :=
  [(session.user.id, session.membership.tenantId)]

/-- What the program grants, after what has been granted already. -/
def granting (before : List (Uuid × Uuid)) (p : Service (List (Uuid × Uuid))) :
    Service AccessReply := do
  match ← p.attempt with
  | .ok granted => return ⟨before ++ granted, .ok ()⟩
  | .error error => return ⟨before, .error error⟩

def Route.handler (app : App) (user : AuthenticatedUser) : Route → Service (List (Uuid × Uuid))
  | .switchTenant tenantId => do
    return ofSession (← Fluxa.switchTenant app user.userId tenantId user.origin)
  | .acceptInvitation tenantId token => do
    let _ ← Http.acceptInvitation app user tenantId token
    return []
  | .updateMemberRole tenantId memberId role => do
    let _ ← Http.updateMemberRole user tenantId memberId role
    return []
  | .removeMember tenantId memberId => do
    Http.removeMember user tenantId memberId
    return []
  | .other handler _ => do
    handler user
    return []

/-- A request: the middleware, and then the handler. -/
def answerRequest (app : App) (bearer : Jwt) (route : Route) : Service AccessReply := do
  match ← (protectedMiddleware bearer).attempt with
  | .error error => return ⟨[], .error error⟩
  | .ok user => granting [(user.userId, user.tenantId)] (route.handler app user)

def AccessCall.body (app : App) : AccessCall → Service AccessReply
  | .register email password tenantName => granting [] do
    return ofSession (← Http.register app email password tenantName)
  | .login email password tenantId => granting [] do
    return ofSession (← Http.login app email password tenantId)
  | .oauthLogin provider code redirectUri tenantId tenantName => granting [] do
    return ofSession (← Http.oauthLogin app provider code redirectUri tenantId tenantName)
  | .refresh refreshToken tenantId => granting [] do
    return ofSession (← Fluxa.refresh app refreshToken tenantId)
  | .request bearer route => answerRequest app bearer route
  | .elsewhere p _ => granting [] do
    p
    return []

/-- Any number of these calls, side by side. -/
def accessSystem (app : App) : System Event Env AppState AppError AccessCall AccessReply :=
  ⟨AccessCall.body app, admissible⟩

/-! ### What a statement does -/

/-- How often the user has accepted an invitation to the tenant. -/
def acceptances (s : AppState) (tenantId userId : Uuid) : Nat :=
  s.history.joined.countP fun x => isMembership tenantId userId x.2.2

/-- The user is there. -/
def Known (userId : Uuid) (s : AppState) : Prop := ∃ u ∈ s.db.users, u.id = userId

/-- The user is no member of the tenant. -/
def Absent (tenantId userId : Uuid) (s : AppState) : Prop :=
  ∀ m ∈ s.db.memberships, isMembership tenantId userId m = false

/-- What a statement does to the membership of the user in the tenant: only an acceptance brings it
about for a user who is there. -/
structure Change (tenantId userId : Uuid) (s s' : AppState) : Prop where
  known : Known userId s → Known userId s'
  accepted : acceptances s tenantId userId ≤ acceptances s' tenantId userId
  absent : Known userId s → Absent tenantId userId s →
    Absent tenantId userId s' ∨ acceptances s tenantId userId < acceptances s' tenantId userId

/-- The contract: every statement is a `Change`. -/
def accessContract (tenantId userId : Uuid) : Contract Event Env AppState where
  inv _ := True
  guar _ _ _ := Change tenantId userId
  adm _ _ _ _ := True
  guar_inv _ _ := trivial

variable {app : App} {i n : Nat} {tenantId userId : Uuid} {s s' : AppState}

theorem Elsewhere.change (h : Elsewhere s s') : Change tenantId userId s s' where
  known := by
    rintro ⟨u, hu, rfl⟩
    exact h.users u hu
  accepted := le_of_eq (by rw [acceptances, acceptances, h.joined])
  absent _ ha := .inl (by rwa [Absent, h.memberships])

/-- A statement that leaves all of it alone. -/
theorem Change.of_eq (hu : s'.db.users = s.db.users) (hm : s'.db.memberships = s.db.memberships)
    (hj : s'.history.joined = s.history.joined) : Change tenantId userId s s' :=
  Elsewhere.change ⟨fun u hmem => ⟨u, hu ▸ hmem, rfl⟩, hm, hj⟩

theorem Change.refl (s : AppState) : Change tenantId userId s s := .of_eq rfl rfl rfl

/-- A statement after which there are no other members than before. -/
theorem Change.of_fewer (hu : s'.db.users = s.db.users)
    (hm : ∀ m' ∈ s'.db.memberships, ∃ m ∈ s.db.memberships,
      (m.tenantId, m.userId) = (m'.tenantId, m'.userId))
    (hj : s'.history.joined = s.history.joined) : Change tenantId userId s s' := by
  have hsame : Change tenantId userId s { s with db.users := s'.db.users } := .of_eq hu rfl rfl
  refine ⟨hsame.known, le_of_eq (by rw [acceptances, acceptances, hj]), fun _ ha => .inl ?_⟩
  intro m' hm'
  obtain ⟨m, hmem, hk⟩ := hm m' hm'
  obtain ⟨ht, hid⟩ := Prod.mk.inj hk
  simpa only [isMembership, ht, hid] using ha m hmem

theorem accessContract_tolerant : Tolerant (accessContract tenantId userId) where
  stay _ _ _ s _ _ := .refl s
  bystander _ _ _ _ _ h := .of_eq h.users h.memberships (by rw [h.history])
  issue _ _ _ _ _ := .of_eq rfl rfl rfl

theorem accessContract_patient : Patient (accessContract tenantId userId) :=
  accessContract_tolerant.toPatient

theorem accessContract_sessions : TolerantOfSessions (accessContract tenantId userId) :=
  { accessContract_tolerant with
    sessions := fun _ _ _ _ _ _ _ h => .of_eq h.users h.memberships h.joined }

/-! ### Facts that last -/

/-- At a moment since the acceptances were `n`, the user has been no member: he is none now, or has
accepted again. -/
structure Out (tenantId userId : Uuid) (n : Nat) (s : AppState) : Prop where
  known : Known userId s
  since : n ≤ acceptances s tenantId userId
  gone : Absent tenantId userId s ∨ n < acceptances s tenantId userId

theorem known_lasting : (accessContract tenantId userId).Lasting (Known userId) :=
  fun _ _ _ _ _ _ hs hg => hg.known hs

theorem since_lasting :
    (accessContract tenantId userId).Lasting fun s => n ≤ acceptances s tenantId userId :=
  fun _ _ _ _ _ _ hs hg => le_trans hs hg.accepted

theorem out_lasting : (accessContract tenantId userId).Lasting (Out tenantId userId n) := by
  intro _ _ _ s s' _ hs hg
  refine ⟨hg.known hs.known, le_trans hs.since hg.accepted, ?_⟩
  rcases hs.gone with ha | hn
  · exact (hg.absent hs.known ha).imp_right fun h => lt_of_le_of_lt hs.since h
  · exact .inr (lt_of_lt_of_le hn hg.accepted)

/-- Where `F` holds, being let in as a user in a tenant means `G`: it is so for the members there
are, and for a user who is not there yet. -/
structure Means (K : Contract Event Env AppState) (F : AppState → Prop)
    (G : Uuid → Uuid → AppState → Prop) : Prop where
  lasting : K.Lasting F
  means_lasting : ∀ userId tenantId, K.Lasting (G userId tenantId)
  member : ∀ s, F s → ∀ m ∈ s.db.memberships, G m.userId m.tenantId s
  created : ∀ s userId tenantId, F s → ¬ Known userId s → G userId tenantId s

/-- Nothing is meant by it. -/
theorem means_nothing {K : Contract Event Env AppState} :
    Means K (fun _ => True) fun _ _ _ => True :=
  ⟨lasting_const, fun _ _ => lasting_const, fun _ _ _ _ => trivial, fun _ _ _ _ _ => trivial⟩

/-- The user and the tenant are others, or the user has accepted again. -/
def OtherOrAccepted (tenantId userId : Uuid) (n : Nat) (userId' tenantId' : Uuid) (s : AppState) :
    Prop :=
  (tenantId', userId') = (tenantId, userId) → n < acceptances s tenantId userId

theorem means_otherOrAccepted : Means (accessContract tenantId userId) (Out tenantId userId n)
    (OtherOrAccepted tenantId userId n) where
  lasting := out_lasting
  means_lasting _ _ := fun _ _ _ _ _ _ hs hg hk => lt_of_lt_of_le (hs hk) hg.accepted
  member s hs m hm hk := by
    rcases hs.gone with ha | hn
    · have hyes : isMembership tenantId userId m = true := by simpa [isMembership] using hk
      rw [ha m hm] at hyes
      cases hyes
    · exact hn
  created s _ _ hs hno hk := by
    obtain ⟨-, rfl⟩ := Prod.mk.inj hk
    exact absurd hs.known hno

/-! ### Statements -/

/-- A statement that inserts a membership, of a user who is not there yet or with an acceptance. -/
theorem Change.of_insert {m : MembershipRow} (hu : ∀ u ∈ s.db.users, u ∈ s'.db.users)
    (hm : ∀ m' ∈ s'.db.memberships, m' ∈ s.db.memberships ∨ m' = m)
    (hj : acceptances s tenantId userId ≤ acceptances s' tenantId userId)
    (hnew : Known userId s → isMembership tenantId userId m = true →
      acceptances s tenantId userId < acceptances s' tenantId userId) :
    Change tenantId userId s s' := by
  refine ⟨fun ⟨u, hmem, hid⟩ => ⟨u, hu u hmem, hid⟩, hj, fun hk ha => ?_⟩
  by_cases hyes : isMembership tenantId userId m = true
  · exact .inr (hnew hk hyes)
  · refine .inl fun m' hm' => ?_
    rcases hm m' hm' with hold | rfl
    · exact ha m' hold
    · exact Bool.eq_false_iff.mpr hyes

/-- A statement that is beside the point. -/
theorem atomic_safe {A : Type} {l : Event} {ready : AppState → Bool}
    {run : Env → AppState → Except AppError A × AppState}
    (h : ∀ e s, Change tenantId userId s (run e s).2) :
    (accessContract tenantId userId).Safe i (Prog.atomic l ready run) :=
  .atomic fun s e _ _ _ => h e s

theorem audit_safe {tenant actor subject : Option Uuid} {subjectType eventType : String}
    {payload : Value} : (accessContract tenantId userId).Safe i
      (recordEvent tenant actor subjectType subject eventType payload) :=
  recordEvent_safe accessContract_tolerant.lenient.discreet

section Statements

variable {F : AppState → Prop} {G : Uuid → Uuid → AppState → Prop}
  (hG : Means (accessContract tenantId userId) F G)
include hG

theorem getMembership_means {x y : Uuid} :
    (accessContract tenantId userId).Triple i F (getMembership x y)
      (onOk fun o s => ∀ m, o = some m → m.tenantId = y ∧ G x y s) := by
  refine sql_triple accessContract_patient (hG.lasting.stable i)
    (fun _ => stable_forall fun _ => stable_imp <|
      stable_const.and ((hG.means_lasting x y).stable i))
    fun s e _ hs _ _ => ⟨.refl s, fun m hm => ?_⟩
  obtain ⟨row, hrow, hjoin⟩ := Option.bind_eq_some_iff.mp hm
  obtain ⟨hmem, hk⟩ := Table.find?_eq_some.mp hrow
  obtain ⟨t, -, rfl⟩ := Option.map_eq_some_iff.mp hjoin
  obtain ⟨rfl, rfl⟩ := Prod.mk.inj hk
  exact ⟨rfl, hG.member s hs row hmem⟩

theorem getDefaultMembership_means {x : Uuid} :
    (accessContract tenantId userId).Triple i F (getDefaultMembership x)
      (onOk fun o s => ∀ m, o = some m → G x m.tenantId s) := by
  refine sql_triple accessContract_patient (hG.lasting.stable i)
    (fun o => stable_forall fun m => stable_imp ((hG.means_lasting x m.tenantId).stable i))
    fun s e _ hs _ _ => ⟨.refl s, fun m hm => ?_⟩
  have hm' := (List.mem_insertionSort _).mp (List.mem_of_mem_head? hm)
  obtain ⟨row, hrow, hjoin⟩ := List.mem_filterMap.mp hm'
  obtain ⟨hmem, hid⟩ := Table.mem_select.mp hrow
  obtain ⟨t, -, rfl⟩ := Option.map_eq_some_iff.mp hjoin
  exact of_decide_eq_true hid ▸ hG.member s hs row hmem

omit hG in
/-- What is so of whatever has been found. -/
theorem found_triple {A : Type} {o : Option A} {error : AppError} {Q : A → AppState → Prop}
    (hQ : ∀ a, (accessContract tenantId userId).Stable i (Q a)) :
    (accessContract tenantId userId).Triple i (fun s => ∀ a, o = some a → Q a s)
      (Prog.okOr o error) (onOk Q) := by
  refine (Triple.okOr (stable_forall fun a => stable_imp (hQ a))).post ?_
  rintro (x | a) s - h
  · trivial
  · exact h.2 a h.1

/-- The membership that a session is for. -/
theorem resolveMembership_means {x : Uuid} {o : Option Uuid} :
    (accessContract tenantId userId).Triple i F (resolveMembership x o)
      (onOk fun m s => G x m.tenantId s) := by
  have hQ : ∀ m : MembershipRecord, (accessContract tenantId userId).Stable i (G x m.tenantId) :=
    fun m => (hG.means_lasting x m.tenantId).stable i
  cases o with
  | none => exact Triple.seq (getDefaultMembership_means hG) fun _ => found_triple hQ
  | some y =>
      refine Triple.seq (getMembership_means hG) fun o => (found_triple hQ).pre fun s _ h m hm => ?_
      obtain ⟨rfl, hg⟩ := h m hm
      exact hg

theorem protectedMiddleware_means {bearer : Jwt} :
    (accessContract tenantId userId).Triple i F (protectedMiddleware bearer)
      (onOk fun user s => G user.userId user.tenantId s) := by
  refine Safe.carry_seq (decodeToken_safe accessContract_tolerant) hG.lasting fun claims => ?_
  refine Safe.carry_seq (redis_bystander accessContract_tolerant fun _ s => .refl s) hG.lasting
    fun denied => ?_
  refine Safe.carry_seq .ensure hG.lasting fun _ => ?_
  have hst := (hG.means_lasting claims.sub claims.tenantId).stable i
  refine Triple.seq (getMembership_means hG) fun o => ?_
  refine Triple.seq ((found_triple fun _ => hst).pre fun s _ h m hm => (h m hm).2) fun m => ?_
  exact Triple.done hst fun s _ hs => hs

/-- A user who registers is none of those there are. -/
theorem createUserWithTenant_means {email passwordHash tenantName : String} :
    (accessContract tenantId userId).Triple i F
      (createUserWithTenant email passwordHash tenantName)
      (onOk fun r s => G r.1.id r.2.tenantId s) := by
  have hK : Patient (accessContract tenantId userId) := accessContract_patient
  refine Safe.carry_seq (utcNow_safe hK) hG.lasting fun now => ?_
  refine Safe.carry_seq (newUuid_safe hK) hG.lasting fun x => ?_
  refine Safe.carry_seq (newUuid_safe hK) hG.lasting fun y => ?_
  refine sql_triple hK (hG.lasting.stable i) (fun r => (hG.means_lasting _ _).stable i)
    fun s e _ hs _ _ => ?_
  dsimp only
  split
  · exact ⟨.refl s, trivial⟩
  · split
    · rename_i users tenants memberships hu _ hm
      obtain ⟨hfresh, hmem⟩ := Table.insert_eq_some hu
      have hno : ¬ Known x s := by
        rintro ⟨u, hu, hid⟩
        exact hfresh u hu hid
      have hchange : Change tenantId userId s
          { s with db.users := users, db.tenants := tenants, db.memberships := memberships } := by
        refine .of_insert (fun u hu => (hmem u).mpr (.inl hu))
          (fun m' hm' => ((Table.insert_eq_some hm).2 m').mp hm') le_rfl fun hk hyes => ?_
        simp only [isMembership, Bool.and_eq_true, decide_eq_true_eq] at hyes
        exact absurd (hyes.2 ▸ hk) hno
      exact ⟨hchange, hG.means_lasting _ _ i .quiet e s _ trivial (hG.created s x y hs hno) hchange⟩
    · exact ⟨.refl s, trivial⟩

/-! ### Sessions -/

/-- A session for the user and the membership that it is meant for. -/
theorem issueNewSession_means {user : UserRecord} {membership : MembershipRecord} {origin : Nat} :
    (accessContract tenantId userId).Triple i (G user.id membership.tenantId)
      (issueNewSession app user membership origin)
      (onOk fun session s => G session.user.id session.membership.tenantId s) := by
  have hlast := hG.means_lasting user.id membership.tenantId
  refine ((accessContract_sessions.issueNewSession_triple.keep hlast).pre
    fun s _ h => ⟨trivial, h⟩).post ?_
  rintro (x | session) s - ⟨hsame, h⟩
  · trivial
  · obtain ⟨rfl, rfl⟩ : session.user = user ∧ session.membership = membership := hsame
    exact h

/-- A session after something that is beside the point. -/
theorem then_issue {A : Type} {p : Service A} {user : UserRecord} {membership : MembershipRecord}
    {origin : Nat} (hp : (accessContract tenantId userId).Safe i p) :
    (accessContract tenantId userId).Triple i (G user.id membership.tenantId)
      (p.bind fun _ => issueNewSession app user membership origin)
      (onOk fun session s => G session.user.id session.membership.tenantId s) :=
  Safe.carry_seq hp (hG.means_lasting _ _) fun _ => issueNewSession_means hG

theorem register_means {email password : String} {tenantName : Option String} :
    (accessContract tenantId userId).Triple i F (Http.register app email password tenantName)
      (onOk fun session s => G session.user.id session.membership.tenantId s) := by
  refine Safe.carry_seq lift_safe hG.lasting fun email => ?_
  refine Safe.carry_seq lift_safe hG.lasting fun _ => ?_
  refine Safe.carry_seq (hashPassword_safe accessContract_tolerant) hG.lasting fun hash => ?_
  refine Safe.carry_seq accessContract_sessions.credentialCheck hG.lasting fun origin => ?_
  refine Triple.seq (createUserWithTenant_means hG) fun r => ?_
  refine Safe.carry_seq accessContract_sessions.sendVerificationEmail (hG.means_lasting _ _)
    fun _ => ?_
  exact then_issue hG audit_safe

theorem login_means {email password : String} {o : Option Uuid} :
    (accessContract tenantId userId).Triple i F (Http.login app email password o)
      (onOk fun session s => G session.user.id session.membership.tenantId s) := by
  refine Safe.carry_seq lift_safe hG.lasting fun email => ?_
  refine Safe.carry_seq (select_safe accessContract_patient) hG.lasting fun found => ?_
  cases found with
  | none => exact Safe.carry_seq audit_safe hG.lasting fun _ => Triple.fail
  | some user =>
      dsimp only
      split
      · exact Safe.carry_seq audit_safe hG.lasting fun _ => Triple.fail
      · refine Safe.carry_seq accessContract_sessions.credentialCheck hG.lasting fun origin => ?_
        refine Safe.carry_seq .ensure hG.lasting fun _ => ?_
        refine Triple.seq (resolveMembership_means hG) fun membership => ?_
        exact then_issue hG audit_safe

omit hG in
theorem rotateRefreshToken_safe {previous next x y : Uuid} {expiresAt : Time} :
    (accessContract tenantId userId).Safe i (rotateRefreshToken previous next x y expiresAt) := by
  have hcommit : ∀ row e s, Change tenantId userId s (commitRotation previous row e s).2 := by
    intro row e s
    rw [commitRotation]
    split
    · exact .of_eq rfl rfl rfl
    · exact .of_eq rfl rfl rfl
  refine .bind (utcNow_safe accessContract_patient) fun now => ?_
  refine .bind (atomic_safe fun e s => .of_eq rfl rfl rfl) fun r => ?_
  refine .bind (atomic_safe fun e s => ?_) fun updated => .bind .ensure fun _ =>
    atomic_safe fun e s => ?_
  · dsimp only
    split
    · exact .refl s
    · split
      · exact .refl s
      · exact .of_eq rfl rfl rfl
  · split
    · exact hcommit _ e s
    · exact .of_eq rfl rfl rfl
    · exact hcommit _ e s

omit hG in
theorem issueTokenPair_safe {user : UserRecord} {membership : MembershipRecord} {id : Uuid}
    {origin : Nat} :
    (accessContract tenantId userId).Safe i (issueTokenPair app user membership id origin) :=
  .bind (utcNow_safe accessContract_patient) fun _ => .bind (newUuid_safe accessContract_patient)
    fun _ => .bind (atomic_safe fun _ _ => .of_eq rfl rfl rfl) fun _ => .done

theorem refresh_means {token : Jwt} {o : Option Uuid} :
    (accessContract tenantId userId).Triple i F (Fluxa.refresh app token o)
      (onOk fun session s => G session.user.id session.membership.tenantId s) := by
  refine Safe.carry_seq (decodeToken_safe accessContract_tolerant) hG.lasting fun claims => ?_
  refine Safe.carry_seq (select_safe accessContract_patient) hG.lasting fun found => ?_
  refine Safe.carry_seq .okOr hG.lasting fun recorded => ?_
  refine Safe.carry_seq (utcNow_safe accessContract_patient) hG.lasting fun now => ?_
  refine Safe.carry_seq .ensure hG.lasting fun _ => ?_
  refine Safe.carry_seq (getUserById_safe accessContract_tolerant) hG.lasting fun user => ?_
  refine Safe.carry_seq .ensure hG.lasting fun _ => ?_
  refine Triple.seq (resolveMembership_means hG) fun membership => ?_
  have hlast := hG.means_lasting user.id membership.tenantId
  refine Safe.carry_seq (newUuid_safe accessContract_patient) hlast fun next => ?_
  refine Triple.seq (refreshExpiry_keep accessContract_tolerant (hlast.stable i))
    fun expiresAt => ?_
  refine Safe.carry_seq rotateRefreshToken_safe hlast fun _ => ?_
  refine Safe.carry_seq issueTokenPair_safe hlast fun tokens => ?_
  refine Safe.carry_seq audit_safe hlast fun _ => ?_
  exact Triple.done (hlast.stable i) fun s _ hs => hs

theorem switchTenant_means {x y : Uuid} {origin : Nat} :
    (accessContract tenantId userId).Triple i F (Fluxa.switchTenant app x y origin)
      (onOk fun session s => G session.user.id session.membership.tenantId s) := by
  have hlast := hG.means_lasting x y
  refine Triple.bind (Q := onOk fun u s => u.id = x ∧ F s) ?_ (fun user => ?_)
    fun _ _ _ _ => trivial
  · refine (((getUserById_triple accessContract_tolerant).keep hG.lasting).pre
      fun s _ h => ⟨trivial, h⟩).post ?_
    rintro (e | u) s - h
    · trivial
    · exact h
  refine Triple.of_fact fun hid => ?_
  subst hid
  refine Triple.seq (getMembership_means hG) fun o => ?_
  refine Triple.seq (Q := fun m s => G user.id m.tenantId s) ?_ fun m => issueNewSession_means hG
  refine (found_triple fun m : MembershipRecord =>
    (hG.means_lasting user.id m.tenantId).stable i).pre fun s _ h m hm => ?_
  obtain ⟨rfl, hg⟩ := h m hm
  exact hg

/-! ### Sessions of a provider's identity -/

omit hG in
/-- An update of a user's columns. -/
theorem updateUser_triple {event : Event} {x : Uuid} {f : Env → UserRecord → UserRecord}
    {hf : ∀ e, Table.KeepsKey UserRecord.id (f e)} :
    (accessContract tenantId userId).Triple i (fun _ => True) (updateUser event x f hf)
      (onOk fun u _ => u.id = x) := by
  refine sql_triple accessContract_patient stable_const (fun _ => stable_const)
    fun s e _ _ _ _ => ?_
  cases hu : s.db.users.find? x with
  | none => exact ⟨.refl s, trivial⟩
  | some u =>
      refine ⟨Elsewhere.change ⟨fun v hv => ?_, rfl, rfl⟩, ?_⟩
      · by_cases hid : v.id = x
        · exact ⟨f e v, Table.mem_update_of_true hv (by simpa using hid) (hf e), (hf e).key_eq v⟩
        · exact ⟨v, Table.mem_update_of_false hv (by simpa using hid) (hf e), rfl⟩
      · exact ((hf e).key_eq u).trans (Table.find?_eq_some.mp hu).2

omit hG in
theorem linkOAuthAccount_safe {x : Uuid} {provider subject : String} :
    (accessContract tenantId userId).Safe i (linkOAuthAccount x provider subject) := by
  refine .bind (newUuid_safe accessContract_patient) fun id => ?_
  refine .bind (utcNow_safe accessContract_patient) fun now => ?_
  refine sql_safe accessContract_patient fun s e _ _ _ => ?_
  dsimp only
  split
  · exact .refl s
  · split
    · exact .of_eq rfl rfl rfl
    · exact .refl s

omit hG in
theorem noteReported_safe {provider email : String} {identity : OAuthIdentity} :
    (accessContract tenantId userId).Safe i (noteReported provider identity email) :=
  atomic_safe fun e s => .of_eq rfl rfl (by dsimp only; split <;> rfl)

theorem loginLinked_means {provider email : String} {identity : OAuthIdentity} {o : Option Uuid}
    {origin : Nat} {x : Uuid} :
    (accessContract tenantId userId).Triple i F
      (loginLinked app provider identity email o origin x)
      (onOk fun session s => G session.user.id session.membership.tenantId s) := by
  refine Safe.carry_seq (getUserById_safe accessContract_tolerant) hG.lasting fun user => ?_
  refine Safe.carry_seq (.ite (fun _ => updateUser_triple.safe) fun _ => .done) hG.lasting
    fun user => ?_
  refine Safe.carry_seq .ensure hG.lasting fun _ => ?_
  exact Triple.seq (resolveMembership_means hG) fun membership => then_issue hG audit_safe

theorem linkAndLogin_means {provider email : String} {identity : OAuthIdentity} {o : Option Uuid}
    {origin : Nat} {user : UserRecord} :
    (accessContract tenantId userId).Triple i F
      (linkAndLogin app provider identity email o origin user)
      (onOk fun session s => G session.user.id session.membership.tenantId s) := by
  refine Safe.carry_seq linkOAuthAccount_safe hG.lasting fun _ => ?_
  refine Safe.carry_seq updateUser_triple.safe hG.lasting fun user => ?_
  refine Triple.seq (resolveMembership_means hG) fun membership => ?_
  exact Safe.carry_seq audit_safe (hG.means_lasting _ _) fun _ => then_issue hG audit_safe

theorem provisionAndLogin_means {provider email : String} {identity : OAuthIdentity}
    {tenantName : Option String} {origin : Nat} :
    (accessContract tenantId userId).Triple i F
      (provisionAndLogin app provider identity email tenantName origin)
      (onOk fun session s => G session.user.id session.membership.tenantId s) := by
  refine Safe.carry_seq (generateRandom_safe accessContract_patient) hG.lasting fun password => ?_
  refine Safe.carry_seq (hashPassword_safe accessContract_tolerant) hG.lasting fun hash => ?_
  refine Triple.seq (createUserWithTenant_means hG) fun r => ?_
  have hlast := hG.means_lasting r.1.id r.2.tenantId
  refine Safe.carry_seq linkOAuthAccount_safe hlast fun _ => ?_
  -- The user who is returned has the identifier of the one created.
  refine Triple.seq (Q := fun user s => G user.id r.2.tenantId s) ?_ fun user => ?_
  · refine ((updateUser_triple.keep hlast).pre fun s _ h => ⟨trivial, h⟩).post ?_
    rintro (x | user) s - ⟨hid, h⟩
    · trivial
    · have hid : user.id = r.1.id := hid
      rw [onOk_ok, hid]
      exact h
  · exact Safe.carry_seq audit_safe (hG.means_lasting _ _) fun _ => then_issue hG audit_safe

theorem oauthLogin_means {provider code redirectUri : String} {o : Option Uuid}
    {tenantName : Option String} :
    (accessContract tenantId userId).Triple i F
      (Http.oauthLogin app provider code redirectUri o tenantName)
      (onOk fun session s => G session.user.id session.membership.tenantId s) := by
  refine Safe.carry_seq .ensure hG.lasting fun _ => Safe.carry_seq .ensure hG.lasting fun _ => ?_
  generalize toAsciiLowercase (trim provider) = provider
  refine Safe.carry_seq .ensure hG.lasting fun _ => Safe.carry_seq .ensure hG.lasting fun _ => ?_
  refine Safe.carry_seq (exchangeCode_safe accessContract_tolerant) hG.lasting fun _ => ?_
  refine Safe.carry_seq (fetchIdentity_safe accessContract_tolerant) hG.lasting fun identity => ?_
  refine Safe.carry_seq accessContract_sessions.credentialCheck hG.lasting fun origin => ?_
  refine Safe.carry_seq lift_safe hG.lasting fun email => ?_
  refine Safe.carry_seq noteReported_safe hG.lasting fun _ => ?_
  refine Safe.carry_seq (select_safe accessContract_patient) hG.lasting fun linked => ?_
  cases linked with
  | some x => exact loginLinked_means hG
  | none =>
      refine Safe.carry_seq .ensure hG.lasting fun _ => ?_
      refine Safe.carry_seq (select_safe accessContract_patient) hG.lasting fun found => ?_
      cases found with
      | some user => exact linkAndLogin_means hG
      | none => exact provisionAndLogin_means hG

end Statements

/-! ### Changes of memberships -/

/-- A write of another role or a removal leaves no other members than before. -/
theorem written_change {x y : Uuid} {role : Option MembershipRole} : Change tenantId userId s
    { s with db.memberships := written y x role s.db.memberships } := by
  refine .of_fewer rfl (fun m' hm' => ?_) rfl
  cases role with
  | none => exact ⟨m', (Table.mem_delete.mp hm').1, rfl⟩
  | some role =>
      simp only [written, Table.mem_update] at hm'
      obtain ⟨m, hm, rfl⟩ := hm'
      refine ⟨m, hm, ?_⟩
      split <;> rfl

theorem updateMemberRole_safe {x y actor : Uuid} {actorRole role : MembershipRole} :
    (accessContract tenantId userId).Safe i (Fluxa.updateMemberRole y actorRole actor x role) := by
  have hK : Patient (accessContract tenantId userId) := accessContract_patient
  rw [updateMemberRole_eq]
  refine changeOfMember_safe hK (updateMembershipRole_from hK stable_const
    (fun s _ _ _ _ => .refl s) fun _ _ _ _ _ _ => written_change) fun _ _ => ?_
  exact .bind .okOr fun _ => .bind audit_safe fun _ => .done

theorem revokeUserTenant_safe {x y : Uuid} :
    (accessContract tenantId userId).Safe i (revokeUserTenantRefreshTokens x y) :=
  .bind (utcNow_safe accessContract_patient) fun _ =>
    .bind (accessContract_sessions.revokeTokens fun _ s => .refl s) fun _ => .done

/-- A member who is removed is there, and then is no member. -/
theorem removeMember_out {actor : Uuid} {actorRole : MembershipRole} :
    (accessContract tenantId userId).Triple i (fun s => n ≤ acceptances s tenantId userId)
      (Fluxa.removeMember tenantId actorRole actor userId)
      (onOk fun _ => Out tenantId userId n) := by
  have hK : Patient (accessContract tenantId userId) := accessContract_patient
  have hF : (accessContract tenantId userId).Lasting fun s =>
      Known userId s ∧ n ≤ acceptances s tenantId userId := known_lasting.and since_lasting
  refine Triple.seq (Q := fun o s => ∀ a, o = some a →
    Known userId s ∧ n ≤ acceptances s tenantId userId) ?_ fun o => ?_
  · refine sql_triple hK (since_lasting.stable i)
      (fun o => stable_forall fun a => stable_imp (hF.stable i)) fun s e _ hs _ _ =>
        ⟨.refl s, fun a ha => ⟨?_, hs⟩⟩
    obtain ⟨row, hrow, hjoin⟩ := Option.bind_eq_some_iff.mp ha
    obtain ⟨u, hu, -⟩ := Option.map_eq_some_iff.mp hjoin
    obtain ⟨hmem, hid⟩ := Table.find?_eq_some.mp hu
    exact ⟨u, hmem, hid.trans (congrArg Prod.snd (Table.find?_eq_some.mp hrow).2)⟩
  refine Triple.seq (found_triple fun _ => hF.stable i) fun target => ?_
  refine Safe.carry_seq .ensure hF fun _ => ?_
  refine Triple.seq (ensureOwnerRetained_keep hK (hF.stable i)) fun _ => ?_
  refine Triple.seq (Q := fun _ => Out tenantId userId n) ?_ fun deleted => ?_
  · refine sql_triple hK (hF.stable i) (fun _ => out_lasting.stable i) fun s e _ hs _ _ => ?_
    have hchange : Change tenantId userId s
        { s with db.memberships := written tenantId userId none s.db.memberships } := written_change
    refine ⟨hchange, hchange.known hs.1, le_trans hs.2 hchange.accepted, .inl fun m hm => ?_⟩
    simpa using (Table.mem_delete.mp hm).2
  · refine Safe.carry_seq .ensure out_lasting fun _ => ?_
    exact Safe.carry_seq revokeUserTenant_safe out_lasting fun _ => audit_safe.carry out_lasting

theorem removeMember_safe {x y actor : Uuid} {actorRole : MembershipRole} :
    (accessContract tenantId userId).Safe i (Fluxa.removeMember y actorRole actor x) := by
  have hK : Patient (accessContract tenantId userId) := accessContract_patient
  rw [removeMember_eq]
  refine changeOfMember_safe hK (deleteMembership_from hK stable_const
    (fun s _ _ _ _ => .refl s) fun _ _ _ _ _ _ => written_change) fun _ _ => ?_
  exact .bind .ensure fun _ => .bind revokeUserTenant_safe fun _ => audit_safe

/-! ### Acceptances -/

/-- The commit of an acceptance notes the membership that it inserts. -/
theorem applyAcceptance_change {T : AcceptTx} (h : applyAcceptance T s = some s') :
    Change tenantId userId s s' := by
  obtain ⟨m, memberships, -, hins, -, rfl⟩ := applyAcceptance_eq_some h
  refine .of_insert (fun _ hu => hu) (fun m' hm' => ((Table.insert_eq_some hins).2 m').mp hm')
    ?_ fun _ hyes => ?_
  · simp only [acceptances, List.countP_cons]
    exact Nat.le_add_right _ _
  · simp [acceptances, hyes]

/-- Nothing is asked of an error. -/
def anyError (_ : AppError) (_ : AppState) : Prop := True

theorem inAcceptTx_safe {A : Type} {ready : AppState → Bool}
    {run : Env → AppState → Except AppError (A × AppState)}
    (h : ∀ e s a s', run e s = .ok (a, s') → Change tenantId userId s s') :
    (accessContract tenantId userId).Safe i (inAcceptTx ready run) := by
  have hend : ∀ (s : AppState) (pid : Nat), Change tenantId userId s (endAcceptTx pid s) :=
    fun _ _ => .of_eq rfl rfl rfl
  exact (inAcceptTx_or (F := anyError) (Q := fun _ _ => True) stable_const (fun _ => stable_const)
    (fun _ => stable_const) (fun s e _ _ _ => ⟨hend s e.pid, fun _ => trivial⟩)
    fun s e a s' _ _ _ _ hr => ⟨h e s a s' hr, trivial⟩).any

theorem acceptInvitation_safe {x y : Uuid} {token : String} :
    (accessContract tenantId userId).Safe i (Fluxa.acceptInvitation app y x token) := by
  have hend : ∀ (s : AppState) (pid : Nat), Change tenantId userId s (endAcceptTx pid s) :=
    fun _ _ => .of_eq rfl rfl rfl
  refine .bind (getUserById_safe accessContract_tolerant) fun user => .bind ?_ fun membership =>
    .bind audit_safe fun _ => .done
  refine .bind (atomic_safe fun _ _ => .of_eq rfl rfl rfl) fun now => .bind ?_ fun T => ?_
  · refine inAcceptTx_safe fun e s a s' hr => ?_
    dsimp only at hr
    split at hr
    · cases hr
    · cases hr
      exact .of_eq rfl rfl rfl
  refine .ite (fun _ => atomic_safe fun e s => hend s e.pid) fun _ => ?_
  refine .bind (inAcceptTx_safe fun e s a s' hr => ?_) fun r => .bind ?_ fun _ => .done
  · dsimp only at hr
    split at hr
    · cases hr
    · cases hr
    · cases hr
      exact .of_eq rfl rfl rfl
  · refine (commitAcceptance_or (F := anyError) stable_const (fun _ => stable_const)
      (fun s e _ _ _ => ⟨hend s e.pid, fun _ => trivial⟩)
      fun s e s' _ _ _ h => ⟨?_, fun _ _ => trivial⟩).any
    have hchange : Change tenantId userId s s' := applyAcceptance_change h
    exact ⟨hchange.known, hchange.accepted, hchange.absent⟩

/-! ### Calls -/

section Calls

variable {F : AppState → Prop} {G : Uuid → Uuid → AppState → Prop}
  (hG : Means (accessContract tenantId userId) F G)
include hG

/-- What is meant by each of the grants. -/
def AllMean (G : Uuid → Uuid → AppState → Prop) (granted : List (Uuid × Uuid)) (s : AppState) :
    Prop :=
  ∀ x ∈ granted, G x.1 x.2 s

theorem allMean_lasting {granted : List (Uuid × Uuid)} :
    (accessContract tenantId userId).Lasting (AllMean G granted) :=
  fun j l e s s' hi h hg x hx => hG.means_lasting x.1 x.2 j l e s s' hi (h x hx) hg

theorem ofSession_means {p : Service AuthSession}
    (h : (accessContract tenantId userId).Triple i F p
      (onOk fun session s => G session.user.id session.membership.tenantId s)) :
    (accessContract tenantId userId).Triple i F (p.bind fun session => return ofSession session)
      (onOk (AllMean G)) := by
  refine Triple.seq h fun session => Triple.done ((hG.means_lasting _ _).stable i) fun s _ hs => ?_
  simpa [AllMean, ofSession] using hs

/-- What grants nothing. -/
theorem forNothing_means {A : Type} {p : Service A}
    (h : (accessContract tenantId userId).Safe i p) :
    (accessContract tenantId userId).Triple i F (p.bind fun _ => return []) (onOk (AllMean G)) :=
  Safe.carry_seq h hG.lasting fun _ => Triple.done (hG.lasting.stable i) fun _ _ _ _ hx => by
    cases hx

theorem granting_means {before : List (Uuid × Uuid)} {p : Service (List (Uuid × Uuid))}
    (h : (accessContract tenantId userId).Triple i F p (onOk (AllMean G))) :
    (accessContract tenantId userId).Triple i (fun s => F s ∧ AllMean G before s)
      (granting before p) (onOk fun reply => AllMean G reply.granted) := by
  have hlast : (accessContract tenantId userId).Lasting (AllMean G before) := allMean_lasting hG
  refine Triple.seq (Triple.attempt (h.keep hlast)) fun r => ?_
  cases r with
  | error x => exact Triple.done (stable_const.and (hlast.stable i)) fun s _ hs => hs.2
  | ok granted =>
      refine Triple.done (((allMean_lasting hG).stable i).and (hlast.stable i))
        fun s _ hs x hx => ?_
      rcases List.mem_append.mp hx with hx | hx
      · exact hs.2 x hx
      · exact hs.1 x hx

theorem handler_means {user : AuthenticatedUser} (route : Route) :
    (accessContract tenantId userId).Triple i F (route.handler app user) (onOk (AllMean G)) := by
  cases route with
  | switchTenant y => exact ofSession_means hG (switchTenant_means hG)
  | acceptInvitation y token =>
      exact forNothing_means hG (.bind .ensure fun _ => acceptInvitation_safe)
  | updateMemberRole y x role =>
      exact forNothing_means hG (.bind lift_safe fun _ => .bind lift_safe fun _ =>
        updateMemberRole_safe)
  | removeMember y x => exact forNothing_means hG (.bind lift_safe fun _ => removeMember_safe)
  | other handler h =>
      exact forNothing_means hG ((h user).safe fun _ _ _ _ _ _ he => he.change)

theorem answerRequest_means {bearer : Jwt} {route : Route} :
    (accessContract tenantId userId).Triple i F (answerRequest app bearer route)
      (onOk fun reply => AllMean G reply.granted) := by
  refine Triple.seq (Triple.attempt ((protectedMiddleware_means hG).keep hG.lasting |>.pre
    fun s _ hs => ⟨hs, hs⟩)) fun r => ?_
  cases r with
  | error x =>
      refine Triple.done (stable_const.and (hG.lasting.stable i)) fun s _ _ x hx => ?_
      cases hx
  | ok user =>
      refine (granting_means hG (handler_means hG route)).pre fun s _ hs => ⟨hs.2, ?_⟩
      simpa [AllMean] using hs.1

/-- Whom a call grants something is meant to get it. -/
theorem call_means (k : AccessCall) :
    (accessContract tenantId userId).Triple i F ((accessSystem app).body k)
      (onOk fun reply => AllMean G reply.granted) := by
  have hnone {p : Service (List (Uuid × Uuid))}
      (h : (accessContract tenantId userId).Triple i F p (onOk (AllMean G))) :
      (accessContract tenantId userId).Triple i F (granting [] p)
        (onOk fun reply => AllMean G reply.granted) :=
    (granting_means hG h).pre fun s _ hs => ⟨hs, fun x hx => by cases hx⟩
  cases k with
  | register email password tenantName => exact hnone (ofSession_means hG (register_means hG))
  | login email password o => exact hnone (ofSession_means hG (login_means hG))
  | oauthLogin provider code redirectUri o tenantName =>
      exact hnone (ofSession_means hG (oauthLogin_means hG))
  | refresh token o => exact hnone (ofSession_means hG (refresh_means hG))
  | request bearer route => exact answerRequest_means hG
  | elsewhere p h => exact hnone (forNothing_means hG (h.safe fun _ _ _ _ _ _ he => he.change))

end Calls

theorem call_safe (k : AccessCall) :
    (accessContract tenantId userId).Safe i ((accessSystem app).body k) :=
  (call_means means_nothing k).safe

/-- A removal that has succeeded has found the user a member, and then removed him. -/
theorem removal_out {bearer : Jwt} :
    (accessContract tenantId userId).Triple i (fun s => n ≤ acceptances s tenantId userId)
      (answerRequest app bearer (.removeMember tenantId userId))
      (fun r s => ∀ granted, r = .ok ⟨granted, .ok ()⟩ → Out tenantId userId n s) := by
  have hmiddleware : (accessContract tenantId userId).Safe i (protectedMiddleware bearer) :=
    protectedMiddleware_safe accessContract_tolerant
  refine Triple.bind (hmiddleware.attempt.carry since_lasting) (fun r => ?_)
    fun x s _ _ granted hr => by cases hr
  cases r with
  | error x => exact Triple.done (since_lasting.stable i) fun s _ _ granted hr => by cases hr
  | ok user =>
      have hout : (accessContract tenantId userId).Lasting (Out tenantId userId n) := out_lasting
      have hhandler : (accessContract tenantId userId).Triple i
          (fun s => n ≤ acceptances s tenantId userId)
          ((Route.removeMember tenantId userId).handler app user)
          (onOk fun _ => Out tenantId userId n) := by
        refine Triple.seq (Safe.carry_seq lift_safe since_lasting fun _ => removeMember_out)
          fun _ => Triple.done (hout.stable i) fun _ _ hs => hs
      refine Triple.bind hhandler.attempt (fun r => ?_) fun x s _ _ granted hr => by cases hr
      cases r with
      | error x => exact Triple.done stable_const fun s _ _ granted hr => by cases hr
      | ok granted => exact Triple.done (hout.stable i) fun s _ hs _ _ => hs

abbrev AccessConfig := Config Event Env AppState AppError AccessCall AccessReply

end Access

open Access

/-- Take any run, and in it a removal of a member that has come in after configuration `b` and has
succeeded in configuration `c`.  As long as the user has accepted no invitation to the tenant since
`b`, the user is no member of it, and no call that has come in after `c` was let in as the user in
that tenant or got a session for it. -/
theorem removal_ends_access {app : App} {s : AppState} {b c d : AccessConfig}
    {ms ms₁ ms₂ : List (Move Env AccessCall)} (hb : (accessSystem app).exec (.start s) ms = some b)
    (hc : (accessSystem app).exec b ms₁ = some c) (hd : (accessSystem app).exec c ms₂ = some d)
    {i : Nat} {bearer : Jwt} {tenantId userId : Uuid} {granted : List (Uuid × Uuid)}
    (hlate : b.calls.length ≤ i)
    (hi : c.calls[i]? = some (.request bearer (.removeMember tenantId userId),
      .done (.ok ⟨granted, .ok ()⟩)))
    (hno : acceptances d.st tenantId userId = acceptances b.st tenantId userId) :
    Absent tenantId userId d.st ∧ ∀ j call reply, c.calls.length ≤ j →
      d.calls[j]? = some (call, .done (.ok reply)) → (userId, tenantId) ∉ reply.granted := by
  let K := accessContract tenantId userId
  let n := acceptances b.st tenantId userId
  have hadm : ∀ i l e s, (accessSystem app).adm i l e s = true → K.adm i l e s :=
    fun _ _ _ _ _ => trivial
  have hkeeps : ∀ {ms} {c : AccessConfig}, (accessSystem app).exec (.start s) ms = some c →
      Keeps K (fun _ _ _ _ => True) c :=
    fun h => sound_all (fun _ k => call_safe k) hadm trivial h
  have hsc : (accessSystem app).exec (.start s) (ms ++ ms₁) = some c := by
    rw [System.exec_append, hb]
    exact hc
  have hremoval : ∀ i k, K.Triple i (fun s => n ≤ acceptances s tenantId userId)
      ((accessSystem app).body k) fun r s => k = .request bearer (.removeMember tenantId userId) →
        ∀ granted, r = .ok ⟨granted, .ok ()⟩ → Out tenantId userId n s := by
    intro i k
    by_cases hk : k = .request bearer (.removeMember tenantId userId)
    · subst hk
      exact removal_out.post fun r s _ h _ => h
    · exact (call_safe k).conseq (fun _ _ _ => trivial) fun _ _ _ _ h => absurd h hk
  -- The removal leaves the user out, and so he stays.
  have hout : Out tenantId userId n c.st :=
    (hkeeps hb).later since_lasting hremoval hadm le_rfl hc hlate hi rfl granted rfl
  have hend : Out tenantId userId n d.st :=
    (hkeeps hsc).lasting out_lasting (fun _ k => call_safe k) hadm hout hd
  have hnot : ¬ n < acceptances d.st tenantId userId := by
    rw [hno]
    exact lt_irrefl n
  refine ⟨hend.gone.resolve_right hnot, fun j call reply hlater hj hmem => hnot ?_⟩
  exact (hkeeps hsc).later out_lasting (fun i k => call_means means_otherOrAccepted k) hadm hout hd
    hlater hj (userId, tenantId) hmem rfl

/-! ### A member who is removed -/

namespace Access

/-- An access token of the user for tenant 1. -/
def tokenOf (userId : Uuid) : Jwt :=
  { sub := userId, tenantId := 1, role := .member, tokenType := .access, jti := userId, iat := 0,
    exp := 900, origin := 0 }

/-- Tenant 1 with the owner 10 and the member 12, who are both signed in. -/
def signedIn : AppState :=
  { (default : AppState) with
    db := { (default : Database) with
      users := ⟨[⟨10, "a@x", "h", none, none, 0⟩, ⟨12, "u@x", "h", none, none, 0⟩], by decide⟩
      tenants := .single ⟨1, "T", 0⟩
      memberships := ⟨[⟨1, 10, .owner, 0⟩, ⟨1, 12, .member, 0⟩], by decide⟩ }
    history.minted := [tokenOf 10, tokenOf 12] }

/-- The next `n` statements of call `i`; what the last one generates is `uuid`. -/
def accessMoves (i n uuid : Nat) : List (Move Env AccessCall) :=
  List.replicate n (.exec i { (default : Env) with pid := i, uuid })

/-- The owner's request to remove the member. -/
def removal : List (Move Env AccessCall) :=
  .call (.request (tokenOf 10) (.removeMember 1 12)) :: (accessMoves 0 9 100 ++ accessMoves 0 1 101)

/-- Then the member's request, with a token that has not expired, for a session. -/
def requestAfter : List (Move Env AccessCall) :=
  .call (.request (tokenOf 12) (.switchTenant 1)) :: accessMoves 1 3 200

end Access

/-- What is said of removals, of that run: the request is turned down. -/
theorem removal_ends_access_signedIn :
    ∃ c d, (accessSystem default).exec (.start signedIn) removal = some c ∧
      (accessSystem default).exec c requestAfter = some d ∧
      ((d.result? 1).bind Except.toOption).map (fun r => (r.granted, r.result.isOk)) =
        some ([], false) ∧
      Absent 1 12 d.st ∧ ∀ j call reply, c.calls.length ≤ j →
        d.calls[j]? = some (call, .done (.ok reply)) → (12, 1) ∉ reply.granted := by
  have hremoved : ((accessSystem default).exec (.start signedIn) removal).map (·.calls[0]?) =
      some (some (.request (tokenOf 10) (.removeMember 1 12),
        .done (.ok ⟨[(10, 1)], .ok ()⟩))) := rfl
  obtain ⟨c, hc, hi⟩ := Option.map_eq_some_iff.mp hremoved
  have h : ((accessSystem default).exec (.start signedIn) (removal ++ requestAfter)).any fun d =>
      acceptances d.st 1 12 = 0 ∧
        ((d.result? 1).bind Except.toOption).map (fun r => (r.granted, r.result.isOk)) =
          some ([], false) := by decide
  rw [System.exec_append, hc] at h
  obtain ⟨d, hd, h⟩ := (Option.any_eq_true _ _).mp h
  obtain ⟨hno, hturned⟩ := of_decide_eq_true h
  have hb : (accessSystem default).exec (.start signedIn) [] = some (.start signedIn) := rfl
  exact ⟨c, d, hc, hd, hturned, removal_ends_access hb hc hd (Nat.zero_le 0) hi hno⟩

end Fluxa
