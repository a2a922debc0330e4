import Fluxa.Http.Sessions
import Fluxa.Services.Jobs
import Fluxa.State.Quiet

/-!
# Services — quiet functions

The functions of accounts and sessions that only read and generate identifiers keep to every tolerant contract.
-/

namespace Fluxa
open Interleave Relational Db Contract

variable {K : Contract Event Env AppState} {i : Nat} {A : Type}

theorem lift_safe {r : Except AppError A} : K.Safe i (Prog.lift r : Service A) := .done

section Functions

variable (hK : Tolerant K)
include hK

/-- A statement that changes nothing. -/
theorem read_safe {run : Env → AppState → Except AppError A × AppState}
    (h : ∀ e s, (run e s).2 = s) : K.Safe i (Prog.atomic .quiet (fun _ => true) run) := by
  refine .atomic fun s e hi _ _ => ?_
  rw [h e s]
  exact hK.bystander i e s s hi (.refl s)

theorem hashPassword_safe {app : App} {password : String} :
    K.Safe i (hashPassword app password) := by
  refine .bind (generateRandom_safe hK) fun salt => ?_
  split
  · exact .done
  · exact .fail

theorem getUserById_triple {userId : Uuid} :
    K.Triple i (fun _ => True) (getUserById userId) (onOk fun u _ => u.id = userId) := by
  refine Triple.seq (Q := fun o _ => ∀ u, o = some u → u.id = userId) ?_ fun o => ?_
  · refine sql_triple hK stable_const (fun _ => stable_const) fun s e hi _ _ _ =>
      ⟨hK.bystander i e s s hi (.refl s), fun u hu => ?_⟩
    exact (Table.find?_eq_some.mp hu).2
  · refine (Triple.okOr stable_const).post fun r s _ h => ?_
    cases r with
    | ok u => exact h.2 u h.1
    | error x => trivial

theorem getUserById_safe {userId : Uuid} : K.Safe i (getUserById userId) :=
  (getUserById_triple hK).safe

theorem resolveMembership_safe {userId : Uuid} {tenantId : Option Uuid} :
    K.Safe i (resolveMembership userId tenantId) := by
  cases tenantId with
  | none => exact .bind (select_safe hK) fun _ => .okOr
  | some tenantId => exact .bind (select_safe hK) fun _ => .okOr

theorem fetchJson_safe {requestFailed rejected invalid : String} :
    K.Safe i (fetchJson requestFailed rejected invalid) := by
  refine read_safe hK fun e s => ?_
  split <;> rfl

theorem exchangeCode_safe : K.Safe i exchangeCode :=
  .bind (fetchJson_safe hK) fun _ => .bind .okOr fun _ => .done

theorem fetchIdentity_safe {provider : String} : K.Safe i (fetchIdentity provider) :=
  .bind (fetchJson_safe hK) fun _ => .ite (fun _ => lift_safe) fun _ => .ite
    (fun _ => .bind .okOr fun _ => .bind (fetchJson_safe hK) fun _ => .bind .okOr fun _ => .done)
    fun _ => .fail

theorem refreshExpiry_keep {app : App} {P : AppState → Prop} (hP : K.Stable i P) :
    K.Triple i P (refreshExpiry app) (onOk fun _ => P) :=
  Triple.seq (utcNow_keep hK hP) fun _ => .done hP fun _ _ h => h

theorem decodeToken_safe {token : Jwt} {expectedType : TokenType} :
    K.Safe i (decodeToken token expectedType) := by
  refine read_safe hK fun e s => ?_
  split
  · split <;> rfl
  · rfl

theorem protectedMiddleware_safe {token : Jwt} : K.Safe i (protectedMiddleware token) :=
  .bind (decodeToken_safe hK) fun _ => .bind (redis_bystander hK fun _ s => .refl s) fun _ =>
    .bind .ensure fun _ => .bind (select_safe hK) fun _ => .bind .okOr fun _ => .done

end Functions

/-! ### Exports -/

theorem exportLoop_safe (hK : Patient K) {app : App} {tenantId : Uuid} {filters : TaskFilters}
    {rounds : Nat} {cursor : Option Cursor} {tasks : List TaskRecord} :
    K.Safe i (Jobs.exportLoop app tenantId filters rounds cursor tasks) := by
  induction rounds generalizing cursor tasks with
  | zero => exact Triple.blocked
  | succ rounds ih =>
      exact .bind (select_safe hK) fun chunk => .ite (fun _ => ih) fun _ => .done

theorem processExportJob_safe (hK : Discreet K) {app : App} {rounds : Nat}
    {jobId tenantId requestedBy : Uuid} {filters : TaskFilters} {format : ExportFormat} :
    K.Safe i (Jobs.processExportJob app rounds jobId tenantId requestedBy filters format) :=
  .bind (exportLoop_safe hK) fun _ => .bind (storagePut_safe hK) fun _ =>
    .bind (utcNow_safe hK) fun _ => .done

/-! ### Sessions and mails -/

/-- The two states agree on accounts: users, tenants, memberships, invitations and provider
accounts, the evidence for addresses, and what has been accepted. -/
structure SameAccounts (s s' : AppState) : Prop where
  users : s'.db.users = s.db.users
  tenants : s'.db.tenants = s.db.tenants
  memberships : s'.db.memberships = s.db.memberships
  invitations : s'.db.invitations = s.db.invitations
  oauthAccounts : s'.db.oauthAccounts = s.db.oauthAccounts
  consumed : s'.history.consumed = s.history.consumed
  reported : s'.history.reported = s.history.reported
  joined : s'.history.joined = s.history.joined

theorem SameAccounts.refl (s : AppState) : SameAccounts s s := by
  constructor <;> rfl

/-- The statement issues something, or none of the conditions on runs speak of it. -/
def issues : Event → Bool
  | .quiet | .issueToken _ _ | .issueUserToken _ _ _ _ _ _ => true
  | _ => false

/-- The contract allows whatever statements do to sessions, account tokens and mails. -/
structure TolerantOfSessions (K : Contract Event Env AppState) : Prop extends Tolerant K where
  sessions : ∀ i l e s s', K.inv s → issues l = true → SameAccounts s s' → K.guar i l e s s'

section Sessions

variable (hK : TolerantOfSessions K)
include hK

theorem TolerantOfSessions.sql {event : Event} {run : Env → AppState → Except AppError A × AppState}
    (hl : issues event = true) (h : ∀ e s, SameAccounts s (run e s).2) :
    K.Safe i (sql event run) :=
  sql_safe hK.toPatient fun s e hi _ _ => hK.sessions i event e s _ hi hl (h e s)

theorem TolerantOfSessions.credentialCheck : K.Safe i credentialCheck :=
  .atomic fun s e hi _ _ => hK.sessions i _ e s _ hi rfl (by constructor <;> rfl)

theorem TolerantOfSessions.createRefreshToken {tokenId userId tenantId : Uuid} {expiresAt : Time}
    {origin : Nat} : K.Safe i (createRefreshToken tokenId userId tenantId expiresAt origin) := by
  refine .bind (utcNow_safe hK.toPatient) fun now => hK.sql rfl fun e s => ?_
  split <;> constructor <;> rfl

/-- A session is issued for the user and the membership given. -/
theorem TolerantOfSessions.issueNewSession_triple {app : App} {user : UserRecord}
    {membership : MembershipRecord} {origin : Nat} :
    K.Triple i (fun _ => True) (issueNewSession app user membership origin)
      (onOk fun session _ => session.user = user ∧ session.membership = membership) := by
  refine Triple.seq (newUuid_safe hK.toPatient).onOk_any fun id => ?_
  refine Triple.seq (refreshExpiry_keep hK.toTolerant stable_const) fun expiresAt => ?_
  refine Triple.seq hK.createRefreshToken.onOk_any fun _ => ?_
  refine Triple.seq (Q := fun _ _ => True) ?_ fun tokens => ?_
  · refine Triple.seq (utcNow_safe hK.toPatient).onOk_any fun now => ?_
    refine Triple.seq (newUuid_safe hK.toPatient).onOk_any fun jti => ?_
    refine Triple.seq (Q := fun _ _ => True) (Triple.onOk_any (Safe.atomic fun s e hi _ _ => ?_))
      fun _ => Triple.done stable_const fun _ _ _ => trivial
    exact hK.sessions i _ e s _ hi rfl (by constructor <;> rfl)
  · exact Triple.done stable_const fun _ _ _ => ⟨rfl, rfl⟩

theorem TolerantOfSessions.issueNewSession {app : App} {user : UserRecord}
    {membership : MembershipRecord} {origin : Nat} :
    K.Safe i (issueNewSession app user membership origin) :=
  hK.issueNewSession_triple.safe

theorem TolerantOfSessions.createUserToken {userId : Uuid} {kind : TokenKind} {tokenHash address : String}
    {expiresAt : Time} :
    K.Safe i (createUserToken userId kind tokenHash expiresAt address) := by
  refine .bind (select_safe hK.toPatient) fun pending => ?_
  refine .bind (newUuid_safe hK.toPatient) fun id => hK.sql rfl fun e s => ?_
  dsimp only
  split
  · exact .refl s
  · split <;> constructor <;> rfl

theorem TolerantOfSessions.enqueueNotification {n : NewNotification} {maxAttempts : Nat} :
    K.Safe i (enqueueNotification n maxAttempts) :=
  enqueue_safe hK.toPatient fun s e _ _ hi _ _ =>
    hK.sessions i _ e s _ hi rfl (by constructor <;> rfl)

theorem TolerantOfSessions.createAndEnqueueToken {app : App} {user : UserRecord} {tokenKind : TokenKind}
    {notificationKind : NotificationKind} {ttl : Nat} :
    K.Safe i (createAndEnqueueToken app user tokenKind notificationKind ttl) :=
  .bind (generateRandom_safe hK.toPatient) fun _ => .bind (utcNow_safe hK.toPatient) fun _ =>
    .bind hK.createUserToken fun _ => .bind hK.enqueueNotification fun _ => .done

theorem TolerantOfSessions.sendVerificationEmail {app : App} {user : UserRecord} :
    K.Safe i (sendVerificationEmail app user) :=
  .ite (fun _ => .done) fun _ => .bind (.attempt hK.createAndEnqueueToken) fun _ => .done

theorem TolerantOfSessions.revokeTokens {clause : Time → RefreshTokenRecord → Bool}
    {record : Env → AppState → History} {revokedAt : Time}
    (h : ∀ e s, SameAccounts s { s with history := record e s }) :
    K.Safe i (revokeTokens clause record revokedAt) :=
  .bind (.atomic fun s e hi _ _ => hK.sessions i _ e s _ hi rfl (h e s)) fun _ =>
    sqlWhen_safe hK.toPatient fun s e hi _ _ _ =>
      hK.sessions i _ e s _ hi rfl (by constructor <;> rfl)

end Sessions

end Fluxa
