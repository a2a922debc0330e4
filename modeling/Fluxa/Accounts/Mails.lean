import Fluxa.Members.Authority
import Fluxa.Relational.Unique
import Fluxa.Services.Delivery
import Fluxa.Services.Mails
import Fluxa.Services.Quiet

/-!
# Accounts — the tokens in mails

Of a token only the hash is stored; the token itself is in a mail.  A token and its mail are written by two statements, and others may come between them or keep the second from happening.

* **`mails_redeem`**: in every run, each mail that hands out a token hands out one that was issued for whom it is addressed to, with the expiry it names; what the token redeems is that row and no other, for as long as the row is unused and has not expired.
-/

namespace Fluxa
open Interleave Relational Db Contract

/-- The notification that hands out a token of the kind. -/
def TokenKind.notification : TokenKind → NotificationKind
  | .emailVerification => .emailVerification
  | .passwordReset => .passwordReset

/-- The notification hands out a token. -/
def NotificationKind.handsOut : NotificationKind → Bool
  | .emailVerification | .passwordReset | .tenantInvitation => true
  | _ => false

namespace Mails

/-! ### The system -/

/-- What a notification says, and to whom. -/
def letter (n : NotificationRecord) : NewNotification :=
  ⟨n.tenantId, n.userId, n.kind, n.recipient, n.payload, n.dedupeKey⟩

/-- The two states agree on account tokens and invitations, and no notification that hands out a
token is new in the second. -/
structure Apart (s s' : AppState) : Prop where
  userTokens : s'.db.userTokens = s.db.userTokens
  invitations : s'.db.invitations = s.db.invitations
  notifications : ∀ n' ∈ s'.db.notifications, n'.kind.handsOut = true →
    ∃ n ∈ s.db.notifications, letter n = letter n'

/-- A call. -/
inductive MailCall where
  | register (email password : String) (tenantName : Option String)
  | verifyEmail (token : String)
  | resendVerification (email : String)
  | requestPasswordReset (email : String)
  | confirmPasswordReset (token newPassword : String)
  | changePassword (bearer : Jwt) (currentPassword newPassword : String)
  | changeEmail (bearer : Jwt) (currentPassword newEmail : String)
  /-- A request on invitations or members. -/
  | member (k : Authority.MemberRequest)
  | deliverPendingNotifications
  /-- Whatever else the service does, such as logins, sweeps and purges. -/
  | elsewhere (p : Service Unit) (h : Makes (fun _ _ s s' => Apart s s') p)

def MailCall.body (app : App) : MailCall → Service Unit
  | .register email password tenantName => do
    let _ ← Http.register app email password tenantName
    return ()
  | .verifyEmail token => Http.verifyEmail app token
  | .resendVerification email => Http.resendVerification app email
  | .requestPasswordReset email => Http.requestPasswordReset app email
  | .confirmPasswordReset token newPassword => Http.confirmPasswordReset app token newPassword
  | .changePassword bearer currentPassword newPassword =>
    Http.changePassword app bearer currentPassword newPassword
  | .changeEmail bearer currentPassword newEmail => do
    let _ ← Http.changeEmail app bearer currentPassword newEmail
    return ()
  | .member k => (Authority.authoritySystem app).body k
  | .deliverPendingNotifications => Fluxa.deliverPendingNotifications app
  | .elsewhere p _ => p

/-- Any number of calls, side by side. -/
def mailSystem (app : App) : System Event Env AppState AppError MailCall Unit :=
  ⟨MailCall.body app, admissible⟩

/-! ### Tokens and their mails -/

/-- The mail that hands out an account token. -/
def tokenMail (app : App) (address token : String) (expiresAt : Time) : TokenKind → MailMessage
  | .emailVerification =>
    ⟨address, "Verify your email address", "Use this token to verify your email address: " ++
      token ++ "\n" ++ "The token expires at " ++ app.lib.rfc3339 expiresAt ++ "."⟩
  | .passwordReset =>
    ⟨address, "Reset your password", "Use this token to reset your password: " ++ token ++ "\n" ++
      "The token expires at " ++ app.lib.rfc3339 expiresAt ++
      ". If you did not request this, ignore this message."⟩

/-- The mail that hands out an invitation. -/
def invitationMail (app : App) (email : String) (role : MembershipRole) (token : String)
    (expiresAt : Time) : MailMessage :=
  ⟨email, "You have been invited to a workspace",
    "You have been invited to join a workspace with the " ++ role.asStr ++ " role.\n" ++
      "Use this invitation token to accept: " ++ token ++ "\n" ++ "The invitation expires at " ++
      app.lib.rfc3339 expiresAt ++ "."⟩

/-- The notification hands out the account token whose hash the row `t` has, and which redeems `t` as
long as that is unused and has not expired. -/
structure HandsOut (app : App) (s : AppState) (n : NotificationRecord) (token : String)
    (t : UserTokenRecord) : Prop where
  row : t ∈ s.db.userTokens
  hash : t.tokenHash = app.lib.sha256Hex token
  kind : n.kind = t.kind.notification
  user : n.userId = some t.userId
  mail : renderNotification n = tokenMail app t.address token t.expiresAt t.kind
  redeems : ∀ kind now,
    (s.db.userTokens.select (isConsumable kind (app.lib.sha256Hex token) now)).head? =
      if t.kind = kind ∧ t.usedAt = none ∧ now < t.expiresAt then some t else none

/-- The notification hands out the token whose hash the invitation `v` has, and which accepts `v` in
its tenant as long as that is pending and has not expired. -/
structure Invites (app : App) (s : AppState) (n : NotificationRecord) (token : String)
    (v : InvitationRecord) : Prop where
  row : v ∈ s.db.invitations
  hash : v.tokenHash = app.lib.sha256Hex token
  kind : n.kind = .tenantInvitation
  tenant : n.tenantId = some v.tenantId
  mail : renderNotification n = invitationMail app v.email v.role token v.expiresAt
  redeems : ∀ tenantId now,
    (s.db.invitations.select (isAcceptable tenantId (app.lib.sha256Hex token) now)).head? =
      if v.tenantId = tenantId ∧ isPendingInvitation v ∧ now < v.expiresAt then some v else none

/-- What is said of an account token when it is issued. -/
def issued (t : UserTokenRecord) : Uuid × TokenKind × String × Time × String :=
  (t.userId, t.kind, t.tokenHash, t.expiresAt, t.address)

/-- What is said of an invitation when it is created. -/
def offered (v : InvitationRecord) : Uuid × String × MembershipRole × String × Time :=
  (v.tenantId, v.email, v.role, v.tokenHash, v.expiresAt)

/-- An account token of the kind was issued to the user. -/
def TokenIssued (s : AppState) (user : UserRecord) (kind : TokenKind) (tokenHash : String)
    (expiresAt : Time) : Prop :=
  ∃ id, s.db.userTokens.Owned issued id (user.id, kind, tokenHash, expiresAt, user.email)

/-- An invitation was created. -/
def Offered (s : AppState) (tenantId : Uuid) (email : String) (role : MembershipRole)
    (tokenHash : String) (expiresAt : Time) : Prop :=
  ∃ id, s.db.invitations.Owned offered id (tenantId, email, role, tokenHash, expiresAt)

/-- The letter hands out no token, or one that was issued before for whom it is addressed to. -/
def Backed (app : App) (s : AppState) (n : NewNotification) : Prop :=
  n.kind.handsOut = true →
    (∃ user kind token expiresAt,
      n = tokenNotification app user (TokenKind.notification kind) token expiresAt ∧
      TokenIssued s user kind (app.lib.sha256Hex token) expiresAt) ∨
    ∃ tenantId email role token expiresAt,
      n = invitationNotification app tenantId email role token expiresAt ∧
      Offered s tenantId email role (app.lib.sha256Hex token) expiresAt

/-- The hashes are unique, as the database has it, and every notification is backed. -/
structure MailInv (app : App) (s : AppState) : Prop where
  tokenHashes : s.db.userTokens.Unique UserTokenRecord.tokenHash
  invitationHashes : s.db.invitations.Unique InvitationRecord.tokenHash
  backed : ∀ n ∈ s.db.notifications, Backed app s (letter n)

/-- What a statement does. -/
structure Action (app : App) (s s' : AppState) : Prop where
  tokens : Table.KeepsOwners issued s.db.userTokens s'.db.userTokens
  invitations : Table.KeepsOwners offered s.db.invitations s'.db.invitations
  inv : MailInv app s'

section Actions

variable {app : App} {s s' : AppState} {n : NewNotification}

theorem Apart.refl (s : AppState) : Apart s s := ⟨rfl, rfl, fun n hn _ => ⟨n, hn, rfl⟩⟩

/-- A state with the same notifications. -/
theorem Apart.of_eq (htokens : s'.db.userTokens = s.db.userTokens)
    (hinvitations : s'.db.invitations = s.db.invitations)
    (hnotifications : s'.db.notifications = s.db.notifications) : Apart s s' :=
  ⟨htokens, hinvitations, fun n hn _ => ⟨n, hnotifications ▸ hn, rfl⟩⟩

theorem Backed.mono (h : Backed app s n)
    (htokens : Table.KeepsOwners issued s.db.userTokens s'.db.userTokens)
    (hinvitations : Table.KeepsOwners offered s.db.invitations s'.db.invitations) :
    Backed app s' n := by
  intro hn
  rcases h hn with ⟨user, kind, token, expiresAt, heq, id, hid⟩ |
    ⟨tenantId, email, role, token, expiresAt, heq, id, hid⟩
  · exact .inl ⟨user, kind, token, expiresAt, heq, id, htokens _ _ hid⟩
  · exact .inr ⟨tenantId, email, role, token, expiresAt, heq, id, hinvitations _ _ hid⟩

/-- Tokens and invitations are kept, their hashes stay unique, and the letters are old ones. -/
theorem Action.of_old (hi : MailInv app s)
    (htokens : Table.KeepsOwners issued s.db.userTokens s'.db.userTokens)
    (hinvitations : Table.KeepsOwners offered s.db.invitations s'.db.invitations)
    (htokenHashes : s'.db.userTokens.Unique UserTokenRecord.tokenHash)
    (hinvitationHashes : s'.db.invitations.Unique InvitationRecord.tokenHash)
    (hletters : ∀ n' ∈ s'.db.notifications, n'.kind.handsOut = true →
      ∃ n ∈ s.db.notifications, letter n = letter n') : Action app s s' where
  tokens := htokens
  invitations := hinvitations
  inv := by
    refine ⟨htokenHashes, hinvitationHashes, fun n' hn' hkind => ?_⟩
    obtain ⟨n, hn, hletter⟩ := hletters n' hn' hkind
    exact hletter ▸ (hi.backed n hn).mono htokens hinvitations <| hletter ▸ hkind

theorem Action.of_apart (hi : MailInv app s) (h : Apart s s') : Action app s s' := by
  have htokens : Table.KeepsOwners issued s.db.userTokens s'.db.userTokens :=
    h.userTokens ▸ .refl _
  have hinvitations : Table.KeepsOwners offered s.db.invitations s'.db.invitations :=
    h.invitations ▸ .refl _
  exact .of_old hi htokens hinvitations (h.userTokens ▸ hi.tokenHashes)
    (h.invitations ▸ hi.invitationHashes) h.notifications

end Actions

/-! ### The contract -/

/-- The contract: every statement is an `Action`. -/
def mailContract (app : App) : Contract Event Env AppState where
  inv := MailInv app
  guar _ _ _ := Action app
  adm _ _ _ _ := True
  guar_inv _ h := h.inv

variable {app : App} {i : Nat} {tenantId actorId : Uuid}

theorem mailContract_tolerant : TolerantOfKeys (mailContract app) where
  stay _ _ _ s hi _ := .of_apart hi (.refl s)
  bystander _ _ _ _ hi h :=
    .of_apart hi (.of_eq h.userTokens h.invitations h.notifications)
  issue _ _ _ hi _ := .of_apart hi (.of_eq rfl rfl rfl)
  keys _ _ _ _ hi h := .of_apart hi (.of_eq (by rw [h.db]) (by rw [h.db]) (by rw [h.db]))

/-- A statement that leaves tokens, invitations and notifications alone. -/
theorem sql_apart {A : Type} {event : Event} {ready : AppState → Bool}
    {run : Env → AppState → Except AppError A × AppState}
    (h : ∀ e s, Apart s (run e s).2) : (mailContract app).Safe i (sqlWhen event ready run) :=
  sqlWhen_safe mailContract_tolerant.toPatient fun s e hi _ _ _ => .of_apart hi (h e s)

theorem tokenIssued_lasting {user : UserRecord} {kind : TokenKind} {tokenHash : String}
    {expiresAt : Time} :
    (mailContract app).Lasting fun s => TokenIssued s user kind tokenHash expiresAt :=
  fun _ _ _ _ _ _ h hg => h.imp fun id hid => hg.tokens id _ hid

theorem offered_lasting {email tokenHash : String} {role : MembershipRole} {expiresAt : Time} :
    (mailContract app).Lasting fun s => Offered s tenantId email role tokenHash expiresAt :=
  fun _ _ _ _ _ _ h hg => h.imp fun id hid => hg.invitations id _ hid

theorem enqueueNotification_from {n : NewNotification} {maxAttempts : Nat} {F : AppState → Prop}
    (hF : (mailContract app).Lasting F) (h : ∀ s, F s → Backed app s n) :
    (mailContract app).Triple i F (enqueueNotification n maxAttempts) fun _ _ => True := by
  have hK : Patient (mailContract app) := mailContract_tolerant.toPatient
  refine enqueue_from hK ((newUuid_safe hK).carry hF) (fun _ => hF.stable i)
    fun s e id notifications hi hs _ hins => ?_
  refine ⟨.refl _, .refl _, hi.tokenHashes, hi.invitationHashes, fun n' hn' => ?_⟩
  rcases ((Table.insert_eq_some hins).2 n').mp hn' with hold | rfl
  · exact hi.backed n' hold
  · exact h s hs

/-! ### Account tokens -/

/-- A table whose tokens that satisfy `p` are used. -/
theorem used_keeps {t : Table UserTokenRecord UserTokenRecord.id} {p : UserTokenRecord → Bool}
    {now : Time} : Table.KeepsOwners issued t (t.update p fun t => { t with usedAt := some now }) :=
  Table.keepsOwners_update _ fun _ => rfl

theorem used_unique {t : Table UserTokenRecord UserTokenRecord.id} {p : UserTokenRecord → Bool}
    {now : Time} (h : t.Unique UserTokenRecord.tokenHash) :
    (t.update p fun t => { t with usedAt := some now }).Unique UserTokenRecord.tokenHash :=
  h.update fun _ => rfl

theorem createUserToken_triple {user : UserRecord} {kind : TokenKind} {tokenHash : String}
    {expiresAt : Time} :
    (mailContract app).Triple i (fun _ => True)
      (createUserToken user.id kind tokenHash expiresAt user.email)
      (onOk fun _ s => TokenIssued s user kind tokenHash expiresAt) := by
  have hK : Patient (mailContract app) := mailContract_tolerant.toPatient
  refine Triple.seq (select_safe hK).onOk_any fun pending => ?_
  refine Triple.seq (newUuid_safe hK).onOk_any fun id => ?_
  refine sql_triple hK stable_const (fun _ => tokenIssued_lasting.stable i)
    fun s e hi _ _ _ => ?_
  dsimp only
  split
  · exact ⟨.of_apart hi (.refl s), trivial⟩
  · rename_i hfree
    split
    · rename_i table hins
      have hnew : ∀ t ∈ s.db.userTokens, t.tokenHash ≠ tokenHash := fun t ht he =>
        hfree (Table.any_eq_true.mpr ⟨t, ht, decide_eq_true he⟩)
      refine ⟨?_, id, _, ((Table.insert_eq_some hins).2 _).mpr (.inr rfl), rfl, rfl⟩
      refine .of_old hi (fun k o hk => ?_) (.refl _) ?_ hi.invitationHashes
        fun n hn _ => ⟨n, hn, rfl⟩
      · exact Table.keepsOwners_insert hins k o (used_keeps k o hk)
      · refine (used_unique hi.tokenHashes).insert hins fun t ht => ?_
        obtain ⟨t₀, ht₀, rfl⟩ := Table.mem_update.mp ht
        split <;> exact hnew t₀ ht₀
    · exact ⟨.of_apart hi (.refl s), trivial⟩

theorem createAndEnqueueToken_keeps {user : UserRecord} {kind : TokenKind} {ttl : Nat} :
    (mailContract app).Safe i
      (createAndEnqueueToken app user kind kind.notification ttl) := by
  have hK : Patient (mailContract app) := mailContract_tolerant.toPatient
  refine .bind (generateRandom_safe hK) fun token => .bind (utcNow_safe hK) fun now => ?_
  refine Triple.bind createUserToken_triple (fun _ => ?_) fun _ _ _ _ => trivial
  refine Triple.bind (enqueueNotification_from tokenIssued_lasting fun s hs _ => ?_)
    (fun _ => Safe.done) fun _ _ _ _ => trivial
  exact .inl ⟨user, kind, token, _, rfl, hs⟩

theorem sendVerificationEmail_keeps {user : UserRecord} :
    (mailContract app).Safe i (sendVerificationEmail app user) := by
  have htoken : (mailContract app).Safe i (createAndEnqueueToken app user .emailVerification
      .emailVerification app.config.emailVerificationTtl) := createAndEnqueueToken_keeps
  exact .ite (fun _ => .done) fun _ => .bind (.attempt htoken) fun _ => .done

theorem requestPasswordReset_keeps {email : String} :
    (mailContract app).Safe i (Http.requestPasswordReset app email) := by
  refine .bind lift_safe fun email =>
    .bind (select_safe mailContract_tolerant.toPatient) fun o => ?_
  cases o with
  | none => exact .done
  | some user =>
      have htoken : (mailContract app).Safe i (createAndEnqueueToken app user .passwordReset
          .passwordReset app.config.passwordResetTtl) := createAndEnqueueToken_keeps
      exact .bind (.attempt htoken) fun _ => .done

theorem resendVerification_keeps {email : String} :
    (mailContract app).Safe i (Http.resendVerification app email) := by
  refine .bind lift_safe fun email =>
    .bind (select_safe mailContract_tolerant.toPatient) fun o => ?_
  cases o with
  | none => exact .done
  | some user => exact sendVerificationEmail_keeps

theorem consumeUserToken_keeps {kind : TokenKind} {tokenHash : String} :
    (mailContract app).Safe i (consumeUserToken kind tokenHash) := by
  refine sql_safe mailContract_tolerant.toPatient fun s e hi _ _ => ?_
  dsimp only
  split
  · exact .of_apart hi (.refl s)
  · exact .of_old hi used_keeps (.refl _) (used_unique hi.tokenHashes) hi.invitationHashes
      fun n hn _ => ⟨n, hn, rfl⟩

/-! ### Accounts -/

theorem updateUser_keeps {event : Event} {userId : Uuid} {f : Env → UserRecord → UserRecord}
    {hf : ∀ e, Table.KeepsKey UserRecord.id (f e)} :
    (mailContract app).Safe i (updateUser event userId f hf) := by
  refine sql_apart fun e s => ?_
  split
  · exact .refl s
  · exact .of_eq rfl rfl rfl

theorem updateUserEmail_keeps {userId : Uuid} {email : String} :
    (mailContract app).Safe i (updateUserEmail userId email) := by
  refine sql_apart fun e s => ?_
  split
  · exact .refl s
  · split
    · exact .refl s
    · exact .of_eq rfl rfl rfl

theorem revokeTokens_keeps {clause : Time → RefreshTokenRecord → Bool}
    {record : Env → AppState → History} {revokedAt : Time} :
    (mailContract app).Safe i (revokeTokens clause record revokedAt) :=
  .bind (.atomic fun _ _ hi _ _ => .of_apart hi (.of_eq rfl rfl rfl)) fun _ =>
    sql_apart fun _ _ => .of_eq rfl rfl rfl

theorem revokeAll_keeps {userId : Uuid} :
    (mailContract app).Safe i (revokeAllUserRefreshTokens userId) :=
  .bind (utcNow_safe mailContract_tolerant.toPatient) fun _ =>
    .bind revokeTokens_keeps fun _ => .done

theorem createUserWithTenant_keeps {email passwordHash tenantName : String} :
    (mailContract app).Safe i (createUserWithTenant email passwordHash tenantName) := by
  have hK : Patient (mailContract app) := mailContract_tolerant.toPatient
  refine .bind (utcNow_safe hK) fun now => .bind (newUuid_safe hK) fun userId =>
    .bind (newUuid_safe hK) fun tenantId => sql_apart fun e s => ?_
  split
  · exact .refl s
  · split
    · exact .of_eq rfl rfl rfl
    · exact .refl s

theorem issueNewSession_keeps {user : UserRecord} {membership : MembershipRecord} {origin : Nat} :
    (mailContract app).Safe i (issueNewSession app user membership origin) := by
  have hK : Tolerant (mailContract app) := mailContract_tolerant.toTolerant
  refine .bind (newUuid_safe hK) fun tokenId => ?_
  refine .bind (.bind (utcNow_safe hK) fun _ => .done) fun expiresAt => ?_
  refine .bind (.bind (utcNow_safe hK) fun now => sql_apart fun e s => ?_) fun _ => ?_
  · split
    · exact .of_eq rfl rfl rfl
    · exact .refl s
  · refine .bind (.bind (utcNow_safe hK) fun now => .bind (newUuid_safe hK) fun jti => ?_)
      fun tokens => .done
    refine .bind (.atomic fun s e hi _ _ => ?_) fun _ => .done
    exact .of_apart hi (.of_eq rfl rfl rfl)

theorem register_keeps {email password : String} {tenantName : Option String} :
    (mailContract app).Safe i (Http.register app email password tenantName) := by
  have hK : Tolerant (mailContract app) := mailContract_tolerant.toTolerant
  refine .bind lift_safe fun email => .bind lift_safe fun _ => ?_
  refine .bind (hashPassword_safe hK) fun passwordHash => .bind (.atomic fun s e hi _ _ => ?_)
    fun origin => .bind createUserWithTenant_keeps fun account => ?_
  · exact .of_apart hi (.of_eq rfl rfl rfl)
  · refine .bind sendVerificationEmail_keeps fun _ => ?_
    exact .bind (recordEvent_safe hK.lenient) fun _ => issueNewSession_keeps

theorem linkOAuthAccount_keeps {userId : Uuid} {provider subject : String} :
    (mailContract app).Safe i (linkOAuthAccount userId provider subject) := by
  have hK : Patient (mailContract app) := mailContract_tolerant.toPatient
  refine .bind (newUuid_safe hK) fun id => .bind (utcNow_safe hK) fun now =>
    sql_apart fun e s => ?_
  split
  · exact .refl s
  · split
    · exact .of_eq rfl rfl rfl
    · exact .refl s

theorem oauthLogin_keeps {provider code redirectUri : String} {tenant : Option Uuid}
    {tenantName : Option String} : (mailContract app).Safe i
      (Http.oauthLogin app provider code redirectUri tenant tenantName) := by
  have hK : Tolerant (mailContract app) := mailContract_tolerant.toTolerant
  have hnote : ∀ f, (mailContract app).Safe i (note f) := fun f =>
    .atomic fun s e hi _ _ => .of_apart hi (.of_eq rfl rfl rfl)
  have haudit : ∀ {tenant actor subject type event payload}, (mailContract app).Safe i
      (recordEvent tenant actor type subject event payload) := recordEvent_safe hK.lenient.discreet
  refine .bind .ensure fun _ => .bind .ensure fun _ => .bind .ensure fun _ =>
    .bind .ensure fun _ => .bind (exchangeCode_safe hK) fun _ =>
    .bind (fetchIdentity_safe hK) fun identity => .bind (.atomic fun s e hi _ _ =>
      .of_apart hi (.of_eq rfl rfl rfl)) fun origin => .bind lift_safe fun email =>
    .bind (hnote _) fun _ => .bind (select_safe hK) fun linked => ?_
  cases linked with
  | some userId =>
      refine .bind (getUserById_safe hK) fun user =>
        .bind (.ite (fun _ => updateUser_keeps) fun _ => .done) fun user => .bind .ensure fun _ => ?_
      exact .bind (resolveMembership_safe hK) fun _ => .bind haudit fun _ => issueNewSession_keeps
  | none =>
      refine .bind .ensure fun _ => .bind (select_safe hK) fun found => ?_
      cases found with
      | some user =>
          refine .bind linkOAuthAccount_keeps fun _ => .bind updateUser_keeps fun user => ?_
          refine .bind (resolveMembership_safe hK) fun membership => .bind haudit fun _ => ?_
          exact .bind haudit fun _ => issueNewSession_keeps
      | none =>
          refine .bind (generateRandom_safe hK) fun _ => .bind (hashPassword_safe hK) fun _ => ?_
          refine .bind createUserWithTenant_keeps fun account => .bind linkOAuthAccount_keeps fun _ => ?_
          refine .bind updateUser_keeps fun user => .bind haudit fun _ => .bind haudit fun _ => ?_
          exact issueNewSession_keeps

theorem verifyEmail_keeps {token : String} :
    (mailContract app).Safe i (Http.verifyEmail app token) := by
  refine .bind .ensure fun _ => .bind consumeUserToken_keeps fun record => ?_
  exact .bind updateUser_keeps fun user =>
    recordEvent_safe mailContract_tolerant.toTolerant.lenient.discreet

theorem confirmPasswordReset_keeps {token newPassword : String} :
    (mailContract app).Safe i (Http.confirmPasswordReset app token newPassword) := by
  have hK : Tolerant (mailContract app) := mailContract_tolerant.toTolerant
  refine .bind .ensure fun _ => .bind lift_safe fun _ => ?_
  refine .bind consumeUserToken_keeps fun record => .bind (hashPassword_safe hK) fun _ => ?_
  refine .bind updateUser_keeps fun user => .bind revokeAll_keeps fun _ => ?_
  exact recordEvent_safe hK.lenient.discreet

theorem changePassword_keeps {bearer : Jwt} {currentPassword newPassword : String} :
    (mailContract app).Safe i (Http.changePassword app bearer currentPassword newPassword) := by
  have hK : Tolerant (mailContract app) := mailContract_tolerant.toTolerant
  refine .bind (protectedMiddleware_safe hK) fun user => .bind lift_safe fun _ => ?_
  refine .bind (getUserById_safe hK) fun user => .bind lift_safe fun _ => ?_
  refine .bind (hashPassword_safe hK) fun _ => .bind updateUser_keeps fun _ => ?_
  exact .bind revokeAll_keeps fun _ => recordEvent_safe hK.lenient.discreet

theorem changeEmail_keeps {bearer : Jwt} {currentPassword newEmail : String} :
    (mailContract app).Safe i (Http.changeEmail app bearer currentPassword newEmail) := by
  have hK : Tolerant (mailContract app) := mailContract_tolerant.toTolerant
  refine .bind (protectedMiddleware_safe hK) fun user => .bind lift_safe fun email => ?_
  refine .bind (getUserById_safe hK) fun user => .bind lift_safe fun _ => ?_
  refine .bind updateUserEmail_keeps fun updated => .bind sendVerificationEmail_keeps fun _ => ?_
  exact .bind (recordEvent_safe hK.lenient) fun _ => .done

/-! ### Invitations and members -/

theorem authorise_keeps {userId : Uuid} :
    (mailContract app).Safe i (Authority.authorise tenantId userId) := by
  refine sql_apart fun e s => ?_
  split
  · exact .refl s
  · exact .of_eq rfl rfl rfl

/-- A table whose invitations that satisfy `p` are changed by `f`. -/
theorem changed_keeps {t : Table InvitationRecord InvitationRecord.id}
    {p : InvitationRecord → Bool} {f : InvitationRecord → InvitationRecord}
    (hf : Table.KeepsKey InvitationRecord.id f) (h : ∀ v, offered (f v) = offered v) :
    Table.KeepsOwners offered t (t.update p f hf) ∧
      (t.Unique InvitationRecord.tokenHash →
        (t.update p f hf).Unique InvitationRecord.tokenHash) :=
  ⟨Table.keepsOwners_update hf h, fun hu => hu.update fun v =>
    congrArg (fun o => o.2.2.2.1) (h v)⟩

theorem createInvitation_triple {email tokenHash : String} {role : MembershipRole}
    {expiresAt : Time} :
    (mailContract app).Triple i (fun _ => True)
      (Db.createInvitation tenantId email role tokenHash expiresAt actorId)
      (onOk fun _ s => Offered s tenantId email role tokenHash expiresAt) := by
  have hK : Patient (mailContract app) := mailContract_tolerant.toPatient
  refine Triple.seq (newUuid_safe hK).onOk_any fun id => ?_
  refine Triple.seq (utcNow_safe hK).onOk_any fun now => ?_
  refine sqlWhen_triple hK stable_const (fun _ => offered_lasting.stable i)
    fun s e hi _ _ _ _ => ?_
  split
  · exact ⟨.of_apart hi (.refl s), trivial⟩
  · split
    · exact ⟨.of_apart hi (.refl s), trivial⟩
    · rename_i hfree
      split
      · rename_i invitations hins
        refine ⟨?_, id, _, ((Table.insert_eq_some hins).2 _).mpr (.inr rfl), rfl, rfl⟩
        refine .of_old hi (.refl _) (Table.keepsOwners_insert hins) hi.tokenHashes ?_
          fun n hn _ => ⟨n, hn, rfl⟩
        refine hi.invitationHashes.insert hins fun v hv he => hfree ?_
        refine Table.any_eq_true.mpr ⟨v, hv, ?_⟩
        simp [conflictsWith, he]
      · exact ⟨.of_apart hi (.refl s), trivial⟩

/-- The notification of an invitation is enqueued only when the invitation is there. -/
theorem createInvitation_keeps {actorRole role : MembershipRole} {email : String} :
    (mailContract app).Safe i
      (Fluxa.createInvitation app tenantId actorRole actorId email role) := by
  have hK : Tolerant (mailContract app) := mailContract_tolerant.toTolerant
  refine .bind lift_safe fun _ => .bind ?_ fun _ => ?_
  · refine .bind (select_safe hK) fun found => ?_
    split
    · exact .done
    · exact .bind (select_safe hK) fun _ => .ensure
  · refine .bind (generateRandom_safe hK) fun token => .bind (utcNow_safe hK) fun now => ?_
    refine Triple.bind (Triple.attempt createInvitation_triple) (fun created => ?_)
      fun _ _ _ _ => trivial
    refine Triple.lift_bind fun invitation hcreated => ?_
    cases created with
    | error x => cases hcreated
    | ok invitation' =>
        refine Triple.bind (Triple.attempt (enqueueNotification_from offered_lasting
          fun s hs _ => ?_)).any (fun _ => ?_) fun _ _ _ _ => trivial
        · exact .inr ⟨tenantId, email, role, token, _, rfl, hs⟩
        · exact Safe.bind (recordEvent_safe hK.lenient) fun _ => .done

theorem revokeInvitation_keeps {invitationId : Uuid} : (mailContract app).Safe i
    (Fluxa.revokeInvitation tenantId actorId invitationId) := by
  have hK : Tolerant (mailContract app) := mailContract_tolerant.toTolerant
  refine .bind (sqlWhen_safe hK.toPatient fun s e hi _ _ _ => ?_) fun _ =>
    recordEvent_safe hK.lenient.discreet
  dsimp only
  split
  · obtain ⟨hkeeps, hunique⟩ := changed_keeps (t := s.db.invitations)
      (p := isRevocable tenantId invitationId)
      (f := fun v => { v with revokedAt := some e.now }) ⟨fun _ => rfl⟩ fun _ => rfl
    exact .of_old hi (.refl _) hkeeps hi.tokenHashes (hunique hi.invitationHashes)
      fun n hn _ => ⟨n, hn, rfl⟩
  · exact .of_apart hi (.refl s)

/-- The statements of the transaction of an acceptance. -/
theorem acceptTx_keeps {A : Type} {ready : AppState → Bool}
    {run : Env → AppState → Except AppError (A × AppState)}
    (h : ∀ e s a s', run e s = .ok (a, s') → Apart s s') :
    (mailContract app).Safe i (inAcceptTx ready run) := by
  refine .atomic fun s e hi _ _ => ?_
  split
  · rename_i hrun
    exact .of_apart hi (h e s _ _ hrun)
  · exact .of_apart hi (.of_eq rfl rfl rfl)
  · exact .of_apart hi (.of_eq rfl rfl rfl)

theorem commitAcceptance_keeps {T : AcceptTx} :
    (mailContract app).Safe i (commitAcceptance T) := by
  refine .atomic fun s e hi _ _ => ?_
  split
  · exact .of_apart hi (.of_eq rfl rfl rfl)
  · exact .of_apart hi (.of_eq rfl rfl rfl)
  · rename_i happly _
    obtain ⟨m, memberships, -, -, -, rfl⟩ := applyAcceptance_eq_some happly
    obtain ⟨hkeeps, hunique⟩ := changed_keeps (t := s.db.invitations)
      (p := fun v => v.id = T.invitation.id)
      (f := fun v => { v with acceptedAt := some T.acceptedAt }) ⟨fun _ => rfl⟩ fun _ => rfl
    exact .of_old hi (.refl _) hkeeps hi.tokenHashes (hunique hi.invitationHashes)
      fun n hn _ => ⟨n, hn, rfl⟩

theorem acceptInvitation_keeps {token : String} : (mailContract app).Safe i
    (Fluxa.acceptInvitation app tenantId actorId token) := by
  have hK : Tolerant (mailContract app) := mailContract_tolerant.toTolerant
  refine .bind (getUserById_safe hK) fun user => .bind ?_ fun membership =>
    .bind (recordEvent_safe hK.lenient) fun _ => .done
  refine .bind (.atomic fun s e hi _ _ => .of_apart hi (.of_eq rfl rfl rfl)) fun now => ?_
  refine .bind (acceptTx_keeps fun e s T s' h => ?_) fun T => .ite (fun _ => ?_) fun _ => ?_
  · split at h
    · cases h
    · cases h
      exact .of_eq rfl rfl rfl
  · exact .atomic fun s e hi _ _ => .of_apart hi (.of_eq rfl rfl rfl)
  · refine .bind (acceptTx_keeps fun e s r s' h => ?_) fun r =>
      .bind commitAcceptance_keeps fun _ => .done
    split at h
    · cases h
    · cases h
    · cases h
      exact .of_eq rfl rfl rfl

theorem updateMemberRole_keeps {actorRole role : MembershipRole} {memberId : Uuid} :
    (mailContract app).Safe i
      (Fluxa.updateMemberRole tenantId actorRole actorId memberId role) := by
  have hK : Tolerant (mailContract app) := mailContract_tolerant.toTolerant
  refine updateMemberRole_of hK.lenient (sql_apart fun e s => ?_)
  split
  · exact .refl s
  · exact .of_eq rfl rfl rfl

theorem removeMember_keeps {actorRole : MembershipRole} {memberId : Uuid} :
    (mailContract app).Safe i (Fluxa.removeMember tenantId actorRole actorId memberId) := by
  have hK : Tolerant (mailContract app) := mailContract_tolerant.toTolerant
  exact removeMember_of hK.lenient (sql_apart fun e s => .of_eq rfl rfl rfl)
    (.bind (utcNow_safe hK) fun now => .bind revokeTokens_keeps fun _ => .done)

/-! ### Deliveries -/

/-- A change of the columns that say how far a message has got. -/
theorem apart_of_change {s s' : AppState} {p : NotificationRecord → Bool}
    (f : OutboxColumns Uuid → OutboxColumns Uuid) (hf : OutboxRow.KeepsId f)
    (htokens : s'.db.userTokens = s.db.userTokens)
    (hinvitations : s'.db.invitations = s.db.invitations)
    (hrows : s'.db.notifications = OutboxRow.change s.db.notifications p f hf) : Apart s s' := by
  refine ⟨htokens, hinvitations, fun n hn _ => ?_⟩
  rw [hrows] at hn
  rcases OutboxRow.mem_change hn with ⟨n₀, h₀, -, rfl⟩ | ⟨h₀, -⟩
  · exact ⟨n₀, h₀, rfl⟩
  · exact ⟨n, h₀, rfl⟩

theorem deliverAll_keeps {ns : List NotificationRecord} :
    (mailContract app).Safe i
      (Delivery.deliverAll (notifierRound app) ns) := by
  have hK : Patient (mailContract app) := mailContract_tolerant.toPatient
  have send : ∀ n, (mailContract app).Safe i (sendNotification app n) := fun n =>
    .atomic fun s e hi _ _ => .of_apart hi <|
      apart_of_change (.sent (OutboxRow.columns n).claim) ⟨fun _ => rfl⟩ rfl rfl rfl
  have finish : ∀ (n : NotificationRecord) f hf,
      (mailContract app).Safe i (endMessage notificationOutbox n f hf) := fun n f hf =>
    sql_apart fun e s => apart_of_change (f e) (hf e) rfl rfl rfl
  induction ns with
  | nil => exact .done
  | cons n ns ih =>
      refine .bind (.attempt (send n)) fun result => ?_
      cases result with
      | ok => exact .bind (finish n _ _) fun _ => ih
      | error x => exact .bind (.bind (utcNow_safe hK) fun _ => finish n _ _) fun _ => ih

theorem deliver_keeps : (mailContract app).Safe i (deliverPendingNotifications app) :=
  .bind (sql_apart fun e s => apart_of_change
    (.claimed s.history.leases.length (e.now + claimLease)) ⟨fun _ => rfl⟩ rfl rfl rfl)
    fun _ => deliverAll_keeps

/-! ### Whole calls -/

theorem unit_keeps {A : Type} {p : Service A} (h : (mailContract app).Safe i p) :
    (mailContract app).Safe i (p.bind fun _ => pure ()) :=
  .bind h fun _ => .done

theorem memberRoute_keeps {user : AuthenticatedUser} (r : Authority.Route) :
    (mailContract app).Safe i (r.handler app user) := by
  cases r with
  | createInvitation tenantId key email role =>
      refine unit_keeps (.bind lift_safe fun _ => .bind lift_safe fun _ => .bind lift_safe fun _ =>
        .bind lift_safe fun _ => ?_)
      exact idempotent_from mailContract_tolerant.patient lasting_const
        fun _ => createInvitation_keeps
  | revokeInvitation tenantId invitationId => exact .bind lift_safe fun _ => revokeInvitation_keeps
  | acceptInvitation tenantId token =>
      exact unit_keeps (.bind .ensure fun _ => acceptInvitation_keeps)
  | updateMemberRole tenantId memberId role =>
      exact unit_keeps (.bind lift_safe fun _ => .bind lift_safe fun _ => updateMemberRole_keeps)
  | removeMember tenantId memberId => exact .bind lift_safe fun _ => removeMember_keeps

theorem call_keeps (k : MailCall) : (mailContract app).Safe i ((mailSystem app).body k) := by
  change (mailContract app).Safe i (k.body app)
  cases k with
  | register email password tenantName =>
      have hregister : (mailContract app).Safe i (Http.register app email password tenantName) :=
        register_keeps
      exact .bind hregister fun _ => .done
  | verifyEmail token => exact verifyEmail_keeps
  | resendVerification email => exact resendVerification_keeps
  | requestPasswordReset email => exact requestPasswordReset_keeps
  | confirmPasswordReset token newPassword => exact confirmPasswordReset_keeps
  | changePassword bearer currentPassword newPassword => exact changePassword_keeps
  | changeEmail bearer currentPassword newEmail => exact unit_keeps changeEmail_keeps
  | member k => exact .bind authorise_keeps fun _ => memberRoute_keeps k.route
  | deliverPendingNotifications => exact deliver_keeps
  | elsewhere p h => exact h.safe fun _ _ _ _ hi _ h => .of_apart hi h

/-! ### What the mails hand out -/

theorem isConsumable_hash {kind : TokenKind} {tokenHash : String} {now : Time}
    {t : UserTokenRecord} (h : isConsumable kind tokenHash now t = true) :
    t.tokenHash = tokenHash := by
  simp only [isConsumable, Bool.and_eq_true, decide_eq_true_eq] at h
  exact h.1.1.2

theorem isAcceptable_hash {tokenHash : String} {now : Time} {v : InvitationRecord}
    (h : isAcceptable tenantId tokenHash now v = true) : v.tokenHash = tokenHash := by
  simp only [isAcceptable, Bool.and_eq_true, decide_eq_true_eq] at h
  exact h.1.1.2

theorem MailInv.handsOut {s : AppState} (hi : MailInv app s) {n : NotificationRecord}
    {user : UserRecord} {kind : TokenKind} {token : String} {expiresAt : Time}
    (hn : letter n = tokenNotification app user kind.notification token expiresAt)
    (h : TokenIssued s user kind (app.lib.sha256Hex token) expiresAt) :
    ∃ t, HandsOut app s n token t := by
  obtain ⟨id, t, ht, -, hissued⟩ := h
  simp only [issued, Prod.mk.injEq] at hissued
  obtain ⟨huser, hkind, hhash, hexpires, haddress⟩ := hissued
  have hnkind : n.kind = kind.notification := congrArg NewNotification.kind hn
  have hnuser : n.userId = some user.id := congrArg NewNotification.userId hn
  have hto : n.recipient = user.email := congrArg NewNotification.recipient hn
  have hpayload : n.payload = .obj [("token", .str token),
      ("expires_at", .str (app.lib.rfc3339 expiresAt))] := congrArg NewNotification.payload hn
  refine ⟨t, ht, hhash, hkind ▸ hnkind, huser ▸ hnuser, ?_, fun kind' now => ?_⟩
  · rw [hkind, haddress, hexpires]
    cases kind <;>
      simp only [renderNotification, hnkind, TokenKind.notification, hto, hpayload] <;> rfl
  · rw [hi.tokenHashes.head?_select ht fun b hb => (isConsumable_hash hb).trans hhash.symm]
    simp [isConsumable, hhash, and_assoc]

theorem MailInv.invites {s : AppState} (hi : MailInv app s) {n : NotificationRecord}
    {email : String} {role : MembershipRole} {token : String} {expiresAt : Time}
    (hn : letter n = invitationNotification app tenantId email role token expiresAt)
    (h : Offered s tenantId email role (app.lib.sha256Hex token) expiresAt) :
    ∃ v, Invites app s n token v := by
  obtain ⟨id, v, hv, -, hoffered⟩ := h
  simp only [offered, Prod.mk.injEq] at hoffered
  obtain ⟨htenant, hemail, hrole, hhash, hexpires⟩ := hoffered
  have hkind : n.kind = .tenantInvitation := congrArg NewNotification.kind hn
  have hntenant : n.tenantId = some tenantId := congrArg NewNotification.tenantId hn
  have hto : n.recipient = email := congrArg NewNotification.recipient hn
  have hpayload : n.payload = .obj [("role", .str role.asStr), ("token", .str token),
      ("expires_at", .str (app.lib.rfc3339 expiresAt))] := congrArg NewNotification.payload hn
  refine ⟨v, hv, hhash, hkind, htenant ▸ hntenant, ?_, fun tenantId' now => ?_⟩
  · rw [hemail, hrole, hexpires]
    simp only [renderNotification, hkind, hto, hpayload]
    rfl
  · rw [hi.invitationHashes.head?_select hv fun b hb => (isAcceptable_hash hb).trans hhash.symm]
    simp [isAcceptable, hhash, and_assoc]

/-- Each notification for an account token is the mail of one, to the address of its row. -/
theorem MailInv.tokenMails {s : AppState} (hi : MailInv app s) :
    ∀ n ∈ s.db.notifications, ∀ kind : TokenKind, n.kind = kind.notification →
      ∃ token t, HandsOut app s n token t := by
  intro n hn kind hkind
  have hhands : n.kind.handsOut = true := by
    rw [hkind]
    cases kind <;> rfl
  rcases hi.backed n hn hhands with ⟨user, kind', token, expiresAt, hletter, hissued⟩ |
    ⟨tenantId, email, role, token, expiresAt, hletter, -⟩
  · exact ⟨token, hi.handsOut hletter hissued⟩
  · have hinvitation : n.kind = .tenantInvitation := congrArg NewNotification.kind hletter
    rw [hkind] at hinvitation
    cases kind <;> cases hinvitation

end Mails

open Mails

/-- In every run, each notification that hands out a token is the mail of one that was issued for
whom it is addressed to: what the token redeems is the row of which the mail names the recipient
and the expiry, while that is unused and has not expired, and nothing else at all. -/
theorem mails_redeem {app : App} {s : AppState} (hs : MailInv app s)
    {ms : List (Move Env MailCall)} {c : Config Event Env AppState AppError MailCall Unit}
    (h : (mailSystem app).exec (.start s) ms = some c) :
    ∀ n ∈ c.st.db.notifications, n.kind.handsOut = true →
      ∃ token, (∃ t, HandsOut app c.st n token t) ∨ ∃ v, Invites app c.st n token v := by
  have hkeeps : Keeps (mailContract app) (fun _ _ _ _ => True) c :=
    sound_all (fun _ k => call_keeps k) (fun _ _ _ _ _ => trivial) hs h
  intro n hn hkind
  rcases hkeeps.1.backed n hn hkind with ⟨user, kind, token, expiresAt, hletter, hissued⟩ |
    ⟨tenantId, email, role, token, expiresAt, hletter, hoffered⟩
  · exact ⟨token, .inl (hkeeps.1.handsOut hletter hissued)⟩
  · exact ⟨token, .inr (hkeeps.1.invites hletter hoffered)⟩

/-! ### An invitation and a reset -/

namespace Mails

/-- Tenant 1 with its owner. -/
def ownedTenant : AppState :=
  { (default : AppState) with
    db := { (default : Database) with
      users := .single ⟨10, "a@x", "h", none, none, 0⟩
      tenants := .single ⟨1, "T", 0⟩
      memberships := .single ⟨1, 10, .owner, 0⟩ } }

/-- The next `n` statements of call `i`; what they generate is numbered from `first`, or is the
text given. -/
def mailMoves (i n first : Nat) (random : String) : List (Move Env MailCall) :=
  (List.range n).map fun k => .exec i { (default : Env) with pid := i, uuid := first + k, random }

/-- The owner invites somebody and requests a reset of his own password. -/
def twoMails : List (Move Env MailCall) :=
  .call (.member ⟨10, 1, .createInvitation 1 (some "key") "b@x" "member"⟩) ::
    mailMoves 0 15 100 "invitation" ++
    .call (.requestPasswordReset "a@x") :: mailMoves 1 8 200 "reset"

theorem ownedTenant_inv : MailInv default ownedTenant :=
  ⟨Table.unique_empty, Table.unique_empty, fun _ hn => absurd hn Table.not_mem_empty⟩

end Mails

/-- What is said of runs, of one with two mails. -/
theorem mails_redeem_twoMails :
    ∃ c, (mailSystem default).exec (.start ownedTenant) twoMails = some c ∧
      c.st.db.notifications.rows.map (·.kind) = [.tenantInvitation, .passwordReset] ∧
      ∀ n ∈ c.st.db.notifications, n.kind.handsOut = true →
        ∃ token, (∃ t, HandsOut default c.st n token t) ∨ ∃ v, Invites default c.st n token v := by
  have h : ((mailSystem default).exec (.start ownedTenant) twoMails).any fun c =>
      c.st.db.notifications.rows.map (·.kind) = [.tenantInvitation, .passwordReset] := by
    decide +kernel
  obtain ⟨c, hc, hkinds⟩ := (Option.any_eq_true _ _).mp h
  exact ⟨c, hc, of_decide_eq_true hkinds, mails_redeem ownedTenant_inv hc⟩

end Fluxa
