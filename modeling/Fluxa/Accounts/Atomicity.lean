import Fluxa.Services.Account
import Fluxa.State.Plays

/-!
# Accounts — failures in a change of credentials

`confirm_password_reset` and `change_password` consume the token, set the password and revoke the refresh tokens in statements of their own, each on the pool.  A failure between two of them leaves the ones before it in force, and the caller gets an error.

**When a change is atomic** (`credential_change_atomic`).  A change of credentials is all or nothing exactly if no statement fails from the first that takes effect on to the revocation.  What comes after the revocation is the audit event, whose failure is not an error.
-/

namespace Fluxa.Accounts
open Interleave Relational Db Plays

/-! ### What is asked -/

/-- The users have the same password hashes. -/
def SamePasswords (s s' : AppState) : Prop :=
  ∀ u ∈ s.db.users, ∀ u' ∈ s'.db.users, u'.id = u.id → u'.passwordHash = u.passwordHash

/-- The reset token can be used whenever it could before. -/
def StillUsable (tokenHash : String) (s s' : AppState) : Prop :=
  ∀ now, ∀ t ∈ s.db.userTokens, isConsumable .passwordReset tokenHash now t = true →
    t ∈ s'.db.userTokens

/-- Whoever has another password has no refresh token that is not revoked. -/
def OldTokensRevoked (s s' : AppState) : Prop :=
  ∀ u ∈ s.db.users, ∀ u' ∈ s'.db.users, u'.id = u.id → u'.passwordHash ≠ u.passwordHash →
    ∀ t ∈ s'.db.refreshTokens, t.userId = u.id → t.revokedAt ≠ none

/-- A change of credentials that is all or nothing.  `presented` is the hash of the reset token, where
one is presented. -/
structure AtomicChange (presented : Option String) (r : Except AppError Unit) (s s' : AppState) :
    Prop where
  error : ∀ x, r = .error x → SamePasswords s s' ∧ (∀ tokenHash ∈ presented,
    StillUsable tokenHash s s') ∧ s'.db.refreshTokens = s.db.refreshTokens
  revoked : OldTokensRevoked s s'

/-- What becomes of statement `n` of a call. -/
def faultAt (es : List Env) (n : Nat) : Fault := (es[n]?.getD default).fault

/-! ### The statements -/

section Statements

variable {app : App} {es : List Env} {s s' : AppState} {userId : Uuid} {passwordHash : String}

/-- A statement on the database by its fault: it is executed, it fails, or its result is lost. -/
theorem sql_cases {A : Type} {r : Except AppError A} {event : Event} {ready : AppState → Bool}
    {run : Env → AppState → Except AppError A × AppState}
    (h : play (sqlWhen event ready run) es s = some (r, s')) :
    ∃ e, es = [e] ∧ ((e.fault = .none ∧ run e s = (r, s')) ∨
      (e.fault = .failed ∧ (∃ x, r = .error x) ∧ s' = s) ∨
      (e.fault = .lost ∧ (∃ x, r = .error x) ∧ s' = (run e s).2)) := by
  obtain ⟨e, rfl, -, hrun⟩ := play_atomic h
  refine ⟨e, rfl, ?_⟩
  cases hf : e.fault with
  | none =>
      rw [hf] at hrun
      exact .inl ⟨rfl, hrun⟩
  | failed =>
      rw [hf] at hrun
      obtain ⟨rfl, rfl⟩ := Prod.mk.inj hrun
      exact .inr (.inl ⟨rfl, ⟨_, rfl⟩, rfl⟩)
  | lost =>
      rw [hf] at hrun
      obtain ⟨rfl, rfl⟩ := Prod.mk.inj hrun
      exact .inr (.inr ⟨rfl, ⟨_, rfl⟩, rfl⟩)

/-- The clause of the revocation of all tokens of the user. -/
def isUnrevoked (userId : Uuid) (t : RefreshTokenRecord) : Bool :=
  t.userId = userId && t.revokedAt.isNone

/-- The rows that a revocation of all tokens of the user finds are revoked by it. -/
theorem revoked_of_update {ids : List Uuid} {revokedAt : Time}
    (hids : ∀ t ∈ s.db.refreshTokens, isUnrevoked userId t = true → t.id ∈ ids) :
    ∀ t ∈ s.db.refreshTokens.update (fun t => ids.contains t.id && isUnrevoked userId t)
      (coalesceRevoked revokedAt), t.userId = userId → t.revokedAt ≠ none := by
  intro t ht huser
  obtain ⟨t₀, ht₀, rfl⟩ := Table.mem_update.mp ht
  by_cases hp : (ids.contains t₀.id && isUnrevoked userId t₀) = true
  · rw [if_pos hp]
    exact Option.some_ne_none _
  · rw [if_neg hp] at huser ⊢
    intro hnone
    have hun : isUnrevoked userId t₀ = true := by simp [isUnrevoked, huser, hnone]
    rw [List.contains_iff_mem.mpr (hids t₀ ht₀ hun), hun] at hp
    exact hp rfl

/-- The revocation takes three inputs, the last of which is that of the `UPDATE`. -/
theorem play_revokeAll {r : Except AppError Unit}
    (h : play (revokeAllUserRefreshTokens userId) es s = some (r, s')) :
    s'.db.users = s.db.users ∧ s'.db.userTokens = s.db.userTokens ∧
    ∃ e₁ e₂ e₃, es = [e₁, e₂, e₃] ∧
      ((e₃.fault = .none ∧ r = .ok () ∧
        ∀ t ∈ s'.db.refreshTokens, t.userId = userId → t.revokedAt ≠ none) ∨
      (e₃.fault ≠ .none ∧ ∃ x, r = .error x)) := by
  rcases play_bind_cases h with ⟨x, -, hx⟩ | ⟨now, es₁, es₂, s₁, rfl, h₁, h₂⟩
  · obtain ⟨-, _, -, hx⟩ := play_utcNow hx
    cases hx
  obtain ⟨rfl, e₁, rfl, -⟩ := play_utcNow h₁
  have hrevoke : ∀ {r₀ : Except AppError Nat} {es : List Env} {s s'' : AppState},
      play (revokeTokens (fun _ t => t.userId = userId && t.revokedAt.isNone)
        (fun e s => { s.history with
          terminating := Function.update s.history.terminating e.pid
            (some (userId, s.db.refreshTokens.rows.map (·.id))) }) now) es s = some (r₀, s'') →
      s''.db.users = s.db.users ∧ s''.db.userTokens = s.db.userTokens ∧
      ∃ e₂ e₃, es = [e₂, e₃] ∧
        ((e₃.fault = .none ∧ (∃ n, r₀ = .ok n) ∧
          ∀ t ∈ s''.db.refreshTokens, t.userId = userId → t.revokedAt ≠ none) ∨
        (e₃.fault ≠ .none ∧ ∃ x, r₀ = .error x)) := by
    intro r₀ es s s'' h
    rcases play_bind_cases h with ⟨x, -, hx⟩ | ⟨⟨_, ids⟩, es₁, es₂, s₂, rfl, h₁, h₂⟩
    · obtain ⟨_, -, -, hx⟩ := play_atomic hx
      cases hx
    obtain ⟨e₂, rfl, -, hsnapshot⟩ := play_atomic h₁
    obtain ⟨hfound, rfl⟩ := Prod.mk.inj hsnapshot
    obtain ⟨rfl, rfl⟩ := Prod.mk.inj (Except.ok.inj hfound)
    obtain ⟨e₃, rfl, ⟨hf, hrun⟩ | ⟨hf, hr, rfl⟩ | ⟨hf, hr, rfl⟩⟩ := sql_cases h₂
    · obtain ⟨rfl, rfl⟩ := Prod.mk.inj hrun
      refine ⟨rfl, rfl, e₂, e₃, rfl, .inl ⟨hf, ⟨_, rfl⟩, ?_⟩⟩
      exact revoked_of_update (s := s) fun t ht hun =>
        List.mem_map.mpr ⟨t, Table.mem_select.mpr ⟨ht, hun⟩, rfl⟩
    · exact ⟨rfl, rfl, e₂, e₃, rfl, .inr ⟨by rw [hf]; decide, hr⟩⟩
    · exact ⟨rfl, rfl, e₂, e₃, rfl, .inr ⟨by rw [hf]; decide, hr⟩⟩
  rcases play_bind_cases h₂ with ⟨x, rfl, hx⟩ | ⟨n, es₃, es₄, s₂, rfl, h₃, h₄⟩
  · obtain ⟨husers, htokens, e₂, e₃, rfl, ⟨-, ⟨_, hn⟩, -⟩ | ⟨hf, -⟩⟩ := hrevoke hx
    · cases hn
    · exact ⟨husers, htokens, e₁, e₂, e₃, rfl, .inr ⟨hf, x, rfl⟩⟩
  · obtain ⟨rfl, rfl, rfl⟩ := play_done h₄
    obtain ⟨husers, htokens, e₂, e₃, rfl, ⟨hf, -, hrevoked⟩ | ⟨-, _, hn⟩⟩ := hrevoke h₃
    · exact ⟨husers, htokens, e₁, e₂, e₃, rfl, .inl ⟨hf, rfl, hrevoked⟩⟩
    · cases hn

/-- The audit event is recorded, or not; neither is an error. -/
theorem play_recordEvent {tenantId actorUserId : Option Uuid} {subjectType eventType : String}
    {subjectId : Option Uuid} {payload : Value} {r : Except AppError Unit}
    (h : play (recordEvent tenantId actorUserId subjectType subjectId eventType payload) es s =
      some (r, s')) :
    r = .ok () ∧ s'.db.users = s.db.users ∧ s'.db.userTokens = s.db.userTokens ∧
      s'.db.refreshTokens = s.db.refreshTokens := by
  have hrecorded : ∀ {es s s'} {r : Except AppError (Except AppError Unit)},
      play (recordAuditEvent tenantId actorUserId subjectType subjectId eventType payload).attempt
        es s = some (r, s') → (∃ r₀, r = .ok r₀) ∧ s'.db.users = s.db.users ∧
          s'.db.userTokens = s.db.userTokens ∧ s'.db.refreshTokens = s.db.refreshTokens := by
    intro es s s' r h
    obtain ⟨r₀, rfl, h₀⟩ := play_attempt h
    refine ⟨⟨r₀, rfl⟩, ?_⟩
    rcases play_bind_cases h₀ with ⟨x, -, hx⟩ | ⟨id, es₁, es₂, s₁, rfl, h₁, h₂⟩
    · obtain ⟨hdb, -⟩ := play_newUuid hx
      simp only [hdb, and_self]
    · obtain ⟨hdb, -⟩ := play_newUuid h₁
      rw [← hdb]
      obtain ⟨e, -, ⟨rfl, -⟩ | ⟨rfl, -⟩⟩ := play_sql h₂
      · exact ⟨rfl, rfl, rfl⟩
      · dsimp only
        split
        · exact ⟨rfl, rfl, rfl⟩
        · exact ⟨rfl, rfl, rfl⟩
  rcases play_bind_cases h with ⟨x, -, hx⟩ | ⟨_, es₁, es₂, t, -, h₁, h₂⟩
  · obtain ⟨⟨_, hx⟩, -⟩ := hrecorded hx
    cases hx
  · obtain ⟨-, rfl, rfl⟩ := play_done h₂
    exact ⟨rfl, (hrecorded h₁).2⟩

/-- The users when the password is set. -/
def withPassword (s : AppState) (userId : Uuid) (passwordHash : String) : Table UserRecord UserRecord.id :=
  s.db.users.update (fun u => u.id = userId) fun u => { u with passwordHash }

/-- How the part of a call ends that sets the password: statement 0 sets it, and statement 3
revokes. -/
inductive SetPassword (userId : Uuid) (passwordHash : String) (es : List Env) (s : AppState)
    (r : Except AppError Unit) (s' : AppState) : Prop
  | untouched (h : s.db.users.find? userId = none ∨ faultAt es 0 = .failed)
      (hr : ∃ x, r = .error x) (hs : s' = s) : SetPassword userId passwordHash es s r s'
  | halfway (hfound : s.db.users.find? userId ≠ none) (hset : faultAt es 0 ≠ .failed)
      (hfault : ¬ (faultAt es 0 = .none ∧ faultAt es 3 = .none)) (hr : ∃ x, r = .error x)
      (husers : s'.db.users = withPassword s userId passwordHash)
      (htokens : s'.db.userTokens = s.db.userTokens) :
      SetPassword userId passwordHash es s r s'
  | complete (hfound : s.db.users.find? userId ≠ none) (hset : faultAt es 0 = .none)
      (hrevoke : faultAt es 3 = .none) (hr : r = .ok ())
      (husers : s'.db.users = withPassword s userId passwordHash)
      (htokens : s'.db.userTokens = s.db.userTokens)
      (hrevoked : ∀ t ∈ s'.db.refreshTokens, t.userId = userId → t.revokedAt ≠ none) :
      SetPassword userId passwordHash es s r s'

theorem play_updateUserPassword {r : Except AppError UserRecord}
    (h : play (updateUserPassword userId passwordHash) es s = some (r, s')) :
    ∃ e, es = [e] ∧
      (((s.db.users.find? userId = none ∨ e.fault = .failed) ∧ (∃ x, r = .error x) ∧ s' = s) ∨
      (s.db.users.find? userId ≠ none ∧ s'.db.users = withPassword s userId passwordHash ∧
        s'.db.userTokens = s.db.userTokens ∧
        ((e.fault = .lost ∧ ∃ x, r = .error x) ∨
          (e.fault = .none ∧ ∃ u, r = .ok u ∧ u.id = userId)))) := by
  obtain ⟨e, rfl, hcases⟩ := sql_cases h
  refine ⟨e, rfl, ?_⟩
  cases hfind : s.db.users.find? userId with
  | none =>
      simp only [hfind] at hcases
      rcases hcases with ⟨hf, hrun⟩ | ⟨hf, hr, rfl⟩ | ⟨hf, hr, rfl⟩
      · obtain ⟨rfl, rfl⟩ := Prod.mk.inj hrun
        exact .inl ⟨.inl rfl, ⟨_, rfl⟩, rfl⟩
      · exact .inl ⟨.inl rfl, hr, rfl⟩
      · exact .inl ⟨.inl rfl, hr, rfl⟩
  | some u =>
      have hu : u.id = userId := (Table.find?_eq_some.mp hfind).2
      simp only [hfind] at hcases
      rcases hcases with ⟨hf, hrun⟩ | ⟨hf, hr, rfl⟩ | ⟨hf, hr, rfl⟩
      · obtain ⟨rfl, rfl⟩ := Prod.mk.inj hrun
        exact .inr ⟨Option.some_ne_none u, rfl, rfl, .inr ⟨hf, _, rfl, hu⟩⟩
      · exact .inl ⟨.inr hf, hr, rfl⟩
      · exact .inr ⟨Option.some_ne_none u, rfl, rfl, .inl ⟨hf, hr⟩⟩

theorem play_setPassword {idOf : UserRecord → Uuid} {eventType : String}
    {r : Except AppError Unit} (hid : ∀ u, u.id = userId → idOf u = userId)
    (h : play ((updateUserPassword userId passwordHash).bind fun user =>
      (revokeAllUserRefreshTokens (idOf user)).bind fun _ =>
        recordEvent none (some (idOf user)) "user" (some (idOf user)) eventType (.obj [])) es s =
      some (r, s')) : SetPassword userId passwordHash es s r s' := by
  rcases play_bind_cases h with ⟨x, rfl, hx⟩ | ⟨user, es₁, es₂, s₁, rfl, h₁, h₂⟩
  · obtain ⟨e, rfl, ⟨hnone, -, rfl⟩ | ⟨hfound, husers, htokens, ⟨hf, -⟩ | ⟨-, _, hu, -⟩⟩⟩ :=
      play_updateUserPassword hx
    · exact .untouched hnone ⟨x, rfl⟩ rfl
    · refine .halfway hfound ?_ ?_ ⟨x, rfl⟩ husers htokens
      · rw [show faultAt [e] 0 = e.fault from rfl, hf]
        decide
      · rw [show faultAt [e] 0 = e.fault from rfl, hf]
        exact fun hfault => absurd hfault.1 (by decide)
    · cases hu
  · obtain ⟨e, rfl, ⟨-, ⟨_, hu⟩, -⟩ | ⟨hfound, husers, htokens, ⟨-, _, hu⟩ | ⟨hf, _, hu, huser⟩⟩⟩ :=
      play_updateUserPassword h₁
    · cases hu
    · cases hu
    obtain rfl := Except.ok.inj hu
    rw [hid user huser] at h₂
    have hset : faultAt ([e] ++ es₂) 0 = .none := hf
    have hfound' : faultAt ([e] ++ es₂) 0 ≠ .failed := by
      rw [hset]
      decide
    rcases play_bind_cases h₂ with ⟨x, rfl, hx⟩ | ⟨_, es₃, es₄, s₂, rfl, h₃, h₄⟩
    · obtain ⟨husers', htokens', e₁, e₂, e₃, rfl, ⟨-, hr, -⟩ | ⟨hf₃, -⟩⟩ := play_revokeAll hx
      · cases hr
      · exact .halfway hfound hfound' (fun hfault => hf₃ hfault.2) ⟨x, rfl⟩ (husers'.trans husers)
          (htokens'.trans htokens)
    · obtain ⟨husers', htokens', e₁, e₂, e₃, rfl, ⟨hf₃, -, hrevoked⟩ | ⟨-, _, hr⟩⟩ :=
        play_revokeAll h₃
      · obtain ⟨rfl, husers'', htokens'', hrefresh⟩ := play_recordEvent h₄
        refine .complete hfound hset hf₃ rfl (husers''.trans (husers'.trans husers))
          (htokens''.trans (htokens'.trans htokens)) ?_
        rw [hrefresh]
        exact hrevoked
      · cases hr

end Statements

/-! ### The calls -/

section Calls

variable {app : App} {es : List Env} {s s' : AppState} {r : Except AppError Unit}

/-- The input of statement `n` of a call. -/
def inputAt (es : List Env) (n : Nat) : Env := es[n]?.getD default

/-- The token that `confirm_password_reset` consumes, where it is valid. -/
def validToken (tokenHash : String) (now : Time) (s : AppState) : Option UserTokenRecord :=
  (s.db.userTokens.select (isConsumable .passwordReset tokenHash now)).head?

/-- From the consumption of a valid token on, which is statement 0, nothing fails: the password is
hashed, the user is found and set its password in statement 2, and statement 5 revokes. -/
def ConfirmUninterrupted (app : App) (token newPassword : String) (es : List Env) (s : AppState) :
    Prop :=
  ∀ t ∈ validToken (app.lib.sha256Hex token) (inputAt es 0).now s, faultAt es 0 ≠ .failed →
    faultAt es 0 = .none ∧ (∃ hash, app.lib.hashPassword (inputAt es 1).random newPassword = .ok hash) ∧
      s.db.users.find? t.userId ≠ none ∧ faultAt es 2 = .none ∧ faultAt es 5 = .none

/-- Once the user is found, the current password is right and the new one is hashed, the setting of
the password in statement 2 fails without effect, or neither it nor the revocation in statement 5
fails. -/
def ChangeUninterrupted (app : App) (userId : Uuid) (currentPassword newPassword : String)
    (es : List Env) (s : AppState) : Prop :=
  faultAt es 0 = .none → ∀ u ∈ s.db.users.find? userId,
    verifyCurrentPassword app currentPassword u.passwordHash = .ok () →
    (∃ hash, app.lib.hashPassword (inputAt es 1).random newPassword = .ok hash) →
    faultAt es 2 = .failed ∨ faultAt es 2 = .none ∧ faultAt es 5 = .none

/-- With the salt that is drawn, the new password has a hash that nobody's password has. -/
def FreshHash (app : App) (newPassword : String) (es : List Env) (s : AppState) : Prop :=
  ∀ u ∈ s.db.users, app.lib.hashPassword (inputAt es 1).random newPassword ≠ .ok u.passwordHash

/-- A call that changes nothing is atomic. -/
theorem AtomicChange.of_same (h : s'.db = s.db) (presented : Option String) :
    AtomicChange presented r s s' := by
  have hsame : SamePasswords s s' := by
    intro u hu u' hu' hid
    rw [h] at hu'
    rw [Table.eq_of_key hu' hu hid]
  refine ⟨fun _ _ => ⟨hsame, fun _ _ _ t ht _ => ?_, congrArg (·.refreshTokens) h⟩,
    fun u hu u' hu' hid hne => absurd (hsame u hu u' hu' hid) hne⟩
  rw [h]
  exact ht

/-- A complete change is atomic. -/
theorem AtomicChange.of_complete {userId : Uuid} {passwordHash : String} {s₁ : AppState}
    (h₁ : s₁.db.users = s.db.users) (husers : s'.db.users = withPassword s₁ userId passwordHash)
    (hrevoked : ∀ t ∈ s'.db.refreshTokens, t.userId = userId → t.revokedAt ≠ none)
    (presented : Option String) : AtomicChange presented (.ok ()) s s' := by
  refine ⟨fun _ hr => (by cases hr), fun u hu u' hu' hid hne t ht hown => ?_⟩
  rw [husers, withPassword, h₁] at hu'
  obtain ⟨u₀, hu₀, rfl⟩ := Table.mem_update.mp hu'
  by_cases hset : u₀.id = userId
  · have hsame : u₀.id = u.id := by
      rw [← hid]
      split <;> rfl
    exact hrevoked t ht (hown.trans (hsame.symm.trans hset))
  · -- Nobody else's password is changed.
    rw [if_neg (by simpa using hset)] at hid hne
    rw [Table.eq_of_key hu₀ hu hid] at hne
    exact absurd rfl hne

/-- A password that is halfway set is changed. -/
theorem not_samePasswords {userId : Uuid} {passwordHash : String}
    (hfound : s.db.users.find? userId ≠ none)
    (hfresh : ∀ u ∈ s.db.users, u.passwordHash ≠ passwordHash)
    (husers : s'.db.users = withPassword s userId passwordHash) : ¬ SamePasswords s s' := by
  intro hsame
  obtain ⟨u, hfind⟩ := Option.ne_none_iff_exists'.mp hfound
  obtain ⟨hu, hid⟩ := Table.find?_eq_some.mp hfind
  refine hfresh u hu (hsame u hu { u with passwordHash } ?_ rfl).symm
  rw [husers]
  exact Table.mem_update_of_true hu (by simpa using hid)

/-- A token that is consumed cannot be used any more. -/
theorem consumed_not_usable {tokenHash : String} {now : Time} {t : UserTokenRecord}
    (ht : t ∈ validToken tokenHash now s)
    (htokens : s'.db.userTokens = s.db.userTokens.update (isConsumable .passwordReset tokenHash now)
      fun t => { t with usedAt := some now }) : ¬ StillUsable tokenHash s s' := by
  intro hstill
  obtain ⟨hmem, hc⟩ := Table.mem_select.mp (List.mem_of_head? ht)
  have hleft := hstill now t hmem hc
  rw [htokens] at hleft
  obtain ⟨t₀, -, heq⟩ := Table.mem_update.mp hleft
  by_cases hp : isConsumable .passwordReset tokenHash now t₀ = true
  · rw [if_pos hp] at heq
    rw [heq] at hc
    simp [isConsumable] at hc
  · rw [if_neg hp] at heq
    exact hp (heq ▸ hc)

/-- The consumption of the token, and what comes after it. -/
theorem play_consume {r : Except AppError UserTokenRecord} {tokenHash : String}
    (h : play (consumeUserToken .passwordReset tokenHash) es s = some (r, s')) :
    ∃ e, es = [e] ∧
      ((((validToken tokenHash e.now s = none ∨ e.fault = .failed) ∧ (∃ x, r = .error x) ∧ s' = s) ∨
      (∃ t ∈ validToken tokenHash e.now s, s'.db.users = s.db.users ∧
        s'.db.userTokens = s.db.userTokens.update (isConsumable .passwordReset tokenHash e.now)
          (fun t => { t with usedAt := some e.now }) ∧
        ((e.fault = .lost ∧ ∃ x, r = .error x) ∨
          (e.fault = .none ∧ ∃ t', r = .ok t' ∧ t'.userId = t.userId))))) := by
  obtain ⟨e, rfl, hcases⟩ := sql_cases h
  refine ⟨e, rfl, ?_⟩
  cases hvalid : validToken tokenHash e.now s with
  | none =>
      have hnone : (s.db.userTokens.select (isConsumable .passwordReset tokenHash e.now)).head? =
          none := hvalid
      simp only [hnone] at hcases
      rcases hcases with ⟨hf, hrun⟩ | ⟨hf, hr, rfl⟩ | ⟨hf, hr, rfl⟩
      · obtain ⟨rfl, rfl⟩ := Prod.mk.inj hrun
        exact .inl ⟨.inl rfl, ⟨_, rfl⟩, rfl⟩
      · exact .inl ⟨.inl rfl, hr, rfl⟩
      · exact .inl ⟨.inl rfl, hr, rfl⟩
  | some t =>
      have hsome : (s.db.userTokens.select (isConsumable .passwordReset tokenHash e.now)).head? =
          some t := hvalid
      simp only [hsome] at hcases
      rcases hcases with ⟨hf, hrun⟩ | ⟨hf, hr, rfl⟩ | ⟨hf, hr, rfl⟩
      · obtain ⟨rfl, rfl⟩ := Prod.mk.inj hrun
        exact .inr ⟨t, rfl, rfl, rfl, .inr ⟨hf, _, rfl, rfl⟩⟩
      · exact .inl ⟨.inr hf, hr, rfl⟩
      · exact .inr ⟨t, rfl, rfl, rfl, .inl ⟨hf, hr⟩⟩

/-- The hash of the new password takes one input, the salt. -/
theorem play_hashPassword {password : String} {r : Except AppError String}
    (h : play (hashPassword app password) es s = some (r, s')) :
    s' = s ∧ ∃ e, es = [e] ∧ ((∃ x, r = .error x) ∧
        (∀ hash, app.lib.hashPassword e.random password ≠ .ok hash) ∨
      ∃ hash, r = .ok hash ∧ app.lib.hashPassword e.random password = .ok hash) := by
  rcases play_bind_cases h with ⟨x, -, hx⟩ | ⟨salt, es₁, es₂, s₁, rfl, h₁, h₂⟩
  · obtain ⟨_, -, -, hx⟩ := play_atomic hx
    cases hx
  obtain ⟨e, rfl, -, hdrawn⟩ := play_atomic h₁
  obtain ⟨hsalt, rfl⟩ := Prod.mk.inj hdrawn
  obtain rfl := Except.ok.inj hsalt
  cases hhash : app.lib.hashPassword e.random password with
  | ok hash =>
      simp only [hhash] at h₂
      obtain ⟨rfl, rfl, rfl⟩ := play_done h₂
      exact ⟨rfl, e, rfl, .inr ⟨hash, rfl, hhash⟩⟩
  | error x =>
      simp only [hhash] at h₂
      obtain ⟨rfl, rfl, rfl⟩ := play_done h₂
      exact ⟨rfl, e, rfl, .inl ⟨⟨_, rfl⟩, fun hash heq => by cases hhash.symm.trans heq⟩⟩

/-- A reset is atomic exactly if nothing fails from the consumption on. -/
theorem confirm_atomic_iff {token newPassword : String}
    (h : play (confirmPasswordReset app token newPassword) es s = some (r, s')) :
    AtomicChange (some (app.lib.sha256Hex token)) r s s' ↔
      ConfirmUninterrupted app token newPassword es s := by
  -- A call that has consumed the token and ends with an error is not atomic.
  have hspent : ∀ {e : Env} {t : UserTokenRecord} {x : AppError},
      t ∈ validToken (app.lib.sha256Hex token) e.now s →
      s'.db.userTokens = s.db.userTokens.update
        (isConsumable .passwordReset (app.lib.sha256Hex token) e.now)
        (fun t => { t with usedAt := some e.now }) → r = .error x →
      ¬ AtomicChange (some (app.lib.sha256Hex token)) r s s' := fun ht htokens hr hatomic =>
    consumed_not_usable ht htokens ((hatomic.error _ hr).2.1 _ rfl)
  -- The consumption of the token fails, or finds none; or the call goes on with its row.
  rcases play_bind_cases h with ⟨x, rfl, hx⟩ | ⟨record, es₁, es₂, s₁, rfl, h₁, h₂⟩
  · obtain ⟨e, rfl, ⟨hnone, -, rfl⟩ | ⟨t, ht, -, htokens, ⟨hf, -⟩ | ⟨-, _, hr, -⟩⟩⟩ := play_consume hx
    · refine iff_of_true (.of_same rfl _) fun t ht hfault => ?_
      rcases hnone with hnone | hf
      · cases hnone.symm.trans ht
      · exact absurd hf hfault
    · refine iff_of_false (hspent ht htokens rfl) fun hsound => ?_
      have hfault : faultAt [e] 0 = .lost := hf
      have := (hsound t ht (by rw [hfault]; decide)).1
      rw [hfault] at this
      cases this
    · cases hr
  · obtain ⟨e, rfl, ⟨-, ⟨_, hr⟩, -⟩ | ⟨t, ht, husers, htokens, ⟨-, _, hr⟩ | ⟨hf, _, hr, hown⟩⟩⟩ :=
      play_consume h₁
    · cases hr
    · cases hr
    obtain rfl := Except.ok.inj hr
    have hfault : faultAt ([e] ++ es₂) 0 = .none := hf
    have hreached : faultAt ([e] ++ es₂) 0 ≠ .failed := by
      rw [hfault]
      decide
    have hrest : ∀ t₀ ∈ validToken (app.lib.sha256Hex token) e.now s, t₀ = t := fun t₀ ht₀ =>
      Option.some.inj (ht₀.symm.trans ht)
    -- From here on the token is spent: the hash, and then the two writes, must all succeed.
    rcases play_bind_cases h₂ with ⟨x, rfl, hx⟩ | ⟨hash, es₃, es₄, s₂, rfl, h₃, h₄⟩
    · obtain ⟨rfl, e₁, rfl, ⟨-, hnone⟩ | ⟨hash, hr, -⟩⟩ := play_hashPassword hx
      · refine iff_of_false (hspent ht htokens rfl) fun hsound => ?_
        obtain ⟨-, ⟨hash, hhash⟩, -⟩ := hsound t ht hreached
        exact hnone hash hhash
      · cases hr
    · obtain ⟨rfl, e₁, rfl, ⟨⟨_, hr⟩, -⟩ | ⟨_, hr, hhash⟩⟩ := play_hashPassword h₃
      · cases hr
      obtain rfl := Except.ok.inj hr
      rw [hown] at h₄
      cases @play_setPassword _ _ _ _ _ (fun u => u.id) _ _ (fun _ hid => hid) h₄ with
      | untouched hnot hr hs =>
          obtain ⟨x, rfl⟩ := hr
          refine iff_of_false (hspent ht ((congrArg (·.db.userTokens) hs).trans htokens) rfl)
            fun hsound => ?_
          obtain ⟨-, -, hfound, hset, -⟩ := hsound t ht hreached
          rw [← husers] at hfound
          rcases hnot with hnone | hfailed
          · exact hfound hnone
          · have hset' : faultAt es₄ 0 = .none := hset
            rw [hfailed] at hset'
            cases hset'
      | halfway hfound hset hnot hr husers' htokens' =>
          obtain ⟨x, rfl⟩ := hr
          refine iff_of_false (hspent ht (htokens'.trans htokens) rfl) fun hsound => ?_
          obtain ⟨-, -, -, hset, hrevoke⟩ := hsound t ht hreached
          exact hnot ⟨hset, hrevoke⟩
      | complete hfound hset hrevoke hr husers' htokens' hrevoked =>
          subst hr
          refine iff_of_true (.of_complete husers husers' hrevoked _) fun t₀ ht₀ _ => ?_
          obtain rfl := hrest t₀ ht₀
          rw [husers] at hfound
          exact ⟨hfault, ⟨hash, hhash⟩, hfound, hset, hrevoke⟩

/-- The user is read, or there is an error. -/
theorem play_getUserById {userId : Uuid} {r : Except AppError UserRecord}
    (h : play (getUserById userId) es s = some (r, s')) :
    s' = s ∧ ∃ e, es = [e] ∧ ((∃ x, r = .error x) ∧
        (e.fault = .none → s.db.users.find? userId = none) ∨
      ∃ u, r = .ok u ∧ e.fault = .none ∧ s.db.users.find? userId = some u) := by
  rcases play_bind_cases h with ⟨x, rfl, hx⟩ | ⟨found, es₁, es₂, s₁, rfl, h₁, h₂⟩
  · obtain ⟨e, rfl, ⟨-, hrun⟩ | ⟨hf, -, rfl⟩ | ⟨hf, -, rfl⟩⟩ := sql_cases hx
    · cases hrun
    · exact ⟨rfl, e, rfl, .inl ⟨⟨x, rfl⟩, fun hnone => by cases hf.symm.trans hnone⟩⟩
    · exact ⟨rfl, e, rfl, .inl ⟨⟨x, rfl⟩, fun hnone => by cases hf.symm.trans hnone⟩⟩
  · obtain ⟨e, rfl, ⟨hf, hrun⟩ | ⟨-, ⟨_, hr⟩, -⟩ | ⟨-, ⟨_, hr⟩, -⟩⟩ := sql_cases h₁
    · obtain ⟨hfound, rfl⟩ := Prod.mk.inj hrun
      obtain rfl := Except.ok.inj hfound
      dsimp only at h₂
      cases hfind : s.db.users.find? userId with
      | none =>
          rw [hfind] at h₂
          obtain ⟨rfl, rfl, rfl⟩ := play_done h₂
          exact ⟨rfl, e, rfl, .inl ⟨⟨_, rfl⟩, fun _ => rfl⟩⟩
      | some u =>
          rw [hfind] at h₂
          obtain ⟨rfl, rfl, rfl⟩ := play_done h₂
          exact ⟨rfl, e, rfl, .inr ⟨u, rfl, hf, rfl⟩⟩
    · cases hr
    · cases hr

/-- A change of the password is atomic exactly if nothing fails from the setting on. -/
theorem change_atomic_iff {userId : Uuid} {currentPassword newPassword : String}
    (hfresh : FreshHash app newPassword es s)
    (h : play (changePassword app userId currentPassword newPassword) es s = some (r, s')) :
    AtomicChange none r s s' ↔ ChangeUninterrupted app userId currentPassword newPassword es s := by
  rcases play_bind_cases h with ⟨x, rfl, hx⟩ | ⟨u, es₁, es₂, s₁, rfl, h₁, h₂⟩
  · obtain ⟨rfl, e, rfl, ⟨-, hnone⟩ | ⟨_, hr, -⟩⟩ := play_getUserById hx
    · refine iff_of_true (.of_same rfl _) fun hread u hu => ?_
      cases (hnone hread).symm.trans hu
    · cases hr
  obtain ⟨rfl, e, rfl, ⟨⟨_, hr⟩, -⟩ | ⟨_, hr, hread, hfind⟩⟩ := play_getUserById h₁
  · cases hr
  obtain rfl := Except.ok.inj hr
  have hunique : ∀ u₀ ∈ s₁.db.users.find? userId, u₀ = u := fun u₀ hu₀ =>
    Option.some.inj (hu₀.symm.trans hfind)
  -- A wrong password ends the call before anything is written.
  cases hverify : verifyCurrentPassword app currentPassword u.passwordHash with
  | error x =>
      rw [hverify] at h₂
      obtain ⟨rfl, rfl, rfl⟩ := play_done h₂
      refine iff_of_true (.of_same rfl _) fun _ u₀ hu₀ hok => ?_
      obtain rfl := hunique u₀ hu₀
      cases hverify.symm.trans hok
  | ok _ =>
      rw [hverify] at h₂
      change play ((hashPassword app newPassword).bind _) es₂ s₁ = _ at h₂
      rcases play_bind_cases h₂ with ⟨x, rfl, hx⟩ | ⟨hash, es₃, es₄, s₂, rfl, h₃, h₄⟩
      · obtain ⟨rfl, e₁, rfl, ⟨-, hnone⟩ | ⟨_, hr, -⟩⟩ := play_hashPassword hx
        · exact iff_of_true (.of_same rfl _) fun _ _ _ _ ⟨hash, hhash⟩ => absurd hhash (hnone hash)
        · cases hr
      · obtain ⟨rfl, e₁, rfl, ⟨⟨_, hr⟩, -⟩ | ⟨_, hr, hhash⟩⟩ := play_hashPassword h₃
        · cases hr
        obtain rfl := Except.ok.inj hr
        obtain ⟨-, hid⟩ := Table.find?_eq_some.mp hfind
        -- The new hash is nobody's yet, so that setting it can be seen.
        have hother : ∀ v ∈ s₂.db.users, v.passwordHash ≠ hash := fun v hv heq =>
          hfresh v hv (by rw [heq]; exact hhash)
        rw [hid] at h₄
        cases @play_setPassword _ _ _ _ _ (fun _ => userId) _ _ (fun _ _ => rfl) h₄ with
        | untouched hnot hr hs =>
            refine iff_of_true (.of_same (congrArg (·.db) hs) _) fun _ _ _ _ _ => ?_
            rcases hnot with hnone | hfailed
            · cases hfind.symm.trans hnone
            · exact .inl hfailed
        | halfway hfound hset hnot hr husers htokens =>
            obtain ⟨x, rfl⟩ := hr
            refine iff_of_false (fun hatomic =>
              not_samePasswords hfound hother husers (hatomic.error x rfl).1) fun hsound => ?_
            rcases hsound hread u hfind hverify ⟨hash, hhash⟩ with hfailed | hnone
            · exact hset hfailed
            · exact hnot hnone
        | complete hfound hset hrevoke hr husers htokens hrevoked =>
            subst hr
            exact iff_of_true (.of_complete rfl husers hrevoked _) fun _ _ _ _ _ =>
              .inr ⟨hset, hrevoke⟩

end Calls

/-- **When a change is atomic.**  Whatever fails in a call that is not interfered with, it is all or
nothing exactly if nothing fails from the first statement that takes effect on to the revocation. -/
theorem credential_change_atomic {app : App} {es : List Env} {s s' : AppState}
    {r : Except AppError Unit} {newPassword : String} (hfresh : FreshHash app newPassword es s) :
    (∀ token, play (confirmPasswordReset app token newPassword) es s = some (r, s') →
      (AtomicChange (some (app.lib.sha256Hex token)) r s s' ↔
        ConfirmUninterrupted app token newPassword es s)) ∧
    (∀ userId currentPassword,
      play (changePassword app userId currentPassword newPassword) es s = some (r, s') →
      (AtomicChange none r s s' ↔
        ChangeUninterrupted app userId currentPassword newPassword es s)) :=
  ⟨fun _ => confirm_atomic_iff, fun _ _ => change_atomic_iff hfresh⟩

/-! ### Failures -/

/-- A user with the password `old`, a reset token and a refresh token. -/
def oneAccount : AppState :=
  { (default : AppState) with
    db := { (default : AppState).db with
      users := ⟨[⟨1, "a@b", "old", none, none, 0⟩], by simp⟩
      userTokens := ⟨[⟨2, 1, .passwordReset, "link", 3600, none, 0, "a@b"⟩], by simp⟩
      refreshTokens := ⟨[⟨3, 1, 9, 3600, none, none, 0, 0⟩], by simp⟩ } }

/-- The inputs of the statements of a call at second 5, of which one fails. -/
def failingAt (n : Nat) (fault : Fault) : List Env :=
  (List.range 8).map fun k =>
    { (default : Env) with now := 5, uuid := 10 + k, fault := if k = n then fault else .none }

theorem exists_ok_of_play {p : Service Unit} {es : List Env} {s : AppState}
    (h : ((play p es s).map fun x => x.1.isOk) = some true) :
    ∃ s', play p es s = some (.ok (), s') := by
  obtain ⟨⟨r, s'⟩, hplay, hok⟩ := Option.map_eq_some_iff.mp h
  cases r with
  | ok _ => exact ⟨s', hplay⟩
  | error x => cases hok

theorem exists_error_of_play {p : Service Unit} {es : List Env} {s : AppState}
    (h : ((play p es s).map fun x => x.1.isOk) = some false) :
    ∃ x s', play p es s = some (.error x, s') := by
  obtain ⟨⟨r, s'⟩, hplay, hok⟩ := Option.map_eq_some_iff.mp h
  cases r with
  | ok _ => cases hok
  | error x => exact ⟨x, s', hplay⟩

/-- The audit event fails, and the change is complete. -/
theorem credential_change_atomic_audit :
    ∃ s', play (changePassword default 1 "old" "new") (failingAt 7 .failed) oneAccount =
      some (.ok (), s') ∧ AtomicChange none (.ok ()) oneAccount s' := by
  obtain ⟨s', hplay⟩ := @exists_ok_of_play (changePassword default 1 "old" "new")
    (failingAt 7 .failed) oneAccount (by decide +kernel)
  refine ⟨s', hplay, ((credential_change_atomic ?_).2 1 "old" hplay).mpr ?_⟩
  · intro u hu
    obtain rfl := List.mem_singleton.mp hu
    intro hsame
    exact absurd (Except.ok.inj hsame) (by decide)
  · exact fun _ _ _ _ _ => .inr ⟨rfl, rfl⟩

/-- The `UPDATE` of the password fails: the call ends with an error, and the reset token is spent.
The revocation fails: the password is new, and the old refresh token active. -/
theorem credential_change_torn :
    (∃ x s', play (confirmPasswordReset default "link" "new") ((failingAt 2 .failed).take 3)
        oneAccount = some (.error x, s') ∧
      ¬ AtomicChange (some "link") (.error x) oneAccount s') ∧
    (∃ x s', play (changePassword default 1 "old" "new") ((failingAt 5 .failed).take 6)
        oneAccount = some (.error x, s') ∧
      ¬ AtomicChange none (.error x) oneAccount s') := by
  constructor
  · obtain ⟨x, s', hplay⟩ := @exists_error_of_play (confirmPasswordReset default "link" "new")
      ((failingAt 2 .failed).take 3) oneAccount (by decide +kernel)
    refine ⟨x, s', hplay, fun hatomic => ?_⟩
    obtain ⟨-, -, -, hset, -⟩ := (confirm_atomic_iff hplay).mp hatomic _ rfl (by decide +kernel)
    exact absurd hset (by decide +kernel)
  · obtain ⟨x, s', hplay⟩ := @exists_error_of_play (changePassword default 1 "old" "new")
      ((failingAt 5 .failed).take 6) oneAccount (by decide +kernel)
    refine ⟨x, s', hplay, fun hatomic => ?_⟩
    have hfresh : FreshHash default "new" ((failingAt 5 .failed).take 6) oneAccount := by
      intro u hu hsame
      obtain rfl := List.mem_singleton.mp hu
      exact absurd (Except.ok.inj hsame) (by decide)
    rcases (change_atomic_iff hfresh hplay).mp hatomic (by decide +kernel) _ rfl (by decide +kernel)
      ⟨"new", rfl⟩ with hfailed | ⟨-, hrevoke⟩
    · exact absurd hfailed (by decide +kernel)
    · exact absurd hrevoke (by decide +kernel)

end Fluxa.Accounts
