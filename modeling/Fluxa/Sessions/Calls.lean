import Fluxa.Members.Writes
import Fluxa.Services.Quiet
import Fluxa.Sessions.Actions

/-!
# Sessions — calls

The calls of the session system, and that they keep to `sessionContract`: what each call knows between its statements, statement by statement, and what it has achieved when it returns (**`SessionPost`**).
-/

namespace Fluxa
open Interleave Relational Db Contract

/-! ### The system -/

/-- The calls: requests, the removal of a member, and the purge of a retention sweep. -/
inductive SessionCall where
  | register (email password : String) (tenantName : Option String)
  | login (email password : String) (tenantId : Option Uuid)
  | oauthLogin (provider code redirectUri : String) (tenantId : Option Uuid)
      (tenantName : Option String)
  | refresh (refreshToken : Jwt) (tenantId : Option Uuid)
  | logout (refreshToken : Jwt) (accessToken : Option Jwt)
  | switchTenant (bearer : Jwt) (tenantId : Uuid)
  | listSessions (bearer : Jwt)
  | revokeSession (bearer : Jwt) (sessionId : Uuid)
  | logoutAllSessions (bearer : Jwt)
  | changePassword (bearer : Jwt) (currentPassword newPassword : String)
  | confirmPasswordReset (token newPassword : String)
  | removeMember (tenantId : Uuid) (actorRole : MembershipRole) (actorUserId targetUserId : Uuid)
  | purgeStaleRefreshTokens (retentionDays : Nat)

/-- What a call returns. -/
inductive SessionReply where
  | session (session : AuthSession)
  | sessions (rows : List RefreshTokenRecord)
  | purged (rows : Nat)
  | done

/-- A termination, whose return or failure the history notes. -/
def closing (p : Service Unit) : Service SessionReply := do
  match ← p.attempt with
  | .ok () =>
    .atomic .returnTermination (fun _ => true) fun e s =>
      (.ok .done, { s with history := s.history.returned e.pid })
  | .error error =>
    note fun e h => h.abandoned e.pid
    .fail error

def SessionCall.body (app : App) : SessionCall → Service SessionReply
  | .register email password tenantName => do
    return .session (← Http.register app email password tenantName)
  | .login email password tenantId => do return .session (← Http.login app email password tenantId)
  | .oauthLogin provider code redirectUri tenantId tenantName => do
    return .session (← Http.oauthLogin app provider code redirectUri tenantId tenantName)
  | .refresh refreshToken tenantId => do return .session (← Fluxa.refresh app refreshToken tenantId)
  | .logout refreshToken accessToken => do
    Fluxa.logout refreshToken accessToken
    return .done
  | .switchTenant bearer tenantId => do return .session (← Http.switchTenant app bearer tenantId)
  | .listSessions bearer => do return .sessions (← Http.listSessions bearer)
  | .revokeSession bearer sessionId => do
    Http.revokeSession app bearer sessionId
    return .done
  | .logoutAllSessions bearer => closing (Http.logoutAllSessions bearer)
  | .changePassword bearer currentPassword newPassword =>
    closing (Http.changePassword app bearer currentPassword newPassword)
  | .confirmPasswordReset token newPassword =>
    closing (Http.confirmPasswordReset app token newPassword)
  | .removeMember tenantId actorRole actorUserId targetUserId => do
    Fluxa.removeMember tenantId actorRole actorUserId targetUserId
    return .done
  | .purgeStaleRefreshTokens retentionDays => do
    return .purged (← Db.purgeStaleRefreshTokens retentionDays)

/-- Any number of these calls, side by side. -/
def sessionSystem (app : App) : System Event Env AppState AppError SessionCall SessionReply :=
  ⟨SessionCall.body app, admissible⟩

/-- What a call has achieved when it has returned. -/
def SessionPost (i : Nat) : SessionCall → Except AppError SessionReply → AppState → Prop
  | .refresh refreshToken _, .ok _, s => ∃ b, (refreshToken.jti, b, i) ∈ s.history.rotations
  | .logoutAllSessions bearer, .ok _, s => ∃ k, (i, bearer.sub, k) ∈ s.history.terminated
  | .changePassword bearer _ _, .ok _, s => ∃ k, (i, bearer.sub, k) ∈ s.history.terminated
  | .confirmPasswordReset _ _, .ok _, s => ∃ u k, (i, u, k) ∈ s.history.terminated
  | _, _, _ => True

/-! ### What a call knows between its statements -/

variable {i : Nat}

theorem stable_of_frame {P : AppState → Prop}
    (h : ∀ j s s', j ≠ i → SessionInv s → SessionFrame j s s' → P s → P s') :
    sessionContract.Stable i P :=
  fun s s' j _ _ hi hP hj hg => h j s s' hj hi (SessionAction.frame hi hg) hP

theorem lasting_of_frame {P : AppState → Prop}
    (h : ∀ j s s', SessionFrame j s s' → P s → P s') : sessionContract.Lasting P :=
  fun j _ _ s s' hi hP hg => h j s s' (SessionAction.frame hi hg) hP

theorem minted_lasting {c : TokenClaims} :
    sessionContract.Lasting fun s => c ∈ s.history.minted :=
  lasting_of_frame fun _ _ _ h hc => h.minted_mono c hc

theorem rotation_lasting {x : Uuid × Uuid × Nat} :
    sessionContract.Lasting fun s => x ∈ s.history.rotations :=
  lasting_of_frame fun _ _ _ h hx => h.rotations_mono hx

theorem terminated_lasting {x : Nat × Uuid × Nat} :
    sessionContract.Lasting fun s => x ∈ s.history.terminated :=
  lasting_of_frame fun _ _ _ h hx => h.terminated x hx

theorem checked_lasting {o : Nat} : sessionContract.Lasting fun s => o < s.history.checks :=
  lasting_of_frame fun _ _ _ h ho => lt_of_lt_of_le ho h.checks

/-- Identifiers of different calls are different. -/
theorem SessionFrame.ne_of_issued {s s' : AppState} {j : Nat} {id x : Uuid} (hi : SessionInv s)
    (_ : SessionFrame j s s') (hj : j ≠ i) (hid : (id, i) ∈ s.history.issued)
    (hx : (x, j) ∈ s.history.issued) : x ≠ id := by
  rintro rfl
  exact hj (hi.issued_once x j i hx hid)

theorem unspent_stable {id : Uuid} : sessionContract.Stable i (Unspent i id) := by
  refine stable_of_frame fun j s s' hj hi h hu => ?_
  refine ⟨h.issued_mono hu.issued, fun r' hr' => ?_, fun c hc ht => ?_, ?_, fun k u ids hk hid => ?_⟩
  · rcases h.rows r' hr' with ⟨r, hr, hl⟩ | hnew
    · exact hl.id ▸ hu.no_token r hr
    · exact h.ne_of_issued hi hj hu.issued hnew.unspent.issued
  · rcases h.minted c hc with hc | ⟨-, hsp⟩
    · exact hu.no_minted c hc ht
    · exact h.ne_of_issued hi hj hu.issued (hsp ht).issued
  · rcases h.rotations with he | ⟨o, b, hn⟩
    · simpa only [IsNew, Replaced, he] using hu.no_link
    · intro c
      rw [hn.replaced_iff, hn.replaced_iff]
      refine ⟨?_, ?_⟩
      · rintro (hc | ⟨rfl, -⟩)
        · exact (hu.no_link c).1 hc
        · exact hu.no_token o hn.mem rfl
      · rintro (hc | ⟨-, rfl⟩)
        · exact (hu.no_link c).2 hc
        · exact h.ne_of_issued hi hj hu.issued hn.unspent.issued rfl
  · by_cases hkj : k = j
    · subst hkj
      rcases h.own_terminating u ids hk with hk | hk
      · exact hu.unknown k u ids hk hid
      · obtain ⟨r, hr, hrid⟩ := hk id hid
        exact hu.no_token r hr hrid
    · exact hu.unknown k u ids ((h.terminating k hkj).symm.trans hk) hid

theorem spendable_stable {id userId : Uuid} : sessionContract.Stable i (Spendable i id userId) := by
  refine stable_of_frame fun j s s' hj hi h hu => ⟨h.issued_mono hu.issued, fun r' hr' hid => ?_⟩
  rcases h.rows r' hr' with ⟨r, hr, hl⟩ | hnew
  · exact hl.userId ▸ hu.user r hr (hl.id ▸ hid)
  · exact absurd hid (h.ne_of_issued hi hj hu.issued hnew.unspent.issued)

/-- Call `i` holds the lock on the token, which is not revoked. -/
def Locked (i : Nat) (id : Uuid) (s : AppState) : Prop :=
  (id, i) ∈ s.db.tokenLocks ∧ ∃ r ∈ s.db.refreshTokens, r.id = id ∧ r.revokedAt = none

theorem locked_stable {id : Uuid} : sessionContract.Stable i (Locked i id) := by
  rintro s s' j l e hi ⟨hk, r, hr, rfl, hv⟩ hj hg
  have h := SessionAction.frame hi hg
  exact ⟨(h.locks r.id i (Ne.symm hj)).mpr hk, r, h.kept r hr i (Ne.symm hj) hk, rfl, hv⟩

/-- Call `i` is terminating the sessions of `userId`; of the tokens `known` when it started, at
most those in `rest` are still to be revoked. -/
def Ending (i : Nat) (userId : Uuid) (known rest : List Uuid) (s : AppState) : Prop :=
  s.history.terminating i = some (userId, known) ∧ ∀ r ∈ s.db.refreshTokens, r.userId = userId →
    r.id ∈ known → r.revokedAt = none → r.id ∈ rest

theorem ending_stable {userId : Uuid} {known rest : List Uuid} :
    sessionContract.Stable i (Ending i userId known rest) := by
  refine stable_of_frame fun j s s' hj hi h ⟨hk, hr⟩ => ?_
  refine ⟨(h.terminating i (Ne.symm hj)).trans hk, fun r' hr' hu hid hv => ?_⟩
  rcases h.rows r' hr' with ⟨r, hrm, hl⟩ | hnew
  · rcases hl.active with rfl | hv'
    · exact hr r' hrm hu hid hv
    · exact absurd hv hv'
  · exact absurd hid (hnew.unspent.unknown i userId known hk)

/-! ### Statements -/

theorem sessionContract_tolerant : Tolerant sessionContract where
  stay i l e s _ hf := .quiet (.refl s) fun _ => hf
  bystander i e s s' _ h := .quiet h.sessionQuiet fun hl => by cases hl
  issue i e s _ ha := by
    obtain ⟨rfl, hf⟩ := not_issued_of_admissible ha
    exact .issue hf

/-- A database statement that has nothing to do with sessions. -/
theorem sql_quiet {A : Type} {event : Event}
    {run : Env → AppState → Except AppError A × AppState}
    (hl : event.concernsSessions = false) (h : ∀ e s, SessionQuiet s (run e s).2) :
    sessionContract.Safe i (sql event run) :=
  sql_safe sessionContract_tolerant fun s e _ _ _ => .quiet (h e s) fun hl' => by simp [hl] at hl'

theorem newUuid_unspent :
    sessionContract.Triple i (fun _ => True) newUuid (onOk fun id => Unspent i id) := by
  refine Triple.atomic stable_const (stable_onOk fun _ => unspent_stable) fun s e hi _ _ ha => ?_
  obtain ⟨rfl, hf⟩ := not_issued_of_admissible ha
  refine ⟨.issue hf, List.mem_cons_self, ?_, ?_, ?_, ?_⟩
  · exact fun r hr hid => hf (hid ▸ hi.token_issued r hr)
  · exact fun c hc ht hid => hf (hid ▸ hi.minted_issued c hc ht)
  · exact fun c => ⟨fun hc => hf (hi.rotation_issued _ _ hc).1,
      fun hc => hf (hi.rotation_issued _ _ hc).2⟩
  · exact fun k u ids hk hid => hf (hi.known_issued k u ids hk _ hid)

/-- A generated identifier does not change whose a token is. -/
theorem newUuid_keep {P : AppState → Prop} (hP : sessionContract.Stable i P)
    (hn : ∀ x s, P s → P { s with history.issued := x :: s.history.issued }) :
    sessionContract.Triple i P newUuid (onOk fun _ => P) := by
  refine Triple.atomic hP (stable_onOk fun _ => hP) fun s e hi hs _ ha => ?_
  obtain ⟨rfl, hf⟩ := not_issued_of_admissible ha
  exact ⟨.issue hf, hn _ s hs⟩

theorem createRefreshToken_triple {tokenId userId tenantId : Uuid} {expiresAt : Time}
    {origin : Nat} :
    sessionContract.Triple i (fun s => Unspent i tokenId s ∧ origin < s.history.checks)
      (createRefreshToken tokenId userId tenantId expiresAt origin)
      (onOk fun _ => Spendable i tokenId userId) := by
  have hP : sessionContract.Stable i fun s => Unspent i tokenId s ∧ origin < s.history.checks :=
    unspent_stable.and (checked_lasting.stable i)
  refine Triple.seq (utcNow_keep sessionContract_tolerant hP) fun now => ?_
  refine sql_triple sessionContract_tolerant hP (fun _ => spendable_stable) fun s e hi hs _ hf => ?_
  obtain ⟨hu, ho⟩ := hs
  let row : RefreshTokenRecord :=
    ⟨tokenId, userId, tenantId, expiresAt, none, none, now, origin⟩
  obtain ⟨t, ht⟩ := Table.insert_of_fresh (t := s.db.refreshTokens) (a := row) hu.no_token
  obtain ⟨-, hmem⟩ := Table.insert_eq_some ht
  have hg : SessionAction i (.issueToken row.userId row.origin) e s
      { s with db.refreshTokens := t } := .insert hf hu ho rfl rfl hmem rfl rfl
  rw [ht]
  refine ⟨hg, hu.issued, fun r hr hid => ?_⟩
  rcases (hmem r).mp hr with hr | rfl
  · exact absurd hid (hu.no_token r hr)
  · rfl

/-- The state of the lock statement: the rows it counts, and the lock that it takes. -/
theorem lock_triple {P : AppState → Prop} (hP : sessionContract.Stable i P)
    (hk : ∀ x s, P s → P { s with db.tokenLocks := x :: s.db.tokenLocks }) {ids : List Uuid}
    {id : Uuid} {now : Time} :
    sessionContract.Triple i P
      (Prog.atomic .quiet (tokensUnlocked ids) fun e s =>
        let n := s.db.refreshTokens.count fun t => ids.contains t.id && rotatable id now t
        if e.fault ≠ .none then (.error (databaseError e.detail), s)
        else if n = 0 then (.ok n, s)
        else (.ok n, { s with db.tokenLocks := (id, e.pid) :: s.db.tokenLocks }))
      (onOk fun n s => P s ∧ (n ≠ 0 → Locked i id s)) := by
  refine Triple.atomic hP (stable_onOk fun n => hP.and ?_) fun s e hi hs hy ha => ?_
  · by_cases hn : n = 0
    · exact fun _ _ _ _ _ _ _ _ _ h => absurd hn h
    · exact fun s s' j l e hi h hj hg _ => locked_stable s s' j l e hi (h hn) hj hg
  · obtain ⟨rfl, -⟩ := not_issued_of_admissible ha
    have hq : sessionContract.guar e.pid .quiet e s s := .quiet (.refl s) fun hl => by cases hl
    dsimp only
    split
    · exact ⟨hq, trivial⟩
    · split
      · rename_i hn
        exact ⟨hq, hs, fun h => absurd hn h⟩
      · rename_i hn
        obtain ⟨r, hr, hp⟩ := Table.count_pos.mp (Nat.pos_of_ne_zero hn)
        simp only [rotatable, Bool.and_eq_true, List.contains_eq_mem, decide_eq_true_eq,
          Option.isNone_iff_eq_none] at hp
        obtain ⟨hids, ⟨hid, hv⟩, -⟩ := hp
        have hfree : tokenLocked s id = false := by
          have := List.all_eq_true.mp hy r.id hids
          simpa [hid] using this
        exact ⟨.lock ⟨r, hr, hid, hv⟩ hfree, hk _ s hs, fun _ => ⟨List.mem_cons_self, r, hr, hid, hv⟩⟩

/-- The commit of a rotation whose old token the call has locked. -/
theorem commitRotation_action {prev : Uuid} {row : RefreshTokenRecord} {e : Env} {s : AppState}
    {c : TokenClaims} (hi : SessionInv s) (hpid : e.pid = i) (hu : Unspent i row.id s)
    (hc : c ∈ s.history.minted ∧ c.tokenType = .refresh ∧ c.jti = prev ∧ c.sub = row.userId)
    (hlk : Locked i prev s) (hr : row.revokedAt = none) (hp : row.replacedBy = none) :
    SessionAction i (.rotateToken row.userId) e s (commitRotation prev row e s).2 ∧
      onOk (X := AppError) (fun _ s => (prev, row.id, i) ∈ s.history.rotations ∧
        Spendable i row.id row.userId s)
        (commitRotation prev row e s).1 (commitRotation prev row e s).2 := by
  subst hpid
  obtain ⟨hlock, old, hm, rfl, hv⟩ := hlk
  obtain ⟨hcm, hct, hcj, hcs⟩ := hc
  have hfind : s.db.refreshTokens.find? old.id = some old := Table.find?_eq_some.mpr ⟨hm, rfl⟩
  simp only [commitRotation, hfind, Option.map_some, Option.getD_some]
  split
  · rename_i t ht
    obtain ⟨-, hmem⟩ := Table.insert_eq_some ht
    have ht' : ∀ r, r ∈ t ↔ (∃ r₀ ∈ s.db.refreshTokens,
        r = if r₀.id = old.id then Db.rotated row.createdAt row.id r₀ else r₀) ∨
          r = { row with origin := old.origin } := by
      intro r
      rw [hmem]
      simp only [Table.mem_update, decide_eq_true_eq]
    have hus : row.userId = old.userId := by
      rw [← hcs]
      exact (hi.minted_user c hcm hct old hm hcj.symm).symm
    let next : RefreshTokenRecord := { row with origin := old.origin }
    have hn : Unspent e.pid next.id s := hu
    refine ⟨.rotate hlock hm hv hn hus rfl hr hp ht' rfl rfl, List.mem_cons_self, hu.issued, ?_⟩
    intro r hrm hid
    rcases (ht' r).mp hrm with ⟨r₀, h₀, rfl⟩ | rfl
    · refine absurd ?_ (hu.no_token r₀ h₀)
      rw [← hid]
      split <;> rfl
    · rfl
  · exact ⟨.unlock, trivial⟩

theorem rotateRefreshToken_triple {prev next userId tenantId : Uuid} {expiresAt : Time}
    {c : TokenClaims} (hct : c.tokenType = .refresh) (hcj : c.jti = prev) (hcs : c.sub = userId) :
    sessionContract.Triple i (fun s => Unspent i next s ∧ c ∈ s.history.minted)
      (rotateRefreshToken prev next userId tenantId expiresAt)
      (onOk fun _ s => (prev, next, i) ∈ s.history.rotations ∧ Spendable i next userId s) := by
  have hP : sessionContract.Stable i fun s => Unspent i next s ∧ c ∈ s.history.minted :=
    unspent_stable.and (minted_lasting.stable i)
  refine Triple.seq (utcNow_keep sessionContract_tolerant hP) fun now => ?_
  have hsnap : sessionContract.Triple i (fun s => Unspent i next s ∧ c ∈ s.history.minted)
      (tokenSnapshot (fun _ => rotatable prev now) fun _ s => s.history)
      (onOk fun _ s => Unspent i next s ∧ c ∈ s.history.minted) :=
    Triple.atomic hP (stable_onOk fun _ => hP) fun s e _ hs _ _ =>
      ⟨.quiet (.refl s) (fun hl => by cases hl), hs⟩
  refine Triple.seq hsnap fun snap => ?_
  refine Triple.seq (lock_triple hP fun _ _ h => ⟨⟨h.1.1, h.1.2, h.1.3, h.1.4, h.1.5⟩, h.2⟩)
    fun n => ?_
  refine Triple.seq (Triple.ensure (hP.and ?_)) fun _ => ?_
  · by_cases hn : n = 0
    · exact fun _ _ _ _ _ _ _ _ _ h => absurd hn h
    · exact fun s s' j l e hi h hj hg _ => locked_stable s s' j l e hi (h hn) hj hg
  by_cases hn : n = 0
  · refine Triple.pre (P := fun _ => False) (fun _ _ h => h.elim) fun s _ h => ?_
    simp [hn] at h
  · refine Triple.pre (P := fun s => (Unspent i next s ∧ c ∈ s.history.minted) ∧ Locked i prev s) ?_
      fun s _ h => ⟨h.2.1, h.2.2 hn⟩
    refine Triple.atomic (hP.and locked_stable)
      (stable_onOk fun _ => (rotation_lasting.stable i).and spendable_stable) fun s e hi hs _ ha => ?_
    obtain ⟨⟨hu, hc⟩, hlk⟩ := hs
    obtain ⟨hpid, -⟩ := not_issued_of_admissible ha
    let row : RefreshTokenRecord := ⟨next, userId, tenantId, expiresAt, none, none, now, 0⟩
    have hu : Unspent i row.id s := hu
    have hcommit := commitRotation_action (e := e) hi hpid hu ⟨hc, hct, hcj, hcs⟩ hlk rfl rfl
    cases hf : e.fault with
    | none => exact hcommit
    | failed =>
        refine ⟨?_, trivial⟩
        rw [hpid]
        exact .unlock
    | lost => exact ⟨hcommit.1, trivial⟩

/-- A revocation or purge waits for the locks on the rows that it is to change. -/
theorem unlocked_of_ready {ids : List Uuid} {s : AppState} (hy : tokensUnlocked ids s = true)
    {b : Bool} {r : RefreshTokenRecord} (hp : (ids.contains r.id && b) = true) : tokenLocked s r.id = false := by
  simp only [Bool.and_eq_true, List.contains_eq_mem, decide_eq_true_eq] at hp
  simpa using List.all_eq_true.mp hy r.id hp.1

theorem tokenSnapshot_safe {clause : Time → RefreshTokenRecord → Bool} :
    sessionContract.Safe i (tokenSnapshot clause fun _ s => s.history) :=
  .atomic fun s _ _ _ _ => .quiet (.refl s) fun hl => by cases hl

theorem revokeTokens_safe {clause : Time → RefreshTokenRecord → Bool} {now : Time} :
    sessionContract.Safe i (revokeTokens clause (fun _ s => s.history) now) :=
  .bind tokenSnapshot_safe fun _ => sqlWhen_safe sessionContract_tolerant fun _ _ _ hy _ _ =>
    .revoke fun _ _ hp => unlocked_of_ready hy hp

theorem purgeStaleRefreshTokens_safe {days : Nat} :
    sessionContract.Safe i (Db.purgeStaleRefreshTokens days) :=
  .bind tokenSnapshot_safe fun _ => sqlWhen_safe sessionContract_tolerant fun _ _ _ hy _ _ =>
    .purge fun _ _ hp => unlocked_of_ready hy hp

/-- The revocation of all tokens of a user leaves none of those it found active. -/
theorem revokeAllUserRefreshTokens_triple {userId : Uuid} :
    sessionContract.Triple i (fun _ => True) (revokeAllUserRefreshTokens userId)
      (onOk fun _ s => ∃ known, Ending i userId known [] s) := by
  refine Triple.seq (utcNow_keep sessionContract_tolerant stable_const) fun now => ?_
  refine Triple.seq (Q := fun _ s => ∃ known, Ending i userId known [] s) ?_ fun _ =>
    Triple.done (stable_exists fun _ => ending_stable) fun _ _ h => h
  refine Triple.seq (Q := fun r s => ∃ known, Ending i userId known r.2 s) ?_ fun snap => ?_
  · refine Triple.atomic stable_const
      (stable_onOk fun _ => stable_exists fun _ => ending_stable) fun s e _ _ _ ha => ?_
    obtain ⟨rfl, -⟩ := not_issued_of_admissible ha
    refine ⟨.snapshot, s.db.refreshTokens.rows.map (·.id), by simp, fun r hr hu _ hv => ?_⟩
    exact List.mem_map.mpr ⟨r, Table.mem_select.mpr ⟨hr, by simp [hu, hv]⟩, rfl⟩
  · refine sqlWhen_triple sessionContract_tolerant (stable_exists fun _ => ending_stable)
      (fun _ => stable_exists fun _ => ending_stable) fun s e _ hs hy _ _ => ?_
    obtain ⟨known, hk, hr⟩ := hs
    refine ⟨.revoke fun _ _ hp => unlocked_of_ready hy hp, known, hk, fun r' hr' hu hid hv => ?_⟩
    simp only [Table.mem_update] at hr'
    obtain ⟨r, hrm, rfl⟩ := hr'
    split at hv
    · simp [coalesceRevoked] at hv
    · rename_i hnp
      simp only [hnp] at hu hid
      refine absurd ?_ hnp
      simp [hr r hrm hu hid hv, show r.userId = userId from hu,
        show r.revokedAt = none from hv]

/-! ### Functions that have nothing to do with sessions -/

theorem createUserWithTenant_safe {email passwordHash tenantName : String} :
    sessionContract.Safe i (createUserWithTenant email passwordHash tenantName) := by
  refine .bind (utcNow_safe sessionContract_tolerant) fun now => ?_
  refine .bind (newUuid_safe sessionContract_tolerant) fun userId => ?_
  refine .bind (newUuid_safe sessionContract_tolerant) fun tenantId => sql_quiet rfl fun e s => ?_
  dsimp only
  split
  · exact .refl s
  · split
    · constructor <;> rfl
    · exact .refl s

theorem updateUser_safe {event : Event} {userId : Uuid} {f : Env → UserRecord → UserRecord}
    {hf : ∀ e, Table.KeepsKey UserRecord.id (f e)} (hl : event.concernsSessions = false) :
    sessionContract.Safe i (updateUser event userId f hf) := by
  refine sql_quiet hl fun e s => ?_
  dsimp only
  split
  · exact .refl s
  · constructor <;> rfl

theorem createUserToken_safe {userId : Uuid} {kind : TokenKind} {tokenHash address : String}
    {expiresAt : Time} :
    sessionContract.Safe i (createUserToken userId kind tokenHash expiresAt address) := by
  refine .bind (select_safe sessionContract_tolerant) fun pending => ?_
  refine .bind (newUuid_safe sessionContract_tolerant) fun id => sql_quiet rfl fun e s => ?_
  dsimp only
  split
  · exact .refl s
  · split
    · constructor <;> rfl
    · exact .refl s

theorem consumeUserToken_safe {kind : TokenKind} {tokenHash : String} :
    sessionContract.Safe i (consumeUserToken kind tokenHash) := by
  refine sql_quiet rfl fun e s => ?_
  dsimp only
  split
  · exact .refl s
  · simp only [Db.History.afterConsumption]
    split <;> constructor <;> rfl

theorem enqueueNotification_quiet {n : NewNotification} {maxAttempts : Nat} :
    sessionContract.Safe i (enqueueNotification n maxAttempts) :=
  enqueue_safe sessionContract_tolerant fun _ _ _ _ _ _ _ =>
    .quiet (by constructor <;> rfl) fun hl => by cases hl

theorem sendVerificationEmail_safe {app : App} {user : UserRecord} :
    sessionContract.Safe i (sendVerificationEmail app user) :=
  .ite (fun _ => .done) fun _ => .bind (.attempt (
    .bind (generateRandom_safe sessionContract_tolerant) fun _ =>
    .bind (utcNow_safe sessionContract_tolerant) fun _ =>
    .bind createUserToken_safe fun _ =>
    .bind enqueueNotification_quiet fun _ => .done)) fun _ => .done

theorem audit_safe {tenantId actorUserId : Option Uuid} {subjectType : String}
    {subjectId : Option Uuid} {eventType : String} {payload : Value} :
    sessionContract.Safe i (recordEvent tenantId actorUserId subjectType subjectId eventType payload) :=
  recordEvent_safe sessionContract_tolerant

theorem noteReported_safe {provider email : String} {identity : OAuthIdentity} :
    sessionContract.Safe i (noteReported provider identity email) := by
  refine .atomic fun s e _ _ _ => .quiet ?_ fun hl => by cases hl
  cases hv : identity.emailVerified with
  | false => exact .refl s
  | true => constructor <;> rfl

theorem linkOAuthAccount_safe {userId : Uuid} {provider subject : String} :
    sessionContract.Safe i (linkOAuthAccount userId provider subject) := by
  refine .bind (newUuid_safe sessionContract_tolerant) fun id => ?_
  refine .bind (utcNow_safe sessionContract_tolerant) fun now => sql_quiet rfl fun e s => ?_
  dsimp only
  split
  · exact .refl s
  · split
    · constructor <;> rfl
    · exact .refl s

/-! ### Sessions -/

theorem credentialCheck_triple :
    sessionContract.Triple i (fun _ => True) credentialCheck
      (onOk fun o s => o < s.history.checks) :=
  Triple.atomic stable_const (stable_onOk fun _ => checked_lasting.stable i) fun _ _ _ _ _ _ =>
    ⟨.check, Nat.lt_succ_self _⟩

/-- An accepted token was signed here, and is of the type expected. -/
theorem decodeToken_triple {token : Jwt} {expectedType : TokenType} :
    sessionContract.Triple i (fun _ => True) (decodeToken token expectedType)
      (onOk fun c s => c = token ∧ c.tokenType = expectedType ∧ c ∈ s.history.minted ∧
        c.origin < s.history.checks) := by
  refine Triple.atomic stable_const (stable_onOk fun c => stable_const.and (stable_const.and
    ((minted_lasting.stable i).and (checked_lasting.stable i)))) fun s e hi _ _ _ => ?_
  have hq : sessionContract.guar i .quiet e s s := .quiet (.refl s) fun hl => by cases hl
  split
  · rename_i hm
    split
    · rename_i ht
      exact ⟨hq, rfl, ht, hm.1, hi.minted_origin token hm.1⟩
    · exact ⟨hq, trivial⟩
  · exact ⟨hq, trivial⟩

theorem issueTokenPair_safe {app : App} {user : UserRecord} {membership : MembershipRecord}
    {id : Uuid} {origin : Nat} :
    sessionContract.Triple i (fun s => Spendable i id user.id s ∧ origin < s.history.checks)
      (issueTokenPair app user membership id origin) fun _ _ => True := by
  have hP : sessionContract.Stable i fun s => Spendable i id user.id s ∧ origin < s.history.checks :=
    spendable_stable.and (checked_lasting.stable i)
  refine Triple.bind (utcNow_keep sessionContract_tolerant hP) (fun now => ?_)
    fun _ _ _ _ => trivial
  refine Triple.bind (newUuid_keep hP fun x s h =>
    ⟨⟨List.mem_cons_of_mem _ h.1.issued, h.1.user⟩, h.2⟩) (fun jti => ?_) fun _ _ _ _ => trivial
  refine Triple.bind (Q := fun _ _ => True) ?_ (fun _ => Safe.done) fun _ _ _ _ => trivial
  refine Triple.atomic hP (fun _ => stable_const) fun s e _ hs _ _ => ⟨.mint ?_ ?_, trivial⟩
  · simp only [List.mem_cons, List.not_mem_nil, or_false]
    rintro c (rfl | rfl)
    · exact hs.2
    · exact hs.2
  · simp only [List.mem_cons, List.not_mem_nil, or_false]
    rintro c (rfl | rfl) ht
    · cases ht
    · exact hs.1

theorem issueNewSession_safe {app : App} {user : UserRecord} {membership : MembershipRecord}
    {origin : Nat} :
    sessionContract.Triple i (fun s => origin < s.history.checks)
      (issueNewSession app user membership origin) fun _ _ => True := by
  have hid : sessionContract.Triple i (fun s => origin < s.history.checks) newUuid
      (onOk fun id s => Unspent i id s ∧ origin < s.history.checks) := by
    refine ((newUuid_unspent.keep checked_lasting).pre fun s _ h => ⟨trivial, h⟩).post ?_
    rintro (x | id) s - ⟨h, ho⟩
    · trivial
    · exact ⟨h, ho⟩
  refine Triple.bind hid (fun id => ?_) fun _ _ _ _ => trivial
  have hP : sessionContract.Stable i fun s => Unspent i id s ∧ origin < s.history.checks :=
    unspent_stable.and (checked_lasting.stable i)
  refine Triple.bind (refreshExpiry_keep sessionContract_tolerant hP) (fun expiresAt => ?_) fun _ _ _ _ => trivial
  · refine Triple.bind (Q := onOk fun _ s => Spendable i id user.id s ∧ origin < s.history.checks)
      ?_ (fun _ => Triple.bind issueTokenPair_safe (fun _ => Safe.done) fun _ _ _ _ => trivial)
      fun _ _ _ _ => trivial
    refine ((createRefreshToken_triple.keep checked_lasting).pre fun s _ h => ⟨h, h.2⟩).post ?_
    rintro (x | _) s - ⟨h, ho⟩
    · trivial
    · exact ⟨h, ho⟩

/-- A request that opens a session after a credential check. -/
theorem loginVerified_safe {app : App} {user : UserRecord} {tenantId : Option Uuid} :
    sessionContract.Safe i (loginVerified app user tenantId) :=
  Triple.bind credentialCheck_triple
    (fun _ => Safe.carry_bind .ensure checked_lasting fun _ =>
      Safe.carry_bind (resolveMembership_safe sessionContract_tolerant) checked_lasting fun _ =>
      Safe.carry_bind audit_safe checked_lasting fun _ => issueNewSession_safe)
    fun _ _ _ _ => trivial

theorem register_safe {app : App} {email password : String} {tenantName : Option String} :
    sessionContract.Safe i (Fluxa.register app email password tenantName) :=
  .bind (hashPassword_safe sessionContract_tolerant) fun _ => Triple.bind credentialCheck_triple
    (fun _ => Safe.carry_bind createUserWithTenant_safe checked_lasting fun _ =>
      Safe.carry_bind sendVerificationEmail_safe checked_lasting fun _ =>
      Safe.carry_bind audit_safe checked_lasting fun _ => issueNewSession_safe)
    fun _ _ _ _ => trivial

theorem login_safe {app : App} {email password : String} {tenantId : Option Uuid} :
    sessionContract.Safe i (Fluxa.login app email password tenantId) := by
  refine .bind (select_safe sessionContract_tolerant) fun o => ?_
  cases o with
  | none => exact .bind audit_safe fun _ => .fail
  | some user =>
      dsimp only
      split
      · exact .bind audit_safe fun _ => .fail
      · exact loginVerified_safe

theorem markIfReported_safe {identity : OAuthIdentity} {email : String} {user : UserRecord} :
    sessionContract.Safe i (markIfReported identity email user) :=
  .ite (fun _ => updateUser_safe rfl) fun _ => .done

theorem loginLinked_safe {app : App} {provider email : String} {identity : OAuthIdentity}
    {tenantId : Option Uuid} {origin : Nat} {userId : Uuid} :
    sessionContract.Triple i (fun s => origin < s.history.checks)
      (loginLinked app provider identity email tenantId origin userId) fun _ _ => True :=
  Safe.carry_bind (getUserById_safe sessionContract_tolerant) checked_lasting fun _ =>
    Safe.carry_bind markIfReported_safe checked_lasting fun _ =>
    Safe.carry_bind .ensure checked_lasting fun _ =>
    Safe.carry_bind (resolveMembership_safe sessionContract_tolerant) checked_lasting fun _ =>
    Safe.carry_bind audit_safe checked_lasting fun _ => issueNewSession_safe

theorem linkAndLogin_safe {app : App} {provider email : String} {identity : OAuthIdentity}
    {tenantId : Option Uuid} {origin : Nat} {user : UserRecord} :
    sessionContract.Triple i (fun s => origin < s.history.checks)
      (linkAndLogin app provider identity email tenantId origin user) fun _ _ => True :=
  Safe.carry_bind linkOAuthAccount_safe checked_lasting fun _ =>
    Safe.carry_bind (updateUser_safe rfl) checked_lasting fun _ =>
    Safe.carry_bind (resolveMembership_safe sessionContract_tolerant) checked_lasting fun _ =>
    Safe.carry_bind audit_safe checked_lasting fun _ =>
    Safe.carry_bind audit_safe checked_lasting fun _ => issueNewSession_safe

theorem provisionAndLogin_safe {app : App} {provider email : String} {identity : OAuthIdentity}
    {tenantName : Option String} {origin : Nat} :
    sessionContract.Triple i (fun s => origin < s.history.checks)
      (provisionAndLogin app provider identity email tenantName origin) fun _ _ => True :=
  Safe.carry_bind (generateRandom_safe sessionContract_tolerant) checked_lasting fun _ =>
    Safe.carry_bind (hashPassword_safe sessionContract_tolerant) checked_lasting fun _ =>
    Safe.carry_bind createUserWithTenant_safe checked_lasting fun _ =>
    Safe.carry_bind linkOAuthAccount_safe checked_lasting fun _ =>
    Safe.carry_bind (updateUser_safe rfl) checked_lasting fun _ =>
    Safe.carry_bind audit_safe checked_lasting fun _ =>
    Safe.carry_bind audit_safe checked_lasting fun _ => issueNewSession_safe

theorem oauthLogin_safe {app : App} {provider : String} {tenantId : Option Uuid}
    {tenantName : Option String} :
    sessionContract.Safe i (Fluxa.oauthLogin app provider tenantId tenantName) := by
  refine .bind .ensure fun _ => .bind .ensure fun _ => .bind (exchangeCode_safe sessionContract_tolerant) fun _ => ?_
  refine .bind (fetchIdentity_safe sessionContract_tolerant) fun identity => ?_
  refine Triple.bind credentialCheck_triple (fun origin => ?_) fun _ _ _ _ => trivial
  generalize normalizeIdentityEmail identity.email = r
  refine Safe.carry_bind lift_safe checked_lasting fun email => ?_
  refine Safe.carry_bind noteReported_safe checked_lasting fun _ => ?_
  refine Safe.carry_bind (select_safe sessionContract_tolerant) checked_lasting fun o => ?_
  cases o with
  | some userId => exact loginLinked_safe
  | none =>
      refine Safe.carry_bind .ensure checked_lasting fun _ => ?_
      refine Safe.carry_bind (select_safe sessionContract_tolerant) checked_lasting fun o => ?_
      cases o with
      | some user => exact linkAndLogin_safe
      | none => exact provisionAndLogin_safe

/-- A token that is read has an origin among the checks so far. -/
theorem getRefreshToken_triple {id : Uuid} {F : AppState → Prop}
    (hF : sessionContract.Lasting F) :
    sessionContract.Triple i F (getRefreshToken id)
      (onOk fun o s => F s ∧ ∀ r, o = some r → r.origin < s.history.checks) := by
  have hst : ∀ o : Option RefreshTokenRecord, sessionContract.Stable i
      fun s => F s ∧ ∀ r, o = some r → r.origin < s.history.checks := fun o =>
    (hF.stable i).and fun s s' j l e hi h hj hg r hr =>
      checked_lasting.stable i s s' j l e hi (h r hr) hj hg
  refine sql_triple sessionContract_tolerant (hF.stable i) hst fun s e hi hs _ _ =>
    ⟨.quiet (.refl s) (fun hl => by cases hl), hs, fun r hr => ?_⟩
  exact hi.token_origin r (Table.find?_eq_some.mp hr).1

/-- The rotation of a refresh and what follows it. -/
theorem refresh_rotation {app : App} {c : TokenClaims} {user : UserRecord}
    {membership : MembershipRecord} {origin : Nat} (hct : c.tokenType = .refresh)
    (hcs : c.sub = user.id) :
    sessionContract.Triple i (fun s => c ∈ s.history.minted ∧ origin < s.history.checks)
      (do
        let nextRefreshId ← newUuid
        let expiresAt ← refreshExpiry app
        rotateRefreshToken c.jti nextRefreshId user.id membership.tenantId expiresAt
        let tokens ← issueTokenPair app user membership nextRefreshId origin
        recordEvent (some membership.tenantId) (some user.id) "user" (some user.id)
          "auth.token_refreshed" (.obj [])
        return AuthSession.of tokens user membership)
      (onOk fun _ s => ∃ b, (c.jti, b, i) ∈ s.history.rotations) := by
  have hF : sessionContract.Lasting fun s => c ∈ s.history.minted ∧ origin < s.history.checks :=
    minted_lasting.and checked_lasting
  refine Triple.seq (Q := fun id s => Unspent i id s ∧
    (c ∈ s.history.minted ∧ origin < s.history.checks)) ?_ fun next => ?_
  · refine ((newUuid_unspent.keep hF).pre fun s _ h => ⟨trivial, h⟩).post ?_
    rintro (x | id) s - ⟨h, ho⟩
    · trivial
    · exact ⟨h, ho⟩
  have hP : sessionContract.Stable i fun s => Unspent i next s ∧
      (c ∈ s.history.minted ∧ origin < s.history.checks) := unspent_stable.and (hF.stable i)
  refine Triple.seq (refreshExpiry_keep sessionContract_tolerant hP) fun expiresAt => ?_
  refine Triple.seq (Q := fun _ s => ((c.jti, next, i) ∈ s.history.rotations ∧
    Spendable i next user.id s) ∧ origin < s.history.checks) ?_ fun _ => ?_
  · refine (((rotateRefreshToken_triple hct rfl hcs).keep checked_lasting).pre
      fun s _ h => ⟨⟨h.1, h.2.1⟩, h.2.2⟩).post ?_
    rintro (x | _) s - ⟨h, ho⟩
    · trivial
    · exact ⟨h, ho⟩
  refine Triple.seq (Q := fun _ s => (c.jti, next, i) ∈ s.history.rotations) ?_ fun tokens => ?_
  · refine ((issueTokenPair_safe.keep rotation_lasting).pre
      fun s _ h => ⟨⟨h.1.2, h.2⟩, h.1.1⟩).post ?_
    rintro (x | _) s - ⟨-, h⟩
    · trivial
    · exact h
  refine Safe.carry_seq audit_safe rotation_lasting fun _ => ?_
  exact Triple.done (rotation_lasting.stable i) fun _ _ h => ⟨next, h⟩

/-- A refresh that succeeds has rotated the token presented. -/
theorem refresh_triple {app : App} {token : Jwt} {tenantId : Option Uuid} :
    sessionContract.Triple i (fun _ => True) (Fluxa.refresh app token tenantId)
      (onOk fun _ s => ∃ b, (token.jti, b, i) ∈ s.history.rotations) := by
  refine Triple.seq decodeToken_triple fun c => ?_
  refine Triple.of_fact fun hc => Triple.of_fact fun hct => ?_
  subst hc
  refine Triple.pre (P := fun s => c ∈ s.history.minted) ?_ fun s _ h => h.1
  refine Triple.seq (getRefreshToken_triple minted_lasting) fun o => ?_
  cases o with
  | none => exact .fail
  | some recorded =>
      have hF : sessionContract.Lasting fun s =>
          c ∈ s.history.minted ∧ recorded.origin < s.history.checks :=
        minted_lasting.and checked_lasting
      refine Triple.pre (P := fun s => c ∈ s.history.minted ∧ recorded.origin < s.history.checks) ?_
        fun s _ h => ⟨h.1, h.2 recorded rfl⟩
      refine Safe.carry_seq (utcNow_safe sessionContract_tolerant) hF fun now => ?_
      refine Safe.carry_seq .ensure hF fun _ => ?_
      refine Triple.seq (Q := fun u s => u.id = c.sub ∧
        (c ∈ s.history.minted ∧ recorded.origin < s.history.checks)) ?_ fun user => ?_
      · refine (((getUserById_triple sessionContract_tolerant).keep hF).pre
          fun s _ h => ⟨trivial, h⟩).post ?_
        rintro (x | u) s - ⟨hu, h⟩
        · trivial
        · exact ⟨hu, h⟩
      refine Triple.of_fact fun hu => ?_
      refine Safe.carry_seq .ensure hF fun _ => ?_
      refine Safe.carry_seq (resolveMembership_safe sessionContract_tolerant) hF fun membership => ?_
      exact refresh_rotation hct hu.symm

/-! ### Revocations and terminations -/

/-- The refresh tokens, and the terminations under way, are as they were. -/
def Calm (_ : Event) (_ : Env) (s s' : AppState) : Prop :=
  s'.db.refreshTokens = s.db.refreshTokens ∧ s'.history.terminating = s.history.terminating

/-- The contract for what a termination does after the revocation. -/
abbrev calmContract (i : Nat) : Contract Event Env AppState := sessionContract.within i Calm

theorem calmContract_tolerant : Tolerant (calmContract i) :=
  sessionContract_tolerant.within (fun _ _ _ => ⟨rfl, rfl⟩)
    (fun _ _ _ h => ⟨h.refreshTokens, by rw [h.history]⟩) fun _ _ => ⟨rfl, rfl⟩

theorem quiet_calm {e : Env} {s s' : AppState} (h : SessionQuiet s s') :
    (calmContract i).guar i .quiet e s s' :=
  ⟨.quiet h (fun hl => by cases hl), fun _ => ⟨h.tokens, h.terminating⟩⟩

theorem ended_lasting {userId : Uuid} {known rest : List Uuid} :
    (calmContract i).Lasting (Ending i userId known rest) := by
  rintro j l e s s' hi hs ⟨hg, hw⟩
  by_cases hj : j = i
  · obtain ⟨ht, hk⟩ := hw hj
    rw [Ending, ht, hk]
    exact hs
  · exact ending_stable s s' j l e hi hs hj hg

theorem denyAccessToken_calm {token : Jwt} : (calmContract i).Safe i (denyAccessToken token) := by
  have hdecode : (calmContract i).Safe i (decodeAccessToken token) := by
    refine .atomic fun s e _ _ _ => ?_
    have hq : (calmContract i).guar i .quiet e s s := quiet_calm (.refl s)
    split
    · split <;> exact hq
    · exact hq
  refine .bind hdecode.attempt fun r => ?_
  cases r with
  | error x => exact .done
  | ok c =>
      refine .bind (utcNow_safe calmContract_tolerant.toPatient) fun now => ?_
      refine .ite (fun _ => .done) fun _ => redis_safe calmContract_tolerant.toPatient fun s e _ _ => ?_
      exact quiet_calm (by constructor <;> rfl)

theorem logout_safe {refreshToken : Jwt} {accessToken : Option Jwt} :
    sessionContract.Safe i (Fluxa.logout refreshToken accessToken) := by
  refine .bind decodeToken_triple.safe fun c => ?_
  refine .bind (.bind (utcNow_safe sessionContract_tolerant) fun _ =>
    .bind revokeTokens_safe fun _ => .done) fun _ => .bind audit_safe fun _ => ?_
  cases accessToken with
  | none => exact .done
  | some token => exact Triple.of_within denyAccessToken_calm

/-- A signed-in user is the one that the access token names. -/
theorem protectedMiddleware_triple {bearer : Jwt} :
    sessionContract.Triple i (fun _ => True) (protectedMiddleware bearer)
      (onOk fun u s => u.userId = bearer.sub ∧ u.origin < s.history.checks) := by
  refine Triple.seq decodeToken_triple fun c => ?_
  refine Triple.of_fact fun hc => ?_
  subst hc
  refine Triple.pre (P := fun s => c.origin < s.history.checks) ?_ fun s _ h => h.2.2
  refine Safe.carry_seq (redis_safe sessionContract_tolerant.toPatient fun s e _ _ =>
    .quiet (.refl s) fun hl => by cases hl) checked_lasting fun denied => ?_
  refine Safe.carry_seq .ensure checked_lasting fun _ => ?_
  refine Safe.carry_seq (select_safe sessionContract_tolerant) checked_lasting fun o => ?_
  refine Safe.carry_seq .okOr checked_lasting fun membership => ?_
  exact Triple.done (checked_lasting.stable i) fun _ _ h => ⟨rfl, h⟩

theorem switchTenant_safe {app : App} {bearer : Jwt} {tenantId : Uuid} :
    sessionContract.Safe i (Http.switchTenant app bearer tenantId) := by
  refine Triple.bind protectedMiddleware_triple (fun user => ?_) fun _ _ _ _ => trivial
  refine Triple.of_fact fun _ => ?_
  exact Safe.carry_bind (getUserById_safe sessionContract_tolerant) checked_lasting fun _ =>
    Safe.carry_bind (select_safe sessionContract_tolerant) checked_lasting fun _ =>
    Safe.carry_bind .okOr checked_lasting fun _ => issueNewSession_safe

theorem revokeSession_safe {app : App} {bearer : Jwt} {sessionId : Uuid} :
    sessionContract.Safe i (Http.revokeSession app bearer sessionId) :=
  .bind protectedMiddleware_triple.safe fun _ =>
    .bind (.bind (utcNow_safe sessionContract_tolerant) fun _ =>
      .bind revokeTokens_safe fun _ => .done) fun _ =>
    .bind .ensure fun _ => audit_safe

theorem removeMember_keepsSessions {tenantId actorUserId targetUserId : Uuid}
    {actorRole : MembershipRole} :
    sessionContract.Safe i (Fluxa.removeMember tenantId actorRole actorUserId targetUserId) := by
  refine removeMember_of ?_ (sql_quiet rfl fun e s => by constructor <;> rfl) ?_
  · exact sessionContract_tolerant.lenient.discreet
  · exact .bind (utcNow_safe sessionContract_tolerant) fun _ => .bind revokeTokens_safe fun _ => .done

/-- What is done after the revocation leaves the user's sessions ended. -/
theorem ended_after {A : Type} {userId : Uuid} {p : Service A} (hp : (calmContract i).Safe i p) :
    sessionContract.Triple i (fun s => ∃ known, Ending i userId known [] s) p
      (onOk fun _ s => ∃ known, Ending i userId known [] s) :=
  (hp.carry (lasting_exists fun _ => ended_lasting)).of_within

theorem audit_calm {tenantId actorUserId : Option Uuid} {subjectType : String}
    {subjectId : Option Uuid} {eventType : String} {payload : Value} :
    (calmContract i).Safe i
      (recordEvent tenantId actorUserId subjectType subjectId eventType payload) :=
  recordEvent_safe calmContract_tolerant.lenient.discreet

theorem logoutAll_triple {bearer : Jwt} :
    sessionContract.Triple i (fun _ => True) (Http.logoutAllSessions bearer)
      (onOk fun _ s => ∃ known, Ending i bearer.sub known [] s) := by
  refine Triple.seq protectedMiddleware_triple fun user => Triple.of_fact fun hu => ?_
  refine Triple.pre (P := fun _ => True) ?_ fun _ _ _ => trivial
  rw [← hu]
  refine Triple.seq revokeAllUserRefreshTokens_triple fun _ => ?_
  exact Triple.seq (ended_after denyAccessToken_calm) fun _ => ended_after audit_calm

theorem changePassword_triple {app : App} {bearer : Jwt} {currentPassword newPassword : String} :
    sessionContract.Triple i (fun _ => True)
      (Http.changePassword app bearer currentPassword newPassword)
      (onOk fun _ s => ∃ known, Ending i bearer.sub known [] s) := by
  refine Triple.seq protectedMiddleware_triple fun user => Triple.of_fact fun hu => ?_
  refine Triple.pre (P := fun _ => True) ?_ fun _ _ _ => trivial
  rw [← hu]
  generalize validatePassword newPassword = valid
  refine Safe.carry_seq lift_safe lasting_const fun _ => ?_
  refine Triple.seq (getUserById_triple sessionContract_tolerant) fun u => ?_
  refine Triple.pre (P := fun _ => u.id = user.userId ∧ True) ?_ fun _ _ h => ⟨h, trivial⟩
  refine Triple.of_fact fun hid => ?_
  rw [← hid]
  refine Safe.carry_seq lift_safe lasting_const fun _ => ?_
  refine Safe.carry_seq (hashPassword_safe sessionContract_tolerant) lasting_const fun _ => ?_
  refine Safe.carry_seq (updateUser_safe rfl) lasting_const fun _ => ?_
  exact Triple.seq revokeAllUserRefreshTokens_triple fun _ => ended_after audit_calm

theorem confirmPasswordReset_triple {app : App} {token newPassword : String} :
    sessionContract.Triple i (fun _ => True) (Http.confirmPasswordReset app token newPassword)
      (onOk fun _ s => ∃ u known, Ending i u known [] s) := by
  refine Safe.carry_seq .ensure lasting_const fun _ => ?_
  generalize validatePassword newPassword = valid
  refine Safe.carry_seq lift_safe lasting_const fun _ => ?_
  refine Safe.carry_seq consumeUserToken_safe lasting_const fun record => ?_
  refine Safe.carry_seq (hashPassword_safe sessionContract_tolerant) lasting_const fun _ => ?_
  refine Safe.carry_seq (updateUser_safe rfl) lasting_const fun user => ?_
  refine Triple.seq revokeAllUserRefreshTokens_triple fun _ => ?_
  exact (ended_after audit_calm).post fun r s _ h => by
    cases r with
    | ok _ => exact ⟨user.id, h⟩
    | error _ => trivial

/-- A termination that returns is noted with its user. -/
theorem closing_triple {p : Service Unit} {φ : Uuid → Prop}
    (hp : sessionContract.Triple i (fun _ => True) p
      (onOk fun _ s => ∃ u, φ u ∧ ∃ known, Ending i u known [] s)) :
    sessionContract.Triple i (fun _ => True) (closing p)
      (onOk fun _ s => ∃ u, φ u ∧ ∃ k, (i, u, k) ∈ s.history.terminated) := by
  have hQ : sessionContract.Stable i
      fun s => ∃ u, φ u ∧ ∃ k, (i, u, k) ∈ s.history.terminated :=
    stable_exists fun _ => stable_const.and (stable_exists fun _ => terminated_lasting.stable i)
  have hE : sessionContract.Stable i fun s => ∃ u, φ u ∧ ∃ known, Ending i u known [] s :=
    stable_exists fun _ => stable_const.and (stable_exists fun _ => ending_stable)
  refine Triple.seq hp.attempt fun r => ?_
  cases r with
  | error x =>
      refine Triple.pre (P := fun _ => True) ?_ fun _ _ _ => trivial
      refine Safe.carry_seq (.atomic fun s e _ _ ha => ?_) lasting_const fun _ => .fail
      obtain ⟨rfl, -⟩ := not_issued_of_admissible ha
      exact .abandoned
  | ok _ =>
      refine Triple.atomic hE (stable_onOk fun _ => hQ) fun s e _ hs _ ha => ?_
      obtain ⟨rfl, -⟩ := not_issued_of_admissible ha
      obtain ⟨u, hu, known, hk, hr⟩ := hs
      refine ⟨.returned fun u' ids hk' r hrm hru hid hv => ?_, u, hu, s.history.checks, ?_⟩
      · obtain ⟨rfl, rfl⟩ := Prod.mk.inj (Option.some.inj (hk.symm.trans hk'))
        exact absurd (hr r hrm hru hid hv) List.not_mem_nil
      · simp [History.returned, hk]

/-! ### The calls -/

theorem register_call_safe {app : App} {email password : String} {tenantName : Option String} :
    sessionContract.Safe i (Http.register app email password tenantName) := by
  unfold Http.register
  generalize normalizeEmail email = r
  generalize validatePassword password = valid
  exact .bind lift_safe fun _ => .bind lift_safe fun _ => register_safe

theorem login_call_safe {app : App} {email password : String} {tenantId : Option Uuid} :
    sessionContract.Safe i (Http.login app email password tenantId) := by
  unfold Http.login
  generalize normalizeEmail email = r
  exact .bind lift_safe fun _ => login_safe

/-- A termination of the sessions of the user who is signed in. -/
theorem closing_own {p : Service Unit} {userId : Uuid}
    (hp : sessionContract.Triple i (fun _ => True) p
      (onOk fun _ s => ∃ known, Ending i userId known [] s)) :
    sessionContract.Triple i (fun _ => True) (closing p)
      (onOk fun _ s => ∃ k, (i, userId, k) ∈ s.history.terminated) := by
  have hp' : sessionContract.Triple i (fun _ => True) p
      (onOk fun _ s => ∃ u, u = userId ∧ ∃ known, Ending i u known [] s) := by
    refine hp.post ?_
    rintro (x | _) s - h
    · trivial
    · exact ⟨userId, rfl, h⟩
  refine (closing_triple hp').post ?_
  rintro (x | _) s - h
  · trivial
  · obtain ⟨u, rfl, hk⟩ := h
    exact hk

/-- A call of which nothing is said but that it keeps to the contract. -/
theorem reply_safe {A : Type} {p : Service A} (hp : sessionContract.Safe i p)
    {reply : A → SessionReply} {Q : Except AppError SessionReply → AppState → Prop}
    (hQ : ∀ r s, Q r s) :
    sessionContract.Triple i (fun _ => True) (p.bind fun a => .done (.ok (reply a))) Q :=
  (Safe.bind hp fun _ => Safe.done).post fun r s _ _ => hQ r s

theorem sessionCall_triple {app : App} (k : SessionCall) :
    sessionContract.Triple i (fun _ => True) ((sessionSystem app).body k) (SessionPost i k) := by
  cases k <;> simp only [sessionSystem, SessionCall.body, Prog.bind_eq, Prog.pure_eq]
  case register => exact reply_safe register_call_safe fun _ _ => trivial
  case login => exact reply_safe login_call_safe fun _ _ => trivial
  case oauthLogin =>
      refine reply_safe (.bind .ensure fun _ => .bind .ensure fun _ => ?_) fun _ _ => trivial
      exact oauthLogin_safe
  case refresh refreshToken tenantId =>
      refine (Triple.seq refresh_triple fun session => ?_).post
        (Q := onOk fun _ s => ∃ b, (refreshToken.jti, b, i) ∈ s.history.rotations) ?_
      · exact Triple.done (stable_exists fun _ => rotation_lasting.stable i) fun _ _ h => h
      · rintro (x | _) s - h
        · trivial
        · exact h
  case logout => exact reply_safe logout_safe fun _ _ => trivial
  case switchTenant => exact reply_safe switchTenant_safe fun _ _ => trivial
  case listSessions =>
      exact reply_safe (.bind protectedMiddleware_triple.safe fun _ =>
        select_safe sessionContract_tolerant) fun _ _ => trivial
  case revokeSession => exact reply_safe revokeSession_safe fun _ _ => trivial
  case logoutAllSessions bearer =>
      refine (closing_own logoutAll_triple).post ?_
      rintro (x | _) s - h
      · trivial
      · exact h
  case changePassword bearer currentPassword newPassword =>
      refine (closing_own changePassword_triple).post ?_
      rintro (x | _) s - h
      · trivial
      · exact h
  case confirmPasswordReset token newPassword =>
      refine (closing_triple (φ := fun _ => True) (confirmPasswordReset_triple.post ?_)).post ?_
      · rintro (x | _) s - h
        · trivial
        · obtain ⟨u, known, h⟩ := h
          exact ⟨u, trivial, known, h⟩
      · rintro (x | _) s - h
        · trivial
        · obtain ⟨u, -, k, h⟩ := h
          exact ⟨u, k, h⟩
  case removeMember => exact reply_safe removeMember_keepsSessions fun _ _ => trivial
  case purgeStaleRefreshTokens => exact reply_safe purgeStaleRefreshTokens_safe fun _ _ => trivial

end Fluxa
