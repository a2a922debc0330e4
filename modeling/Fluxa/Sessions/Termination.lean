import Fluxa.Sessions.RefreshChains

/-!
# Sessions — termination

When `change_password`, `confirm_password_reset` or `logout_all` has returned for a user, every active token of the user should go back to a later credential check.  The revocation reaches only the rows that are there when it starts, so a session opened on the strength of an earlier check gets through if its row is inserted later.

* **`sessions_terminated_iff`**: exactly when a run has no such insertion, the active tokens of the user go back to later checks throughout.
* **`switched_after_termination`**: an access token from before the password was changed opens a session afterwards.
-/

namespace Fluxa
open Interleave Relational Db Contract

/-- Every active token of a user goes back to a credential check after each termination that has
returned for the user. -/
def SessionsTerminated (s : AppState) : Prop :=
  ∀ i userId checks, (i, userId, checks) ∈ s.history.terminated → ∀ r ∈ s.db.refreshTokens,
    r.userId = userId → r.revokedAt = none → checks ≤ r.origin

/-- What a statement has to find for the terminations of the user's sessions to be complete.  An
inserted token goes back to a credential check after every termination that has returned; and
when a termination returns, the active tokens were there when its revocation started. -/
def NothingMissed (i : Nat) (l : Event) (e : Env) (s : AppState) : Prop :=
  (∀ userId origin, l = .issueToken userId origin → e.fault ≠ .failed →
    ∀ j checks, (j, userId, checks) ∈ s.history.terminated → checks ≤ origin) ∧
  (l = .returnTermination → ∀ userId known, s.history.terminating i = some (userId, known) →
    ∀ r ∈ s.db.refreshTokens, r.userId = userId → r.revokedAt = none → r.id ∈ known)

theorem nothingMissed_of_not_concerns {i : Nat} {l : Event} {e : Env} {s : AppState}
    (hl : l.concernsSessions = true → e.fault = .failed)
    (hf : l = .returnTermination → e.fault = .none) : NothingMissed i l e s := by
  constructor
  · rintro userId origin rfl hne
    exact absurd (hl rfl) hne
  · rintro rfl
    exact absurd ((hf rfl).symm.trans (hl rfl)) (by decide)

/-- Where no termination returns, and each active token was one or goes back to the check of one,
the tokens stay as they should be. -/
theorem SessionsTerminated.mono {s s' : AppState} (hs : SessionsTerminated s)
    (ht : s'.history.terminated = s.history.terminated)
    (hr : ∀ r' ∈ s'.db.refreshTokens, r'.revokedAt = none → ∃ r ∈ s.db.refreshTokens,
      r.revokedAt = none ∧ r.userId = r'.userId ∧ r.origin = r'.origin) :
    SessionsTerminated s' := by
  intro i userId checks hmem r' hr' hu hv
  obtain ⟨r, hrm, hrv, hru, hro⟩ := hr r' hr' hv
  rw [ht] at hmem
  exact hro ▸ hs i userId checks hmem r hrm (hru.trans hu) hrv

theorem nothingMissed_quiet {i : Nat} {e : Env} {s : AppState} : NothingMissed i .quiet e s :=
  nothingMissed_of_not_concerns (fun hl => by cases hl) fun hl => by cases hl

theorem nothingMissed_rotate {i : Nat} {e : Env} {s : AppState} {userId : Uuid} :
    NothingMissed i (.rotateToken userId) e s :=
  nothingMissed_of_not_concerns (fun hl => by cases hl) fun hl => by cases hl

/-- A token revoked by a statement or not is, when it is active, as it was. -/
theorem active_of_revoked {p : RefreshTokenRecord → Bool} {now : Time}
    {t : Table RefreshTokenRecord RefreshTokenRecord.id} {r' : RefreshTokenRecord}
    (hr' : r' ∈ t.update p (coalesceRevoked now)) (hv : r'.revokedAt = none) : r' ∈ t := by
  simp only [Table.mem_update] at hr'
  obtain ⟨r, hr, rfl⟩ := hr'
  split at hv
  · simp [coalesceRevoked] at hv
  · rename_i hp
    simpa [hp] using hr

/-- The insertion of a token. -/
theorem sessionsTerminated_insert {i : Nat} {e : Env} {s s' : AppState} {row : RefreshTokenRecord}
    (hs : SessionsTerminated s) (hf : e.fault ≠ .failed) (hr : row.revokedAt = none)
    (ht : ∀ r, r ∈ s'.db.refreshTokens ↔ r ∈ s.db.refreshTokens ∨ r = row)
    (hh : s'.history = s.history) :
    SessionsTerminated s' ↔ NothingMissed i (.issueToken row.userId row.origin) e s := by
  refine ⟨fun h => ⟨?_, (fun hl => by cases hl)⟩, fun h j userId checks hmem r hrm hu hv => ?_⟩
  · rintro userId origin hl - j checks hmem
    cases hl
    exact h j row.userId checks (by rwa [hh]) row ((ht row).mpr (.inr rfl)) rfl hr
  · rw [hh] at hmem
    rcases (ht r).mp hrm with hrm | rfl
    · exact hs j userId checks hmem r hrm hu hv
    · exact h.1 r.userId r.origin rfl hf j checks (hu ▸ hmem)

/-- The return of a termination. -/
theorem sessionsTerminated_returned {i : Nat} {e : Env} {s : AppState} (hi : SessionInv s)
    (hs : SessionsTerminated s)
    (he : ∀ u ids, s.history.terminating i = some (u, ids) →
      ∀ r ∈ s.db.refreshTokens, r.userId = u → r.id ∈ ids → r.revokedAt ≠ none) :
    SessionsTerminated { s with history := s.history.returned i } ↔
      NothingMissed i .returnTermination e s := by
  cases hk : s.history.terminating i with
  | none =>
      refine ⟨fun _ => ⟨(fun _ _ hl => by cases hl), fun _ u ids hk' => ?_⟩, fun _ => ?_⟩
      · cases hk.symm.trans hk'
      · exact hs.mono (by simp [History.returned, hk]) fun r hr hv => ⟨r, hr, hv, rfl, rfl⟩
  | some x =>
      obtain ⟨userId, known⟩ := x
      have hmem : ∀ y, y ∈ (s.history.returned i).terminated ↔
          y = (i, userId, s.history.checks) ∨ y ∈ s.history.terminated := by
        simp [History.returned, hk]
      constructor
      · refine fun h => ⟨(fun _ _ hl => by cases hl), fun _ u ids hk' r hr hu hv => ?_⟩
        obtain ⟨rfl, rfl⟩ := Prod.mk.inj (Option.some.inj (hk.symm.trans hk'))
        have hle := h i userId s.history.checks ((hmem _).mpr (.inl rfl)) r hr hu hv
        exact absurd (hi.token_origin r hr) (Nat.not_lt.mpr hle)
      · intro h j u checks hj r hr hu hv
        rcases (hmem _).mp hj with hj | hj
        · cases hj
          exact absurd hv (he userId known hk r hr hu (h.2 rfl userId known hk r hr hu hv))
        · exact hs j u checks hj r hr hu hv

/-- A statement leaves the terminations complete exactly when it misses nothing. -/
theorem SessionAction.terminated_iff {i : Nat} {l : Event} {e : Env} {s s' : AppState}
    (hi : SessionInv s) (ha : admissible i l e s = true) (hs : SessionsTerminated s)
    (h : SessionAction i l e s s') : SessionsTerminated s' ↔ NothingMissed i l e s := by
  -- All but the insertion and the return miss nothing and make nothing active.
  have same : ∀ {l s'}, s'.history.terminated = s.history.terminated →
      (∀ r' ∈ s'.db.refreshTokens, r'.revokedAt = none → ∃ r ∈ s.db.refreshTokens,
        r.revokedAt = none ∧ r.userId = r'.userId ∧ r.origin = r'.origin) →
      NothingMissed i l e s → (SessionsTerminated s' ↔ NothingMissed i l e s) :=
    fun ht hr hn => iff_of_true (hs.mono ht hr) hn
  have kept : ∀ r ∈ s.db.refreshTokens, r.revokedAt = none → ∃ r₀ ∈ s.db.refreshTokens,
      r₀.revokedAt = none ∧ r₀.userId = r.userId ∧ r₀.origin = r.origin :=
    fun r hr hv => ⟨r, hr, hv, rfl, rfl⟩
  cases h with
  | quiet h hl =>
      refine same h.terminated (fun r hr => kept r (by rwa [h.tokens] at hr)) ?_
      refine nothingMissed_of_not_concerns hl fun hr => ?_
      subst hr
      simp only [admissible, Bool.and_eq_true, Bool.or_eq_true, decide_eq_true_eq] at ha
      exact ha.2.resolve_left (by simp)
  | issue => exact same rfl kept nothingMissed_quiet
  | check => exact same rfl kept nothingMissed_quiet
  | mint => exact same rfl kept nothingMissed_quiet
  | insert hf _ _ hr _ ht _ hh => exact sessionsTerminated_insert hs hf hr ht hh
  | snapshot => exact same rfl kept nothingMissed_quiet
  | revoke =>
      exact same rfl (fun r hr hv => kept r (active_of_revoked hr hv) hv) nothingMissed_quiet
  | purge =>
      refine same rfl (fun r hr => kept r ?_) nothingMissed_quiet
      simp only [Table.mem_delete] at hr
      exact hr.1
  | lock => exact same rfl kept nothingMissed_quiet
  | unlock => exact same rfl kept nothingMissed_rotate
  | @rotate _ _ _ userId old row now hk hm hv hu hus ho hr hp ht hl hh =>
      refine same (by rw [hh]) (fun r hrm hrv => ?_) nothingMissed_rotate
      rcases (ht r).mp hrm with ⟨r₀, h₀, rfl⟩ | rfl
      · split at hrv
        · simp [Db.rotated] at hrv
        · rename_i hne
          simp only [hne, if_false]
          exact kept r₀ h₀ hrv
      · exact ⟨old, hm, hv, hus.symm, ho.symm⟩
  | returned he => exact sessionsTerminated_returned hi hs he
  | abandoned => exact same rfl kept nothingMissed_quiet

/-! ### Runs -/

/-- The call ends the sessions of the user when it succeeds; a password reset, those of the user
whose token is presented. -/
def SessionCall.Terminates (userId : Uuid) : SessionCall → Prop
  | .logoutAllSessions bearer | .changePassword bearer _ _ => userId = bearer.sub
  | .confirmPasswordReset _ _ => True
  | _ => False

/-- The active tokens go back to checks after every termination that has returned, throughout a
run, exactly when no statement of the run misses one; and every termination that has returned
with success is noted, with the number of checks until then. -/
theorem sessions_terminated_iff {app : App} {s : AppState} (hs : SessionStart s)
    {ms : List (Move Env SessionCall)} {c : SessionConfig}
    (h : (sessionSystem app).exec (.start s) ms = some c) :
    ((sessionSystem app).Through (fun d => SessionsTerminated d.st) (.start s) ms ↔
        (sessionSystem app).Along (fun d m => d.Meets NothingMissed m) (.start s) ms) ∧
      ∀ i call reply, c.calls[i]? = some (call, .done (.ok reply)) →
        (∃ userId, call.Terminates userId) →
        ∃ userId checks, call.Terminates userId ∧ (i, userId, checks) ∈ c.st.history.terminated := by
  have hstart : SessionsTerminated s := by
    intro i userId checks hmem
    simp [hs.terminated] at hmem
  refine ⟨through_iff_along (K := sessionContract) (fun _ k => sessionCall_triple k)
    (fun _ _ _ _ ha => ha) (fun _ _ _ _ _ hi ha hP hg => hg.terminated_iff hi ha hP) hs.inv hstart h,
    ?_⟩
  intro i call reply hcall ⟨userId, ht⟩
  have hpost := (sessionSystem_keeps hs h).result hcall
  cases call with
  | logoutAllSessions bearer | changePassword bearer =>
      obtain ⟨checks, hk⟩ := hpost
      exact ⟨bearer.sub, checks, rfl, hk⟩
  | confirmPasswordReset =>
      obtain ⟨u, checks, hk⟩ := hpost
      exact ⟨u, checks, trivial, hk⟩
  | _ => exact ht.elim

/-! ### An access token from before the termination -/

/-- The access token that the login of call 0 issues. -/
def firstAccessToken : Jwt :=
  { sub := 10, tenantId := 1, role := .owner, tokenType := .access, jti := 110, iat := 0,
    exp := 900, origin := 0 }

/-- After a login the password is changed, and then the access token of the login switches to
the tenant. -/
def switchAfterChange : List (Move Env SessionCall) :=
  .call (.login "a@x" "pw" none) :: statements 0 12 100 0 ++
    .call (.changePassword firstAccessToken "pw" "correct horse") :: statements 1 12 200 0 ++
    .call (.switchTenant firstAccessToken 1) :: statements 2 12 300 0

/-- The equivalence at that run. -/
theorem sessions_terminated_iff_switchAfterChange :
    ∃ c, (sessionSystem default).exec (.start oneMember) switchAfterChange = some c ∧
      ((sessionSystem default).Through (fun d => SessionsTerminated d.st) (.start oneMember)
          switchAfterChange ↔
        (sessionSystem default).Along (fun d m => d.Meets NothingMissed m) (.start oneMember)
          switchAfterChange) := by
  have h : ((sessionSystem default).exec (.start oneMember) switchAfterChange).isSome := by decide
  obtain ⟨c, hc⟩ := Option.isSome_iff_exists.mp h
  exact ⟨c, hc, (sessions_terminated_iff sessionStart_oneMember hc).1⟩

/-- The session that call 2 opens is active although the credential check it goes back to came
before the change of the password, which has succeeded. -/
theorem switched_after_termination :
    SessionStart oneMember ∧
      ∃ c, (sessionSystem default).exec (.start oneMember) switchAfterChange = some c ∧
        (c.result? 1).map (·.isOk) = some true ∧ ¬ SessionsTerminated c.st := by
  have h : ((sessionSystem default).exec (.start oneMember) switchAfterChange).map (fun c =>
      ((c.result? 1).map (·.isOk), c.st.history.terminated.contains (1, 10, 1),
        c.st.db.refreshTokens.any fun r => r.userId = 10 && r.revokedAt.isNone && r.origin = 0)) =
      some (some true, true, true) := by decide
  obtain ⟨c, hc, h⟩ := Option.map_eq_some_iff.mp h
  obtain ⟨hok, hterm, hrow⟩ := by simpa only [Prod.mk.injEq] using h
  obtain ⟨r, hr, hrow⟩ := Table.any_eq_true.mp hrow
  simp only [Bool.and_eq_true, decide_eq_true_eq, Option.isNone_iff_eq_none] at hrow
  obtain ⟨⟨hu, hv⟩, ho⟩ := hrow
  refine ⟨sessionStart_oneMember, c, hc, hok, fun hs => ?_⟩
  have hle := hs 1 10 1 (by simpa using hterm) r hr hu hv
  omega

end Fluxa
