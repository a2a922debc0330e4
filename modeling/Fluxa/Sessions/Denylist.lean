import Fluxa.Interleave.Trace
import Fluxa.Http.Sessions
import Fluxa.State.Quiet

/-!
# Sessions — the denylist of access tokens

`logout` and `logout_all` put the access token presented on the denylist until its `exp`.  The validator accepts a token for another minute, its leeway, so the entry should last as long.

* **`stays_denied_iff`**: after a call that has returned, `protected_middleware` lets no request with the token through exactly when `DenialLasts`: when Redis takes the entry a minute late, when the token has an entry from elsewhere that lasts, or when nobody accepts the token any more.
* **`denied_token_accepted`**: a second after its `exp` a request with a token that was denied is let through.
-/

namespace Fluxa
open Interleave Contract

/-- The calls that deny an access token. -/
inductive DenyingCall where
  | logout (refreshToken : Jwt)
  | logoutAll (tenantId userId : Uuid)

def DenyingCall.run (accessToken : Jwt) : DenyingCall → Service Unit
  | .logout refreshToken => Fluxa.logout refreshToken (some accessToken)
  | .logoutAll tenantId userId => Fluxa.logoutAll tenantId userId accessToken

/-- How many statements the call has executed when it comes to `deny_access_token`. -/
def DenyingCall.before : DenyingCall → Nat
  | .logout _ => 6
  | .logoutAll _ _ => 3

/-- The denylist entry of the token is left alone, and signed tokens stay signed. -/
structure LeavesEntry (jti : Uuid) (s s' : AppState) : Prop where
  entry : s'.cache.denylist jti = s.cache.denylist jti
  minted : ∀ c ∈ s.history.minted, c ∈ s'.history.minted

theorem LeavesEntry.refl {jti : Uuid} (s : AppState) : LeavesEntry jti s s := ⟨rfl, fun _ h => h⟩

theorem LeavesEntry.trans {jti : Uuid} {s t u : AppState} (h : LeavesEntry jti s t)
    (h' : LeavesEntry jti t u) : LeavesEntry jti s u :=
  ⟨h'.entry.trans h.entry, fun c hc => h'.minted c (h.minted c hc)⟩

/-- At time `now` the validator refuses the token, or the denylist has it. -/
def Rejected (s : AppState) (token : Jwt) (now : Time) : Prop :=
  accepted token now = false ∨ Cache.denied s token.jti now = true

/-- From the time given on the middleware lets no request with the token through, as long as nobody
touches its entry. -/
def StaysRejected (s : AppState) (token : Jwt) (returned : Time) : Prop :=
  ∀ now es user s', returned ≤ now → (∀ e ∈ es, e.now = now) →
    ¬ Ends (LeavesEntry token.jti) (protectedMiddleware token) es s (.ok user) s'

/-- The first instant at which the validator refuses the token. -/
def refusedFrom (token : Jwt) : Time := seconds (token.exp + leeway + 1)

/-- When the last of the inputs was supplied. -/
def lastTime (es : List Env) : Time := (es.getLast?.map (·.now)).getD 0

/-- The denial lasts, given the denylist before the call, the inputs from `deny_access_token` on (the
first is that of its decoding, the second its reading of the clock, the third, if it comes to that,
that of the `SETEX`) and the time at which the call returns. -/
def DenialLasts (s : AppState) (token : Jwt) (returned : Time) : List Env → Prop
  | _ :: clock :: rest =>
    refusedFrom token ≤ returned ∨
      (token.exp ≤ clock.now.timestamp ∧ ∃ entry, s.cache.denylist token.jti = some entry ∧
        ∀ t, entry.expiresAt = some t → refusedFrom token ≤ t) ∨
      (clock.now.timestamp < token.exp ∧ ∃ setex, rest.head? = some setex ∧
        seconds (clock.now.timestamp + leeway + 1) ≤ setex.now)
  | _ => False

theorem accepted_iff {token : Jwt} {now : Time} :
    accepted token now = true ↔ now < refusedFrom token := by
  unfold accepted refusedFrom seconds Time.timestamp
  rw [decide_eq_true_iff, ← Nat.lt_succ_iff, Nat.div_lt_iff_lt_mul (by decide)]

theorem denied_iff {s : AppState} {jti : Uuid} {now : Time} :
    Cache.denied s jti now = true ↔ ∃ entry, s.cache.denylist jti = some entry ∧
      ∀ t, entry.expiresAt = some t → now < t := by
  unfold Cache.denied
  cases s.cache.denylist jti with
  | none => simp
  | some entry => cases he : entry.expiresAt <;> simp [Entry.live, he]

/-- An accepted token is as presented, and the decoding changes nothing. -/
theorem decodeToken_ends {R : AppState → AppState → Prop} {token c : Jwt}
    {expectedType : TokenType} {es : List Env} {s s' : AppState}
    (h : Ends R (decodeToken token expectedType) es s (.ok c) s') :
    ∃ e, es = [e] ∧ R s s' ∧ c = token ∧ accepted token e.now = true := by
  obtain ⟨e, t, rfl, hR, -, hr, hs⟩ := h.atomic
  refine ⟨e, rfl, ?_⟩
  split at hr
  · rename_i hm
    split at hr
    · rename_i ht
      simp only [hm.1, hm.2, ht, and_self, if_true] at hs
      exact ⟨hs ▸ hR, Except.ok.inj hr, hm.2⟩
    · cases hr
  · cases hr

/-- The middleware lets no request with a rejected token through. -/
theorem protectedMiddleware_rejects {token : Jwt} {es : List Env} {s s' : AppState} {now : Time}
    {user : AuthenticatedUser} (hr : Rejected s token now) (hes : ∀ e ∈ es, e.now = now) :
    ¬ Ends (LeavesEntry token.jti) (protectedMiddleware token) es s (.ok user) s' := by
  intro h
  obtain ⟨c, es₁, es₂, t₁, rfl, hdecode, hrest⟩ := h.bind_ok
  obtain ⟨e₁, rfl, hR, rfl, hacc⟩ := decodeToken_ends hdecode
  obtain ⟨denied, es₃, es₄, t₂, rfl, hexists, hrest'⟩ := hrest.bind_ok
  obtain ⟨e₂, t', rfl, hR', -, hok, -⟩ := hexists.atomic
  obtain ⟨_, _, _, _, -, h₃, -⟩ := hrest'.bind_ok
  have hfree : denied = false := by simpa using h₃.ensure
  rcases hr with hrefused | hden
  · rw [← hes e₁ (by simp), hacc] at hrefused
    cases hrefused
  · have hden' : Cache.denied t' c.jti e₂.now = true := by
      rw [hes e₂ (by simp), denied_iff, hR'.entry, hR.entry]
      exact denied_iff.mp hden
    cases hf : e₂.fault with
    | none =>
        simp only [hf, Except.ok.injEq] at hok
        rw [hok, hden'] at hfree
        cases hfree
    | failed => simp [hf] at hok
    | lost => simp [hf] at hok

/-- The state with a membership of the user of the token in its tenant. -/
def withMember (s : AppState) (token : Jwt) : AppState :=
  { s with
    db.tenants := .single ⟨token.tenantId, "", 0⟩
    db.memberships := .single ⟨token.tenantId, token.sub, token.role, 0⟩ }

/-- The middleware lets a request through whose token is not rejected and whose user is a member. -/
theorem protectedMiddleware_admits {token : Jwt} {s : AppState} {now : Time}
    (ht : token.tokenType = .access) (hm : token ∈ s.history.minted)
    (hr : ¬ Rejected s token now) : ∃ es user s', (∀ e ∈ es, e.now = now) ∧
      Ends (LeavesEntry token.jti) (protectedMiddleware token) es s (.ok user) s' := by
  have hacc : accepted token now = true := (Bool.not_eq_false _).mp fun h => hr (.inl h)
  have hfree : Cache.denied s token.jti now = false := (Bool.not_eq_true _).mp fun h => hr (.inr h)
  obtain ⟨e, hnow, hfault⟩ : ∃ e : Env, e.now = now ∧ e.fault = .none :=
    ⟨{ (default : Env) with now }, rfl, rfl⟩
  let t : AppState := withMember s token
  have hmember : (t.db.memberships.find? (token.tenantId, token.sub)).bind (Db.joinTenant t) =
      some ⟨token.tenantId, "", token.sub, token.role, 0⟩ := by
    simp [t, withMember, Db.joinTenant, Relational.Table.find?, Relational.Table.single]
  have hplay : play (protectedMiddleware token) [e, e, e] t =
      some (.ok ⟨token.sub, token.tenantId, token.role, token.origin⟩, t) := by
    have hmt : token ∈ t.history.minted := hm
    have hft : Cache.denied t token.jti now = false := hfree
    simp [protectedMiddleware, decodeAccessToken, decodeToken, Cache.isAccessTokenDenied, redis,
      redisAs, Db.getMembership, select, sql, sqlWhen, Prog.atomic, Prog.bind, Prog.ensure, Prog.okOr,
      play, hnow, hfault, hmt, hacc, ht, hft, hmember]
  have hleaves : LeavesEntry token.jti s t := ⟨rfl, fun _ h => h⟩
  have hends : Ends (LeavesEntry token.jti) (protectedMiddleware token) [e, e, e] t _ t :=
    ends_of_play LeavesEntry.refl hplay
  exact ⟨[e, e, e], _, t, by simp [hnow], Ends.after (R := LeavesEntry token.jti) LeavesEntry.trans
    hends hleaves⟩

/-- What it takes for the token to be rejected from some time on. -/
theorem staysRejected_iff {s : AppState} {token : Jwt} {returned : Time}
    (ht : token.tokenType = .access) (hm : token ∈ s.history.minted) :
    StaysRejected s token returned ↔ ∀ now, returned ≤ now → Rejected s token now := by
  constructor
  · intro h now hnow
    by_contra hr
    obtain ⟨es, user, s', hes, hends⟩ := protectedMiddleware_admits ht hm hr
    exact h now es user s' hnow hes hends
  · exact fun h now es user s' hnow hes => protectedMiddleware_rejects (h now hnow) hes

/-- The token is rejected from some time on exactly if it is refused by then, or has an entry that
outlasts its acceptance. -/
theorem rejected_from_iff {s : AppState} {token : Jwt} {returned : Time} :
    (∀ now, returned ≤ now → Rejected s token now) ↔
      refusedFrom token ≤ returned ∨ ∃ entry, s.cache.denylist token.jti = some entry ∧
        ∀ t, entry.expiresAt = some t → refusedFrom token ≤ t := by
  -- While the token is accepted, it is the denylist that rejects it.
  have denied_at : ∀ {now}, now < refusedFrom token → Rejected s token now →
      Cache.denied s token.jti now = true := fun hnow hr =>
    hr.resolve_left (by simp [accepted_iff.mpr hnow])
  constructor
  · intro h
    by_cases hret : refusedFrom token ≤ returned
    · exact .inl hret
    · have hlt : returned < refusedFrom token := Nat.lt_of_not_le hret
      obtain ⟨entry, he, -⟩ := denied_iff.mp (denied_at hlt (h returned (Nat.le_refl _)))
      refine .inr ⟨entry, he, fun t ht => ?_⟩
      by_contra hle
      -- The entry would have expired by a time at which the token is accepted.
      have hmax : max returned t < refusedFrom token := max_lt hlt (Nat.lt_of_not_le hle)
      obtain ⟨entry', he', hlive⟩ :=
        denied_iff.mp (denied_at hmax (h (max returned t) (le_max_left _ _)))
      obtain rfl := Option.some.inj (he.symm.trans he')
      exact absurd (hlive t ht) (Nat.not_lt.mpr (le_max_right _ _))
  · rintro h now hnow
    by_cases hacc : now < refusedFrom token
    · rcases h with hret | ⟨entry, he, hexp⟩
      · exact absurd (lt_of_lt_of_le hacc hret) (Nat.not_lt.mpr hnow)
      · exact .inr (denied_iff.mpr ⟨entry, he, fun t ht => lt_of_lt_of_le hacc (hexp t ht)⟩)
    · refine .inl ?_
      rw [← Bool.not_eq_true, accepted_iff]
      exact hacc

/-! ### The inputs of a denial -/

/-- What `deny_access_token` does to the entry of the token. -/
theorem denyAccessToken_ends {token : Jwt} {es : List Env} {s s' : AppState}
    (ht : token.tokenType = .access) (hm : token ∈ s.history.minted)
    (h : Ends (LeavesEntry token.jti) (denyAccessToken token) es s (.ok ()) s') :
    ∃ decode rest, es = decode :: rest ∧ (accepted token decode.now = true →
      ∃ clock rest', rest = clock :: rest' ∧ token ∈ s'.history.minted ∧
        ((token.exp ≤ clock.now.timestamp ∧ s'.cache.denylist token.jti =
            s.cache.denylist token.jti) ∨
          (clock.now.timestamp < token.exp ∧ ∃ setex, rest' = [setex] ∧
            s'.cache.denylist token.jti = some
              ⟨(), some (setex.now + seconds (token.exp - clock.now.timestamp))⟩))) := by
  obtain ⟨r, es₁, es₂, t, rfl, h₁, h₂⟩ := h.bind_ok
  obtain ⟨r₀, hr, h₁⟩ := h₁.attempt
  cases hr
  obtain ⟨decode, t₀, rfl, hR, -, hr, ht₀⟩ := h₁.atomic
  refine ⟨decode, es₂, rfl, fun hacc => ?_⟩
  have hmt := hR.minted token hm
  simp only [hmt, hacc, ht, and_self, if_true] at hr ht₀
  subst hr ht₀
  obtain ⟨now, es₃, es₄, t₁, rfl, h₃, h₄⟩ := h₂.bind_ok
  obtain ⟨clock, t₂, rfl, hR₂, -, hr, rfl⟩ := h₃.atomic
  cases hr
  refine ⟨clock, es₄, rfl, ?_⟩
  dsimp only at h₄
  split at h₄
  · rename_i hz
    obtain ⟨rfl, -, rfl⟩ := h₄.done
    exact ⟨hR₂.minted token hmt, .inl ⟨Nat.le_of_sub_eq_zero hz, hR₂.entry.trans hR.entry⟩⟩
  · rename_i hz
    obtain ⟨setex, t₃, rfl, hR₃, -, hr, hs⟩ := h₄.atomic
    dsimp only at hr hs
    cases hf : setex.fault with
    | none =>
        simp only [hf] at hs
        rw [hs, Nat.max_eq_left (Nat.one_le_iff_ne_zero.mpr hz)]
        exact ⟨hR₃.minted token (hR₂.minted token hmt), .inr ⟨Nat.lt_of_sub_ne_zero hz, setex, rfl,
          Function.update_self _ _ _⟩⟩
    | failed => simp [hf] at hr
    | lost => simp [hf] at hr

theorem leavesEntry_tolerant {jti : Uuid} :
    Tolerant (frame (LeavesEntry jti) : Contract Event Env AppState) where
  stay _ _ _ s _ _ := .refl s
  bystander _ _ s s' _ h := ⟨by rw [h.denylist], fun c hc => by rwa [h.history]⟩
  issue _ _ s _ _ := ⟨rfl, fun _ hc => hc⟩

/-- A program whose statements leave the entry alone. -/
theorem leavesEntry_of_safe {jti : Uuid} {A : Type} {p : Service A} {es : List Env}
    {s s' : AppState} {r : Except AppError A}
    (hp : (frame (LeavesEntry jti) : Contract Event Env AppState).Safe 0 p)
    (h : Ends (LeavesEntry jti) p es s r s') : LeavesEntry jti s s' :=
  hp.ends LeavesEntry.refl LeavesEntry.trans h

theorem decodeToken_leaves {jti : Uuid} {token : Jwt} {expectedType : TokenType} :
    (frame (LeavesEntry jti) : Contract Event Env AppState).Safe 0
      (decodeToken token expectedType) := by
  refine .atomic fun s e _ _ _ => ?_
  split
  · split <;> exact .refl s
  · exact .refl s

theorem revokeTokens_leaves {jti : Uuid} {clause : Time → RefreshTokenRecord → Bool}
    {record : Env → AppState → History} {now : Time}
    (hr : ∀ e s, (record e s).minted = s.history.minted) :
    (frame (LeavesEntry jti) : Contract Event Env AppState).Safe 0
      (Db.revokeTokens clause record now) :=
  .bind (.atomic fun s e _ _ _ => ⟨rfl, fun _ hc => (hr e s).symm ▸ hc⟩) fun _ =>
    sqlWhen_safe leavesEntry_tolerant.toPatient fun _ _ _ _ _ _ => ⟨rfl, fun _ hc => hc⟩

theorem revokeAll_leaves {jti userId : Uuid} :
    (frame (LeavesEntry jti) : Contract Event Env AppState).Safe 0
      (Db.revokeAllUserRefreshTokens userId) :=
  .bind (utcNow_safe leavesEntry_tolerant.toPatient) fun _ =>
    .bind (revokeTokens_leaves fun _ _ => rfl) fun _ => .done

/-- A revocation that ends well reads the clock, takes its snapshot and changes the rows. -/
theorem revoke_length {R : AppState → AppState → Prop}
    {clause : Time → RefreshTokenRecord → Bool} {record : Env → AppState → History}
    {es : List Env} {s s' : AppState}
    (h : Ends R (utcNow.bind fun now => (Db.revokeTokens clause record now).bind fun _ =>
      .done (.ok ()) : Service Unit) es s (.ok ()) s') : es.length = 3 := by
  obtain ⟨now, es₁, rest, t₁, rfl, hclock, h'⟩ := h.bind_ok
  obtain ⟨_, es₂, es₃, t₂, rfl, hrevoke, hdone⟩ := h'.bind_ok
  obtain ⟨_, es₄, es₅, t₃, rfl, hsnapshot, hupdate⟩ := hrevoke.bind_ok
  obtain ⟨e₁, -, rfl, -⟩ := hclock.atomic
  obtain ⟨e₂, -, rfl, -⟩ := hsnapshot.atomic
  obtain ⟨e₃, -, rfl, -⟩ := hupdate.atomic
  obtain ⟨rfl, -, -⟩ := hdone.done
  rfl

/-- An audit event draws its identifier and is inserted, if it can be. -/
theorem recordEvent_length {R : AppState → AppState → Prop}
    {tenantId actorUserId subjectId : Option Uuid} {subjectType eventType : String}
    {payload : Value} {es : List Env} {s s' : AppState}
    (h : Ends R (recordEvent tenantId actorUserId subjectType subjectId eventType payload) es s
      (.ok ()) s') : es.length = 2 := by
  obtain ⟨_, es₁, es₂, t, rfl, hevent, hdone⟩ := h.bind_ok
  obtain ⟨rfl, -, -⟩ := hdone.done
  have htakes : Takes 2 (Db.recordAuditEvent tenantId actorUserId subjectType subjectId eventType
      payload).attempt := Takes.attempt fun _ _ _ _ => trivial
  rw [List.append_nil]
  exact htakes.length hevent

/-- A denying call: what comes before the denial, the denial, and what comes after it. -/
theorem DenyingCall.ends {call : DenyingCall} {token : Jwt} {es : List Env} {s s' : AppState}
    (h : Ends (LeavesEntry token.jti) (call.run token) es s (.ok ()) s') :
    ∃ pre denial post s₁ s₂, es = pre ++ (denial ++ post) ∧ pre.length = call.before ∧
      LeavesEntry token.jti s s₁ ∧
      Ends (LeavesEntry token.jti) (denyAccessToken token) denial s₁ (.ok ()) s₂ ∧
      LeavesEntry token.jti s₂ s' := by
  cases call with
  | logout refreshToken =>
      obtain ⟨c, es₁, rest, t₁, rfl, h₁, h⟩ := h.bind_ok
      obtain ⟨_, es₂, rest, t₂, rfl, h₂, h⟩ := h.bind_ok
      obtain ⟨_, es₃, es₄, t₃, rfl, h₃, h⟩ := h.bind_ok
      have hdecode := leavesEntry_of_safe decodeToken_leaves h₁
      have hrevoke := leavesEntry_of_safe (.bind (utcNow_safe leavesEntry_tolerant.toPatient) fun _ =>
        .bind (revokeTokens_leaves fun _ _ => rfl) fun _ => .done) h₂
      have haudit := leavesEntry_of_safe (recordEvent_safe leavesEntry_tolerant.lenient.discreet) h₃
      have hlength : (es₁ ++ (es₂ ++ es₃)).length = 6 := by
        obtain ⟨e, -, rfl, -⟩ := h₁.atomic
        rw [List.length_append, List.length_append, revoke_length h₂, recordEvent_length h₃]
        rfl
      exact ⟨es₁ ++ (es₂ ++ es₃), es₄, [], t₃, s', by simp, hlength,
        hdecode.trans (hrevoke.trans haudit), h, .refl s'⟩
  | logoutAll tenantId userId =>
      obtain ⟨_, es₁, rest, t₁, rfl, h₁, h⟩ := h.bind_ok
      obtain ⟨_, es₂, es₃, t₂, rfl, h₂, h₃⟩ := h.bind_ok
      have hrevoke := leavesEntry_of_safe revokeAll_leaves h₁
      have haudit := leavesEntry_of_safe (recordEvent_safe leavesEntry_tolerant.lenient.discreet) h₃
      exact ⟨es₁, es₂, es₃, t₁, t₂, rfl, revoke_length h₁, hrevoke, h₂, haudit⟩

/-! ### When a denial lasts -/

/-- An entry set at time `t` for the rest of the lifetime lasts over the leeway exactly when it is
set that much later than the clock was read. -/
theorem entry_outlasts_iff {token : Jwt} {clock : Nat} (h : clock < token.exp) (t : Time) :
    refusedFrom token ≤ t + seconds (token.exp - clock) ↔ seconds (clock + leeway + 1) ≤ t := by
  have hlinear : ∀ exp leeway t : Nat, clock < exp →
      ((exp + leeway + 1) * 1000000 ≤ t + (exp - clock) * 1000000 ↔
        (clock + leeway + 1) * 1000000 ≤ t) := by omega
  exact hlinear token.exp leeway t h

/-- Once a call that denies an accepted token has returned, the middleware rejects the token at every
later time, whatever else happens, exactly when the denial lasts. -/
theorem stays_denied_iff {call : DenyingCall} {token : Jwt} {es : List Env} {s s' : AppState}
    {decode : Env} (ht : token.tokenType = .access) (hm : token ∈ s.history.minted)
    (h : Ends (LeavesEntry token.jti) (call.run token) es s (.ok ()) s')
    (hdecode : (es.drop call.before).head? = some decode)
    (hacc : accepted token decode.now = true) :
    StaysRejected s' token (lastTime es) ↔
      DenialLasts s token (lastTime es) (es.drop call.before) := by
  obtain ⟨pre, denial, post, s₁, s₂, rfl, hlength, hpre, hden, hpost⟩ := DenyingCall.ends h
  have hdrop : (pre ++ (denial ++ post)).drop call.before = denial ++ post :=
    List.drop_left' hlength
  obtain ⟨decode', rest, rfl, hrest⟩ := denyAccessToken_ends ht (hpre.minted token hm) hden
  rw [hdrop] at hdecode ⊢
  obtain rfl : decode' = decode := Option.some.inj hdecode
  obtain ⟨clock, rest', rfl, hminted, hentry⟩ := hrest hacc
  rw [staysRejected_iff ht (hpost.minted token hminted), rejected_from_iff, hpost.entry]
  rcases hentry with ⟨hle, he⟩ | ⟨hlt, setex, rfl, he⟩
  · rw [he, hpre.entry]
    simp [DenialLasts, hle, Nat.not_lt.mpr hle]
  · have hcover := entry_outlasts_iff hlt setex.now
    simp [DenialLasts, hlt, Nat.not_le.mpr hlt, he, hcover]

/-! ### A token accepted after its denial -/

/-- An access token that expires after 900 seconds. -/
def shortToken : Jwt :=
  { sub := 10, tenantId := 1, role := .owner, tokenType := .access, jti := 110, iat := 0,
    exp := 900, origin := 0 }

/-- The state in which it has been signed, with the membership of its user. -/
def signedState : AppState :=
  withMember { (default : AppState) with history.minted := [shortToken] } shortToken

/-- All statements of a `logout_all` at time 0. -/
def logoutInputs : List Env := List.replicate 8 default

/-- The statements of the middleware a second after the token's `exp`. -/
def lateInputs : List Env := List.replicate 3 { (default : Env) with now := seconds 901 }

theorem logoutAll_plays :
    ∃ s', Ends (LeavesEntry shortToken.jti) (DenyingCall.run shortToken (.logoutAll 1 10))
        logoutInputs signedState (.ok ()) s' ∧
      ∃ user s'', Ends (LeavesEntry shortToken.jti) (protectedMiddleware shortToken) lateInputs s'
        (.ok user) s'' := by
  have h : ((play (DenyingCall.run shortToken (.logoutAll 1 10)) logoutInputs signedState).any
      fun x => x.1.isOk && (play (protectedMiddleware shortToken) lateInputs x.2).any
        fun y => y.1.isOk) = true := by decide
  obtain ⟨⟨r, s'⟩, hplay, h⟩ := (Option.any_eq_true _ _).mp h
  obtain ⟨hok, h⟩ := Bool.and_eq_true_iff.mp h
  obtain ⟨⟨r', s''⟩, hplay', hok'⟩ := (Option.any_eq_true _ _).mp h
  cases r with
  | error x => cases hok
  | ok u => cases r' with
    | error x => cases hok'
    | ok user => exact ⟨s', ends_of_play LeavesEntry.refl hplay, user, s'',
        ends_of_play LeavesEntry.refl hplay'⟩

/-- The equivalence for that call. -/
theorem stays_denied_iff_shortToken :
    ∃ s', StaysRejected s' shortToken (lastTime logoutInputs) ↔
      DenialLasts signedState shortToken (lastTime logoutInputs) (logoutInputs.drop 3) := by
  obtain ⟨s', h, -⟩ := logoutAll_plays
  exact ⟨s', stays_denied_iff rfl List.mem_cons_self h rfl (by decide)⟩

/-- A second after its `exp` a request with the token that `logout_all` has denied is let
through. -/
theorem denied_token_accepted :
    shortToken ∈ signedState.history.minted ∧ accepted shortToken 0 = true ∧
      ∃ s', Ends (LeavesEntry shortToken.jti) (DenyingCall.run shortToken (.logoutAll 1 10))
          logoutInputs signedState (.ok ()) s' ∧
        lastTime logoutInputs ≤ seconds 901 ∧ (∀ e ∈ lateInputs, e.now = seconds 901) ∧
        ∃ user s'', Ends (LeavesEntry shortToken.jti) (protectedMiddleware shortToken) lateInputs s'
          (.ok user) s'' := by
  obtain ⟨s', h, hlate⟩ := logoutAll_plays
  exact ⟨List.mem_cons_self, by decide, s', h, by decide, by decide, hlate⟩

end Fluxa
