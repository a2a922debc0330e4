import Fluxa.Idempotency.Once
import Fluxa.Interleave.Crash

/-!
# Idempotency — pending markers

A key is claimed with two commands: `SETNX` sets the marker without an expiry, and `EXPIRE` gives it one.  A request that goes no further than the first leaves a marker that stays for ever.

* **`pending_markers_expire_iff`**: in every run of the eight handlers, all pending markers have an expiry throughout exactly when no marker is set at all; and if no request is interrupted between the two commands, each marker without an expiry is just about to get one.
* **`key_blocked_for_ever`**: after a failed `EXPIRE` the same request is refused ten years later.
-/

namespace Fluxa.Idempotency
open Interleave Relational Contract

/-- Every pending marker has an expiry. -/
def MarkersExpire (s : AppState) : Prop := ∀ key, s.cache.idempotency key ≠ some ⟨.pending, none⟩

/-! ### The two commands -/

/-- The state after `EXPIRE`. -/
def expireKey (key : IdempotencyKey) (ttl : Nat) (e : Env) (s : AppState) : AppState :=
  match e.fault, Cache.idempotencyEntry s key e.now with
  | .none, some entry | .lost, some entry =>
    Cache.setIdempotency s key (some ⟨entry.value, some (e.now + ttl)⟩)
  | _, _ => s

/-- The next statement of the program is `EXPIRE`. -/
def AtExpire {A : Type} (key : IdempotencyKey) (ttl : Nat) : Service A → Prop
  | .done _ => False
  | .stmt _ _ eff _ => ∀ e s, eff e s = expireKey key ttl e s

theorem AtExpire.bind {A B : Type} {key : IdempotencyKey} {ttl : Nat} {p : Service A}
    {f : A → Service B} (h : AtExpire key ttl p) : AtExpire key ttl (p.bind f) := by
  cases p with
  | done r => exact h.elim
  | stmt l ready eff next => exact h

/-- After an `EXPIRE` that has not failed there is no marker without an expiry under the key. -/
theorem expireKey_expires {key : IdempotencyKey} {ttl : Nat} {e : Env} {s : AppState}
    (hf : e.fault ≠ .failed) (h : s.cache.idempotency key = some ⟨.pending, none⟩) :
    (expireKey key ttl e s).cache.idempotency key ≠ some ⟨.pending, none⟩ := by
  have hlive : Cache.idempotencyEntry s key e.now = some ⟨.pending, none⟩ := by
    simp [Cache.idempotencyEntry, h, Entry.live]
  cases hfault : e.fault with
  | none => simp [expireKey, hfault, hlive, Cache.setIdempotency]
  | failed => exact absurd hfault hf
  | lost => simp [expireKey, hfault, hlive, Cache.setIdempotency]

/-- Up to the claim of a key the program leaves the keys alone, and where the claim gets a reply,
`EXPIRE` follows; `Q` holds of its result if it claims none. -/
def Early {A : Type} (ttl : Nat) (Q : Except AppError A → Prop) : Service A → Prop
  | .done r => Q r
  | .stmt _ _ eff next => ∀ e s,
      (eff e s).history.keyClaims = s.history.keyClaims ∧ Early ttl Q (next e s) ∨
      ∃ key, (eff e s).history.keyClaims = (e.pid, key) :: s.history.keyClaims ∧
        e.fault ≠ .failed ∧ (e.fault = .none → AtExpire key ttl (next e s))

section Early

variable {A B : Type} {ttl : Nat} {Q : Except AppError A → Prop} {key : IdempotencyKey} {app : App}

theorem Early.bind {Q' : Except AppError B → Prop} {p : Service A} {f : A → Service B}
    (hp : Early ttl Q p) (hf : ∀ a, Q (.ok a) → Early ttl Q' (f a))
    (he : ∀ x, Q (.error x) → Q' (.error x)) : Early ttl Q' (p.bind f) := by
  induction p with
  | done r =>
      cases r with
      | ok a => exact hf a hp
      | error x => exact he x hp
  | stmt l ready eff next ih =>
      intro e s
      rcases hp e s with ⟨hsame, hnext⟩ | ⟨key, hclaim, hfault, hnext⟩
      · exact .inl ⟨hsame, ih e s hnext⟩
      · exact .inr ⟨key, hclaim, hfault, fun h => (hnext h).bind⟩

theorem early_idempotencyState : Early ttl (fun _ => True) (Cache.idempotencyState key) := by
  intro e s
  refine .inl ⟨?_, ?_⟩
  · cases hf : e.fault <;> simp only [hf]
  · cases hf : e.fault <;> trivial

theorem early_replayIdempotent : Early ttl (fun _ => True) (Http.replayIdempotent key) := by
  refine early_idempotencyState.bind (fun v _ => ?_) fun _ _ => trivial
  rcases v with _ | _ | response
  · trivial
  · trivial
  · dsimp only
    split <;> trivial

/-- A request that has not claimed the key has not obtained it. -/
theorem early_claimIdempotencyKey :
    Early ttl (fun r => r ≠ .ok true) (Cache.claimIdempotencyKey key ttl) := by
  intro e s
  cases hentry : Cache.idempotencyEntry s key e.now with
  | some entry =>
      refine .inl ⟨?_, ?_⟩
      · cases hf : e.fault <;> simp only [hf, hentry]
      · cases hf : e.fault <;> simp [hf, hentry, Early]
  | none =>
      cases hf : e.fault with
      | none =>
          refine .inr ⟨key, by simp only [hf, hentry], by simp, fun _ => ?_⟩
          simp only [hf, hentry]
          intro e s
          cases hf : e.fault <;> cases hlive : Cache.idempotencyEntry s key e.now <;>
            simp only [expireKey, hf, hlive]
      | failed =>
          refine .inl ⟨?_, ?_⟩
          · simp only [hf]
          · simp [hf, Early]
      | lost => exact .inr ⟨key, by simp only [hf, hentry], by simp, fun h => by cases h⟩

theorem early_replayOrClaim : Early app.config.idempotencyTtl (fun r => r ≠ .ok none)
    (Http.replayOrClaim app key) := by
  refine early_replayIdempotent.bind (fun found _ => ?_) fun _ _ => by simp
  cases found with
  | some response => simp [Early]
  | none =>
      refine early_claimIdempotencyKey.bind (fun claimed hclaimed => ?_) fun _ _ => by simp
      cases claimed with
      | true => exact absurd rfl hclaimed
      | false =>
          refine early_replayIdempotent.bind (fun found _ => ?_) fun _ _ => by simp
          cases found <;> simp [Early, Prog.fail]

theorem early_idempotent {prepare : Except AppError B} {create : B → Service A}
    {respond : A → StoredResponse} : Early app.config.idempotencyTtl (fun _ => True)
      (Http.idempotent app key prepare create respond) := by
  refine early_replayOrClaim.bind (fun found hfound => ?_) fun _ _ => trivial
  cases found with
  | some response => trivial
  | none => exact absurd rfl hfound

theorem early_handler (k : CreateRequest) :
    Early app.config.idempotencyTtl (fun _ => True) (k.handler app) := by
  rw [handler_eq]
  cases k.plan app with
  | error x => trivial
  | ok p =>
      obtain ⟨creation, key⟩ := p
      cases creation <;> exact early_idempotent

end Early

/-! ### Runs -/

section Run

variable {app : App} {s : AppState}

/-- The requests of a run in which anything may fail. -/
def reckless (app : App) (name : Nat → Option CreateRequest) : Setting where
  ttl := app.config.idempotencyTtl
  key? := keyOf app name
  known _ _ := True
  careless := True

/-- The move claims no key. -/
def ClaimsNothing (app : App)
    (c : Config Event Env AppState AppError CreateRequest StoredResponse)
    (m : Move Env CreateRequest) : Prop :=
  ∀ d, (createSystem app).step c m = some d → d.st.history.keyClaims = c.st.history.keyClaims

/-- Call `i` is about to give its key an expiry. -/
def Expiring (app : App) (c : Config Event Env AppState AppError CreateRequest StoredResponse)
    (i : Nat) (key : IdempotencyKey) : Prop :=
  ∃ k p, c.calls[i]? = some (k, p) ∧ AtExpire key app.config.idempotencyTtl p

/-- No request is interrupted between the two commands of its claim: the reply to a `SETNX` that
has set the marker arrives, the `EXPIRE` succeeds, and nobody dies before it. -/
def Uninterrupted (app : App)
    (c : Mortal Event Env AppState AppError CreateRequest StoredResponse) :
    Fate Env CreateRequest → Prop
  | .die i => ∀ key, ¬ Expiring app c.config i key
  | .move (.call _) => True
  | .move (.exec i e) => (∀ key, Expiring app c.config i key → e.fault ≠ .failed) ∧
      (e.fault = .lost → ClaimsNothing app c.config (.exec i e))

/-- Each pending marker without an expiry is about to get one, by a call that is alive. -/
def MarkersAttended (app : App)
    (c : Mortal Event Env AppState AppError CreateRequest StoredResponse) : Prop :=
  ∀ key, c.config.st.cache.idempotency key = some ⟨.pending, none⟩ →
    ∃ i, i ∉ c.dead ∧ Expiring app c.config i key

/-- What a statement does about the markers. -/
theorem KeyStep.marker {σ : Setting} {i : Nat} {e : Env} {s s' : AppState}
    (h : KeyStep σ i e s s') {key : IdempotencyKey}
    (hs' : s'.cache.idempotency key = some ⟨.pending, none⟩) :
    s.cache.idempotency key = some ⟨.pending, none⟩ ∨
      doings i s = .none ∧ s'.history.keyClaims = (i, key) :: s.history.keyClaims := by
  have other {key' : IdempotencyKey} {entry : Option (Entry IdempotencyValue)}
      (hne : entry ≠ some ⟨.pending, none⟩)
      (h : (Function.update s.cache.idempotency key' entry) key = some ⟨.pending, none⟩) :
      s.cache.idempotency key = some ⟨.pending, none⟩ := by
    by_cases hkey : key = key'
    · subst hkey
      rw [Function.update_self] at h
      exact absurd h hne
    · rwa [Function.update_of_ne hkey] at h
  cases h with
  | apart h => exact .inl (h.idempotency ▸ hs')
  | create _ h => exact .inl (h.idempotency ▸ hs')
  | @claim key' _ _ hdone _ h =>
      subst h
      by_cases hkey : key = key'
      · subst hkey
        exact .inr ⟨hdone, rfl⟩
      · exact .inl (by simpa [Cache.setIdempotency, hkey] using hs')
  | extend _ _ _ h =>
      subst h
      exact .inl (other (by simp) hs')
  | store _ _ _ h =>
      subst h
      exact .inl (other (by simp) hs')
  | release _ _ _ h =>
      subst h
      exact .inl (other (by simp) hs')

/-- A claim leaves a marker without an expiry. -/
theorem KeyStep.claimed {σ : Setting} {i : Nat} {e : Env} {s s' : AppState}
    (h : KeyStep σ i e s s') : s'.history.keyClaims = s.history.keyClaims ∨
      ∃ key, s'.cache.idempotency key = some ⟨.pending, none⟩ := by
  cases h with
  | apart h => exact .inl h.keyClaims
  | create _ h => exact .inl h.keyClaims
  | @claim key _ _ _ _ h =>
      subst h
      exact .inr ⟨key, by simp [Cache.setIdempotency]⟩
  | extend _ _ _ h | store _ _ _ h | release _ _ _ h =>
      subst h
      exact .inl rfl

/-- A request that has done nothing had done nothing before. -/
theorem KeyStep.begun {σ : Setting} {i : Nat} {e : Env} {s s' : AppState} (h : KeyStep σ i e s s')
    (hs' : doings i s' = .none) : doings i s = .none := by
  simp only [doings, Doings.none, Doings.mk.injEq] at hs'
  cases h with
  | apart h => exact (h.doings i).symm.trans (by simp [doings, Doings.none, hs'])
  | create _ h =>
      obtain ⟨kind, id, hcreated⟩ := h.created
      simp [hcreated] at hs'
  | claim _ _ _ _ h =>
      subst h
      simp at hs'
  | extend _ _ _ h =>
      subst h
      simpa [doings, Doings.none, Cache.setIdempotency] using hs'
  | store _ _ _ h =>
      subst h
      simp at hs'
  | release _ _ _ h =>
      subst h
      simp at hs'

theorem reckless_steps {ms : List (Move Env CreateRequest)}
    {c : Config Event Env AppState AppError CreateRequest StoredResponse} (hs : KeyStart s)
    (h : (createSystem app).exec (.start s) ms = some c) :
    (createSystem app).Along (fun d m => ∀ d', (createSystem app).step d m = some d' →
      d.Meets (fun i _ e s => KeyStep (reckless app c.names) i e s d'.st) m) (.start s) ms := by
  have hbody : ∀ i k, c.names i = some k →
      (requestContract (σ := reckless app c.names) (I := fun _ => True)
        (fun _ _ _ _ _ _ => trivial) fun _ _ _ _ => True).Triple i (Begun i)
          ((createSystem app).body k)
          (RequestEnds (reckless app c.names) app i k True fun _ _ _ => True) := by
    intro i k hname
    refine handler_triple (fun _ _ _ _ _ => .inr trivial) (fun _ _ _ _ _ => trivial)
      (fun _ _ _ _ => trivial) rfl (fun _ _ _ _ _ _ _ => trivial) (fun _ _ _ => lasting_const)
      (fun _ _ => stable_const) ?_
    exact fun creation key hplan => keyOf_eq hname hplan
  have hsteps := alongNamed (fun _ => doings_stable) hbody (fun _ _ _ _ ha hc => ⟨ha, hc⟩) trivial
    hs.begun (System.along_of_forall fun _ _ _ _ _ _ _ => trivial) h c.named_names
  exact hsteps.mono fun d m hm d' hd i e he l hl => (hm d' hd i e he l hl).2.1

/-- What holds while no request is interrupted. -/
structure Attended (app : App)
    (c : Mortal Event Env AppState AppError CreateRequest StoredResponse) : Prop where
  markers : MarkersAttended app c
  early : ∀ i k p, c.config.calls[i]? = some (k, p) → doings i c.config.st = .none →
    Early app.config.idempotencyTtl (fun _ => True) p

theorem attended_start (hs : MarkersExpire s) : Attended app (.start s) where
  markers key hkey := absurd hkey (hs key)
  early i k p h := by simp [Mortal.start, Config.start] at h

theorem Attended.die {i : Nat}
    {c : Mortal Event Env AppState AppError CreateRequest StoredResponse} (hc : Attended app c)
    (hm : Uninterrupted app c (.die i)) : Attended app { c with dead := i :: c.dead } where
  markers key hkey := by
    obtain ⟨j, hj, hexp⟩ := hc.markers key hkey
    refine ⟨j, fun hdead => ?_, hexp⟩
    rcases List.mem_cons.mp hdead with rfl | hdead
    · exact hm key hexp
    · exact hj hdead
  early := hc.early

theorem Attended.call {k : CreateRequest}
    {c d : Mortal Event Env AppState AppError CreateRequest StoredResponse} (hc : Attended app c)
    (hdead : d.dead = c.dead) (hd : (createSystem app).step c.config (.call k) = some d.config) :
    Attended app d := by
  have hcalls := System.step_call hd
  constructor
  · intro key hkey
    rw [hcalls] at hkey
    obtain ⟨j, hj, k', p, hcall, hp⟩ := hc.markers key hkey
    refine ⟨j, hdead ▸ hj, k', p, ?_, hp⟩
    rw [hcalls, List.getElem?_append_left (List.getElem?_eq_some_iff.mp hcall).1]
    exact hcall
  · intro i k' p hcall hnone
    rw [hcalls] at hcall hnone
    rw [List.getElem?_append] at hcall
    split at hcall
    · exact hc.early i k' p hcall hnone
    · obtain ⟨_, hx⟩ := List.getElem?_eq_some_iff.mp hcall
      rw [List.getElem_singleton] at hx
      obtain ⟨rfl, rfl⟩ := Prod.mk.inj hx
      exact early_handler _

theorem Attended.exec {i : Nat} {e : Env} {σ : Setting}
    {c d : Mortal Event Env AppState AppError CreateRequest StoredResponse} (hc : Attended app c)
    (hm : Uninterrupted app c (.move (.exec i e))) (halive : i ∉ c.dead) (hdead : d.dead = c.dead)
    (hd : (createSystem app).step c.config (.exec i e) = some d.config)
    (hstep : KeyStep σ i e c.config.st d.config.st) : Attended app d := by
  obtain ⟨k, l, ready, eff, next, hcall, -, ha, hcalls⟩ := System.step_exec hd
  have hpid : e.pid = i := (not_issued_of_admissible ha).1
  have hst : d.config.st = eff e c.config.st := by rw [hcalls]
  have hself : d.config.calls[i]? = some (k, next e c.config.st) := by
    rw [hcalls]
    exact List.getElem?_set_self (List.getElem?_eq_some_iff.mp hcall).1
  have hother : ∀ j, i ≠ j → d.config.calls[j]? = c.config.calls[j]? := by
    intro j hij
    rw [hcalls]
    exact List.getElem?_set_ne hij
  -- A call that has claimed nothing yet goes on to `EXPIRE` when it claims its key.
  have hearly : doings i c.config.st = .none →
      d.config.st.history.keyClaims = c.config.st.history.keyClaims ∧
        Early app.config.idempotencyTtl (fun _ => True) (next e c.config.st) ∨
      ∃ key, d.config.st.history.keyClaims = (i, key) :: c.config.st.history.keyClaims ∧
        e.fault ≠ .failed ∧
        (e.fault = .none → AtExpire key app.config.idempotencyTtl (next e c.config.st)) := by
    intro hnone
    have h := hc.early i k _ hcall hnone e c.config.st
    rwa [← hst, hpid] at h
  constructor
  · intro key hkey
    rcases hstep.marker hkey with hold | ⟨hnone, hclaims⟩
    · obtain ⟨j, hj, k', p, hcall', hp⟩ := hc.markers key hold
      by_cases hij : i = j
      · subst hij
        obtain ⟨rfl, rfl⟩ := Prod.mk.inj (Option.some.inj (hcall.symm.trans hcall'))
        have hfault := hm.1 key ⟨k, _, hcall, hp⟩
        rw [hst, hp e c.config.st] at hkey
        exact absurd hkey (expireKey_expires hfault hold)
      · exact ⟨j, hdead ▸ hj, k', p, (hother j hij).trans hcall', hp⟩
    · rcases hearly hnone with ⟨hsame, -⟩ | ⟨key', hclaims', hfault, hnext⟩
      · exact absurd (hsame.symm.trans hclaims).symm (List.cons_ne_self _ _)
      · obtain ⟨⟨-, rfl⟩, -⟩ := by simpa using hclaims.symm.trans hclaims'
        refine ⟨i, hdead ▸ halive, k, next e c.config.st, hself, hnext ?_⟩
        cases hf : e.fault with
        | none => rfl
        | failed => exact absurd hf hfault
        | lost =>
            have hsame := hm.2 hf d.config hd
            exact absurd (hsame.symm.trans hclaims).symm (List.cons_ne_self _ _)
  · intro j k' p hcall' hnone
    by_cases hij : i = j
    · subst hij
      obtain ⟨rfl, rfl⟩ := Prod.mk.inj (Option.some.inj (hself.symm.trans hcall'))
      rcases hearly (hstep.begun hnone) with ⟨-, hnext⟩ | ⟨key, hclaims, -⟩
      · exact hnext
      · simp [doings, Doings.none, hclaims] at hnone
    · rw [hother j hij] at hcall'
      exact hc.early j k' p hcall' ((hstep.doings_of_ne hij).symm.trans hnone)

end Run

end Fluxa.Idempotency

namespace Fluxa
open Interleave Idempotency

/-- In every run of the eight handlers, with any calls dying and any statements failing: all pending
markers have an expiry throughout exactly when no key is claimed; and as long as no request is
interrupted between the two commands of its claim, every marker without an expiry is about to get
one. -/
theorem pending_markers_expire_iff {app : App} {s : AppState} {ms : List (Fate Env CreateRequest)}
    {c : Mortal Event Env AppState AppError CreateRequest StoredResponse} (hs : KeyStart s)
    (hexpire : MarkersExpire s) (h : (createSystem app).execMortal (.start s) ms = some c) :
    ((createSystem app).Through (fun d => MarkersExpire d.st) (.start s) (movesOf ms) ↔
      (createSystem app).Along (ClaimsNothing app) (.start s) (movesOf ms)) ∧
    ((createSystem app).AlongMortal (Uninterrupted app) (.start s) ms →
      (createSystem app).ThroughMortal (MarkersAttended app) (.start s) ms) := by
  have hrun : (createSystem app).exec (.start s) (movesOf ms) = some c.config :=
    System.exec_of_execMortal h
  have hsteps := reckless_steps hs hrun
  refine ⟨hsteps.through_iff (fun c m d hm hc hd => ?_) hexpire hrun, fun hcareful => ?_⟩
  · cases m with
    | call k =>
        obtain rfl := System.step_call hd
        exact ⟨fun _ d' hd' => by rw [System.step_call hd'], fun _ => hc⟩
    | exec i e =>
        obtain ⟨l, hl, -⟩ := Contract.label_of_step hd
        have hstep := hm d hd i e rfl l hl
        refine ⟨fun hmarkers d' hd' => ?_, fun hnothing key hkey => ?_⟩
        · obtain rfl := Option.some.inj (hd.symm.trans hd')
          exact hstep.claimed.resolve_right fun ⟨key, hkey⟩ => hmarkers key hkey
        · rcases hstep.marker hkey with hold | ⟨-, hclaims⟩
          · exact hc key hold
          · exact absurd ((hnothing d hd).symm.trans hclaims).symm (List.cons_ne_self _ _)
  · refine (System.throughMortal_invariant (I := Attended app) (fun c m d hc hm hd => ?_)
      (attended_start hexpire)
      (hcareful.and (System.alongMortal_of_along (c := .start s) hsteps))).mono fun _ hc => hc.markers
    cases m with
    | die i =>
        obtain rfl := Option.some.inj hd
        exact hc.die hm.1
    | move m =>
        obtain ⟨halive, hdead, hmove⟩ := System.stepMortal_move hd
        cases m with
        | call k => exact hc.call hdead hmove
        | exec i e =>
            obtain ⟨l, hl, -⟩ := Contract.label_of_step hmove
            exact hc.exec hm.1 (halive i rfl) hdead hmove (hm.2 _ rfl d.config hmove i e rfl l hl)

/-! ### A request that is interrupted -/

/-- A request claims its key, and `EXPIRE` fails. -/
def interruptedRun : List (Move Env CreateRequest) :=
  [.call projectUnderKey, keyMove 0 1, keyMove 0 1, failingMove 0]

/-- A statement of call `i` ten years later. -/
def lateMove (i : Nat) : Move Env CreateRequest :=
  .exec i { (default : Env) with pid := i, uuid := 2, now := seconds (10 * 365 * 86400) }

theorem default_markersExpire : MarkersExpire default := fun _ h => by cases h

/-- The failed `EXPIRE` leaves the marker without an expiry, and ten years later the same request
is refused. -/
theorem key_blocked_for_ever : KeyStart default ∧ MarkersExpire default ∧
    ∃ c d, (createSystem default).exec (.start default) interruptedRun = some c ∧
      ¬ MarkersExpire c.st ∧
      (createSystem default).exec c
        [.call projectUnderKey, lateMove 1, lateMove 1, lateMove 1] = some d ∧
      d.calls[1]? = some (projectUnderKey, .done (.error
        (.conflict "request with this idempotency key is still in progress"))) := by
  have hrun : ((createSystem default).exec (.start default) interruptedRun).map (fun c =>
      (c.st.cache.idempotency projectKey, ((createSystem default).exec c
        [.call projectUnderKey, lateMove 1, lateMove 1, lateMove 1]).map (·.calls[1]?))) =
      some (some ⟨.pending, none⟩, some (some (projectUnderKey, .done (.error
        (.conflict "request with this idempotency key is still in progress"))))) := rfl
  obtain ⟨c, hc, hend⟩ := Option.map_eq_some_iff.mp hrun
  obtain ⟨hmarker, hlate⟩ := Prod.mk.inj hend
  obtain ⟨d, hd, hcall⟩ := Option.map_eq_some_iff.mp hlate
  exact ⟨default_keyStart, default_markersExpire, c, d, hc, fun h => h _ hmarker, hd, hcall⟩

/-- The theorem at that run, in which the first request then dies. -/
theorem pending_markers_expire_iff_interrupted : ∃ c,
    (createSystem default).execMortal (.start default)
      (interruptedRun.map .move ++ [.die 0]) = some c ∧
    ((createSystem default).Through (fun d => MarkersExpire d.st) (.start default)
        (movesOf (interruptedRun.map .move ++ [.die 0])) ↔
      (createSystem default).Along (ClaimsNothing default) (.start default)
        (movesOf (interruptedRun.map .move ++ [.die 0]))) := by
  have hrun : ((createSystem default).execMortal (.start default)
      (interruptedRun.map .move ++ [.die 0])).isSome := by decide +kernel
  obtain ⟨c, hc⟩ := Option.isSome_iff_exists.mp hrun
  exact ⟨c, hc, (pending_markers_expire_iff default_keyStart default_markersExpire hc).1⟩

end Fluxa
