import Fluxa.Idempotency.Steps

/-!
# Idempotency — the protocol

The parts of `Http.idempotent` under the contract of **`Fluxa.Idempotency.Steps`**: what a request has done when each of them ends.  **`idempotent_triple`** puts them together, for any creation that does its part.
-/

namespace Fluxa.Idempotency
open Interleave Relational Contract

section Protocol

variable {σ : Setting} {I : AppState → Prop} {cond : Nat → Event → Env → AppState → Prop}
  {hI : ∀ i e s s', I s → KeyStep σ i e s s' → I s'} {i : Nat} {key : IdempotencyKey} {app : App}

/-! ### The response under the key -/

section Replay

variable {R : StoredResponse → AppState → Prop}
  (hR : ∀ s entry r, I s → s.cache.idempotency key = some entry → entry.value = .ready r → R r s)
  (hlast : ∀ r, (apartContract hI cond i).Lasting (R r))
include hR hlast

theorem idempotencyState_triple : (apartContract hI cond i).Triple i (fun _ => True)
    (Cache.idempotencyState key) (onOk fun v s => ∀ r, v = some (.ready r) → R r s) := by
  refine redisAs_triple apartContract_tolerant.toPatient stable_const
    (fun v => stable_forall fun r => stable_imp ((hlast r).stable i)) fun s e hi _ _ _ => ?_
  refine ⟨⟨.apart (.refl s), fun _ => .refl s⟩, fun r hv => ?_⟩
  obtain ⟨entry, hentry, hvalue⟩ := Option.map_eq_some_iff.mp hv
  exact hR s entry r hi (Option.filter_eq_some_iff.mp hentry).1 hvalue

theorem replayIdempotent_triple : (apartContract hI cond i).Triple i (fun _ => True)
    (Http.replayIdempotent key) (onOk fun o s => ∀ r, o = some r → R r s) := by
  refine Triple.seq (idempotencyState_triple hR hlast) fun v => ?_
  have hstable : (apartContract hI cond i).Stable i fun s => ∀ r, v = some (.ready r) → R r s :=
    stable_forall fun r => stable_imp ((hlast r).stable i)
  rcases v with _ | _ | response
  · exact .done hstable fun _ _ _ r hr => by cases hr
  · exact .done hstable fun _ _ _ r hr => by cases hr
  · refine Triple.ite (fun _ => .done hstable fun s _ hs r hr => ?_) fun _ => .fail
    cases hr
    exact hs _ rfl

end Replay

/-! ### The phases -/

/-- The request has done nothing. -/
def Begun (i : Nat) (s : AppState) : Prop := doings i s = .none

/-- The request has claimed its key. -/
def Claimed (i : Nat) (key : IdempotencyKey) (s : AppState) : Prop :=
  doings i s = ⟨[key], [], [], 0⟩

/-- The request has claimed its key and created its resource. -/
def Created (i : Nat) (key : IdempotencyKey) (s : AppState) : Prop :=
  ∃ x, doings i s = ⟨[key], [x], [], 0⟩

/-- The request has stored its response. -/
def Stored (i : Nat) (key : IdempotencyKey) (response : StoredResponse) (s : AppState) : Prop :=
  ∃ x, doings i s = ⟨[key], [x], [(key, response)], 0⟩

/-- That the resources `xs` are all that call `i` has created is excused: there are none, or a commit
was not reported, or calls may fail after it. -/
def Excused (σ : Setting) (i : Nat) (s : AppState) (xs : List (ResourceKind × Uuid)) : Prop :=
  xs = [] ∨ i ∈ s.history.unreported ∨ σ.careless

/-- The request has released its key. -/
def Released (σ : Setting) (i : Nat) (key : IdempotencyKey) (s : AppState) : Prop :=
  ∃ xs, doings i s = ⟨[key], xs, [], 1⟩ ∧ Excused σ i s xs

theorem Begun.unreleased {s : AppState} (h : Begun i s) : Unreleased i s := by
  rw [Unreleased, h]
  rfl

theorem Claimed.unreleased {s : AppState} (h : Claimed i key s) : Unreleased i s := by
  rw [Unreleased, h]

theorem Created.unreleased {s : AppState} (h : Created i key s) : Unreleased i s := by
  obtain ⟨x, h⟩ := h
  rw [Unreleased, h]

theorem Begun.claim {s : AppState} (h : Begun i s) :
    Claimed i key { Cache.setIdempotency s key (some ⟨.pending, none⟩) with
      history.keyClaims := (i, key) :: s.history.keyClaims } := by
  simp only [Begun, doings, Doings.none, Doings.mk.injEq] at h
  simp [Claimed, doings, Cache.setIdempotency, h]

theorem Created.store {s : AppState} {response : StoredResponse}
    {entry : Option (Entry IdempotencyValue)} (h : Created i key s) :
    Stored i key response { Cache.setIdempotency s key entry with
      history.stored := (i, key, response) :: s.history.stored } := by
  obtain ⟨x, h⟩ := h
  simp only [doings, Doings.mk.injEq] at h
  exact ⟨x, by simp [doings, Cache.setIdempotency, h]⟩

theorem released_of {s : AppState} {xs : List (ResourceKind × Uuid)}
    (h : doings i s = ⟨[key], xs, [], 0⟩) (hxs : Excused σ i s xs) :
    Released σ i key { Cache.setIdempotency s key none with
      history.released := i :: s.history.released } := by
  simp only [doings, Doings.mk.injEq] at h
  exact ⟨xs, by simp [doings, Cache.setIdempotency, h], hxs⟩

theorem excused_stable {xs : List (ResourceKind × Uuid)} :
    (requestContract hI cond).Stable i fun s => Excused σ i s xs :=
  stable_or stable_const (stable_or unreported_stable stable_const)

theorem created_stable : (requestContract hI cond).Stable i (Created i key) :=
  stable_exists fun _ => doings_stable

theorem stored_stable {response : StoredResponse} :
    (requestContract hI cond).Stable i (Stored i key response) :=
  stable_exists fun _ => doings_stable

theorem released_stable : (requestContract hI cond).Stable i (Released σ i key) :=
  stable_exists fun _ => doings_stable.and excused_stable

/-- The request is in one of the phases. -/
def Course (σ : Setting) (i : Nat) (s : AppState) : Prop :=
  Begun i s ∨ ∃ key, Claimed i key s ∨ Created i key s ∨ (∃ r, Stored i key r s) ∨
    Released σ i key s

theorem Excused.mono {j : Nat} {e : Env} {s s' : AppState} {xs : List (ResourceKind × Uuid)}
    (h : KeyStep σ j e s s') (hs : Excused σ i s xs) : Excused σ i s' xs :=
  hs.imp_right (.imp_left h.unreported_mono)

theorem Course.congr {j : Nat} {e : Env} {s s' : AppState} (h : KeyStep σ j e s s')
    (heq : doings i s' = doings i s) (hs : Course σ i s) : Course σ i s' := by
  simp only [Course, Begun, Claimed, Created, Stored, heq]
  obtain hb | ⟨key, hc | hc | hc | ⟨xs, hdone, hxs⟩⟩ := hs
  · exact .inl hb
  · exact .inr ⟨key, .inl hc⟩
  · exact .inr ⟨key, .inr (.inl hc)⟩
  · exact .inr ⟨key, .inr (.inr (.inl hc))⟩
  · exact .inr ⟨key, .inr (.inr (.inr ⟨xs, heq.trans hdone, hxs.mono h⟩))⟩

theorem Creates.doings {e : Env} {s s' : AppState} (h : Creates i e s s') (hs : Claimed i key s) :
    Created i key s' := by
  obtain ⟨kind, id, hcreated⟩ := h.created
  simp only [Claimed, Idempotency.doings, Doings.mk.injEq] at hs
  refine ⟨(kind, id), ?_⟩
  simp [Idempotency.doings, h.keyClaims, h.stored, h.released, hcreated, hs]

/-- With every statement each request stays in its phase or goes on to the next. -/
theorem KeyStep.course {j : Nat} {e : Env} {s s' : AppState} (h : KeyStep σ j e s s')
    (hs : Course σ i s) : Course σ i s' := by
  by_cases hji : j = i
  · subst hji
    cases h with
    | apart h => exact hs.congr (KeyStep.apart (i := j) (e := e) h) (h.doings j)
    | create hdone h => exact .inr ⟨_, .inr (.inl (h.doings hdone))⟩
    | claim _ _ hdone _ h =>
        subst h
        exact .inr ⟨_, .inl (Begun.claim hdone)⟩
    | extend hkey hdone hlive h =>
        subst h
        exact .inr ⟨_, .inl hdone⟩
    | store _ hdone _ h =>
        subst h
        exact .inr ⟨_, .inr (.inr (.inl ⟨_, Created.store ⟨_, hdone⟩⟩))⟩
    | release _ hdone hxs h =>
        subst h
        exact .inr ⟨_, .inr (.inr (.inr (released_of hdone hxs)))⟩
  · exact hs.congr h (h.doings_of_ne hji)

/-! ### The claim -/

variable {ψ : Prop} (hkey : σ.key? i = some key) (hψ : ∀ l e s, cond i l e s → e.fault ≠ .none → ψ)
include hkey hψ

/-- After a failure of the claim the key is claimed only if there was a fault. -/
def ClaimFails (i : Nat) (key : IdempotencyKey) (ψ : Prop) (_ : AppError) (s : AppState) : Prop :=
  Begun i s ∨ ψ ∧ Claimed i key s

/-- The key is claimed, or it was not free. -/
def ClaimEnds (i : Nat) (key : IdempotencyKey) (claimed : Bool) (s : AppState) : Prop :=
  if claimed then Claimed i key s else Begun i s

omit hkey hψ in
theorem claimFails_stable {x : AppError} :
    (requestContract hI cond).Stable i (ClaimFails i key ψ x) :=
  stable_or doings_stable (stable_const.and doings_stable)

omit hkey hψ in
theorem claimEnds_stable {claimed : Bool} :
    (requestContract hI cond).Stable i (ClaimEnds i key claimed) := by
  cases claimed
  · exact doings_stable
  · exact doings_stable

theorem claimIdempotencyKey_triple (hknown : ∀ l e s, cond i l e s → σ.known e s) :
    (requestContract hI cond).Triple i (Begun i) (Cache.claimIdempotencyKey key σ.ttl)
      (orFail (ClaimFails i key ψ) (ClaimEnds i key)) := by
  refine Triple.seq_or (Q := ClaimEnds i key) ?_ fun claimed => ?_
  · refine redis_triple doings_stable (fun _ => Begun.unreleased) (fun _ => claimEnds_stable)
      (fun _ => claimFails_stable) (fun s e hs _ _ => .inl hs) fun s e _ hs hpid hc => ?_
    cases hfree : Cache.idempotencyEntry s key e.now with
    | some entry => exact ⟨.apart (.refl s), hs, fun _ => .inl hs⟩
    | none =>
        simp only [hpid]
        exact ⟨.claim hkey (hknown _ _ _ hc) hs hfree rfl, Begun.claim hs,
          fun hf => .inr ⟨hψ _ _ _ hc hf, Begun.claim hs⟩⟩
  · cases claimed with
    | false => exact Triple.done doings_stable fun _ _ hs => hs
    | true =>
        refine Triple.seq_or (Q := fun _ => Claimed i key) ?_ fun _ =>
          Triple.done doings_stable fun _ _ hs => hs
        refine redis_triple doings_stable (fun _ => Claimed.unreleased) (fun _ => doings_stable)
          (fun _ => claimFails_stable) (fun s e hs hc hf => .inr ⟨hψ _ _ _ hc hf, hs⟩) fun s e _ hs _ hc => ?_
        cases hlive : Cache.idempotencyEntry s key e.now with
        | none => exact ⟨.apart (.refl s), hs, fun hf => .inr ⟨hψ _ _ _ hc hf, hs⟩⟩
        | some entry => 
            exact ⟨.extend hkey hs hlive rfl, hs, fun hf => .inr ⟨hψ _ _ _ hc hf, hs⟩⟩

/-- The response under the key, or the key is claimed. -/
def ReplayEnds (i : Nat) (key : IdempotencyKey) (R : StoredResponse → AppState → Prop) :
    Option StoredResponse → AppState → Prop
  | some response, s => R response s ∧ Begun i s
  | none, s => Claimed i key s

theorem replayOrClaim_triple {R : StoredResponse → AppState → Prop}
    (hknown : ∀ l e s, cond i l e s → σ.known e s) (httl : app.config.idempotencyTtl = σ.ttl)
    (hR : ∀ s entry r, I s → s.cache.idempotency key = some entry → entry.value = .ready r → R r s)
    (hlast : ∀ i r, (apartContract hI cond i).Lasting (R r))
    (hstable : ∀ r, (requestContract hI cond).Stable i (R r)) :
    (requestContract hI cond).Triple i (Begun i) (Http.replayOrClaim app key)
      (orFail (ClaimFails i key ψ) (ReplayEnds i key R)) := by
  have hreplay : (requestContract hI cond).Triple i (Begun i) (Http.replayIdempotent key)
      (orFail (ClaimFails i key ψ) fun o s => (∀ r, o = some r → R r s) ∧ Begun i s) := by
    refine (apart_triple rfl (replayIdempotent_triple hR (hlast i))).conseq
      (fun s _ hs => ⟨trivial, hs⟩) fun r s _ hq => ?_
    cases r with
    | ok o => exact hq
    | error x => exact .inl hq.2
  have hfound : ∀ response, (requestContract hI cond).Triple i
      (fun s => (∀ r, some response = some r → R r s) ∧ Begun i s)
      (Prog.done (.ok (some response)) : Service _)
      (orFail (ClaimFails i key ψ) (ReplayEnds i key R)) := fun response =>
    Triple.done ((stable_forall fun r => stable_imp (hstable r)).and doings_stable)
      fun s _ hs => ⟨hs.1 response rfl, hs.2⟩
  refine hreplay.seq_or fun found => ?_
  cases found with
  | some response => exact hfound response
  | none =>
      have hclaim := @claimIdempotencyKey_triple _ _ _ hI _ _ _ hkey hψ hknown
      rw [← httl] at hclaim
      refine (hclaim.pre fun s _ hs => hs.2).seq_or fun claimed => ?_
      cases claimed with
      | true => exact Triple.done doings_stable fun _ _ hs => hs
      | false =>
          refine hreplay.seq_or fun found => ?_
          cases found with
          | some response => exact hfound response
          | none =>
              refine Triple.done ((stable_forall fun r => stable_imp (hstable r)).and doings_stable)
                fun s _ hs => .inl hs.2

/-! ### The response is stored, or the key released -/

/-- The creation has failed. -/
def CreateFails (σ : Setting) (i : Nat) (key : IdempotencyKey) (_ : AppError) (s : AppState) :
    Prop :=
  ∃ xs, doings i s = ⟨[key], xs, [], 0⟩ ∧ Excused σ i s xs

omit hkey hψ in
theorem Claimed.fails (x : AppError) {s : AppState} (h : Claimed i key s) :
    CreateFails σ i key x s :=
  ⟨[], h, .inl rfl⟩

omit hkey hψ in
theorem createFails_stable {x : AppError} :
    (requestContract hI cond).Stable i (CreateFails σ i key x) :=
  stable_exists fun _ => doings_stable.and excused_stable

omit hψ in
theorem store_triple {response : StoredResponse} (httl : app.config.idempotencyTtl = σ.ttl)
    (hφ : ∀ l e s, cond i l e s → e.fault ≠ .none → (doings i s).created = [] ∨ σ.careless)
    (hvalid : Http.validStatus response.status = true) :
    (requestContract hI cond).Triple i (Created i key)
      (Http.storeOrRelease app key (.ok response))
      (orFail (fun _ _ => σ.careless) fun r s => r = response ∧ Stored i key response s) := by
  have hcareless : ∀ l e s, Created i key s → cond i l e s → e.fault ≠ .none → σ.careless := by
    rintro l e s ⟨x, hdone⟩ hc hf
    exact (hφ l e s hc hf).resolve_left (by simp [hdone])
  refine Triple.seq_or (Q := fun _ => Stored i key response) ?_ fun _ =>
    Triple.done stored_stable fun _ _ hs => ⟨rfl, hs⟩
  refine redis_triple created_stable (fun _ => Created.unreleased) (fun _ => stored_stable)
    (fun _ => stable_const) (fun s e hs hc hf => hcareless _ e s hs hc hf) fun s e _ hs hpid hc => ?_
  simp only [hpid, httl]
  obtain ⟨x, hdone⟩ := hs
  exact ⟨.store hkey hdone hvalid rfl, Created.store ⟨x, hdone⟩,
    fun hf => hcareless _ e s ⟨x, hdone⟩ hc hf⟩

theorem release_triple {x : AppError} :
    (requestContract hI cond).Triple i (CreateFails σ i key x)
      (Http.storeOrRelease app key (.error x))
      (orFail (fun x s => Released σ i key s ∨ ψ ∧ CreateFails σ i key x s) fun _ _ => False) := by
  refine Triple.seq_or (Q := fun _ => Released σ i key) ?_ fun _ =>
    Triple.done released_stable fun _ _ hs => .inl hs
  refine redis_triple createFails_stable (fun s hs => ?_) (fun _ => released_stable)
    (fun _ => stable_or released_stable (stable_const.and (createFails_stable (x := x))))
    (fun s e hs hc hf => .inr ⟨hψ _ _ _ hc hf, hs⟩) fun s e _ hs hpid hc => ?_
  · obtain ⟨xs, hdone, -⟩ := hs
    rw [Unreleased, hdone]
  · obtain ⟨xs, hdone, hxs⟩ := hs
    simp only [hpid]
    exact ⟨.release hkey hdone hxs rfl, released_of hdone hxs,
      fun _ => .inl (released_of hdone hxs)⟩

/-! ### The whole request -/

/-- How a request ends with a response: it is one that was found under the key, or its own. -/
def Answered (i : Nat) (key : IdempotencyKey) (R : StoredResponse → AppState → Prop)
    (response : StoredResponse) (s : AppState) : Prop :=
  R response s ∧ Begun i s ∨ Stored i key response s

/-- How a request ends with an error: `refused` when it was refused once its key was claimed, `ψ`
when there was a failure. -/
def Fails (σ : Setting) (i : Nat) (key : IdempotencyKey) (refused ψ : Prop) (x : AppError)
    (s : AppState) : Prop :=
  Begun i s ∨ refused ∧ Claimed i key s ∨ Released σ i key s ∨ ψ ∧ CreateFails σ i key x s ∨
    σ.careless

/-- An idempotent request, where its creation creates one resource or fails. -/
theorem idempotent_triple {A B : Type} {prepare : Except AppError B} {create : B → Service A}
    {respond : A → StoredResponse} {R : StoredResponse → AppState → Prop}
    (hknown : ∀ l e s, cond i l e s → σ.known e s) (httl : app.config.idempotencyTtl = σ.ttl)
    (hR : ∀ s entry r, I s → s.cache.idempotency key = some entry → entry.value = .ready r → R r s)
    (hlast : ∀ i r, (apartContract hI cond i).Lasting (R r))
    (hstable : ∀ r, (requestContract hI cond).Stable i (R r))
    (hφ : ∀ l e s, cond i l e s → e.fault ≠ .none → (doings i s).created = [] ∨ σ.careless)
    (hvalid : ∀ a, Http.validStatus (respond a).status = true)
    (hcreate : ∀ input, prepare = .ok input → (requestContract hI cond).Triple i (Claimed i key)
      (create input) (orFail (CreateFails σ i key) fun _ => Created i key)) :
    (requestContract hI cond).Triple i (Begun i)
      (Http.idempotent app key prepare create respond)
      (orFail (Fails σ i key (prepare.toOption = none) ψ) (Answered i key R)) := by
  refine Triple.bind (replayOrClaim_triple hkey hψ hknown httl hR hlast hstable) (fun found => ?_) ?_
  · cases found with
    | some response => exact Triple.done ((hstable _).and doings_stable) fun _ _ hs => .inl hs
    | none =>
        cases hp : prepare with
        | error x => exact Triple.done doings_stable fun _ _ hs => .inr (.inl ⟨rfl, hs⟩)
        | ok input =>
            change (requestContract hI cond).Triple i _ ((create input).attempt.bind _) _
            refine Triple.bind (Triple.attempt_or (F := fun _ _ => False) (hcreate input hp))
              (fun created => ?_) fun _ _ _ h => False.elim h
            cases created with
            | ok a =>
                refine (store_triple hkey httl hφ (hvalid a)).post fun r s _ hq => ?_
                cases r with
                | ok r =>
                    obtain ⟨rfl, hs⟩ := hq
                    exact .inr hs
                | error x => exact .inr (.inr (.inr (.inr hq)))
            | error x =>
                refine (release_triple hkey hψ).post fun r s _ hq => ?_
                cases r with
                | ok r => exact hq.elim
                | error x => exact .inr (.inr (hq.imp_right .inl))
  · rintro x s _ (hs | ⟨hf, hs⟩)
    · exact .inl hs
    · exact .inr (.inr (.inr (.inl ⟨hf, hs.fails x⟩)))

end Protocol

end Fluxa.Idempotency
