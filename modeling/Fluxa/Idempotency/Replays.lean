import Fluxa.Idempotency.Releases

/-!
# Idempotency — replayed responses

Whose response a request is answered with.  A key is made of the tenant, the kind of endpoint and the value of the header, and of nothing else.  **`replayed_from_same_key`**: whatever fails and whenever keys expire, a request is answered with its own response, or with one that a request of the same tenant stored, to the same kind of endpoint and with the same value of the header.  Nothing more can be said: neither the user, nor the path, nor the payload is in the key (**`replay_to_another_user`**).
-/

namespace Fluxa.Idempotency
open Interleave Relational Contract

/-- The part of the key that stands for the endpoint. -/
def Route.keyRoute : Route → String
  | .createInvitation _ _ _ => "invitations:create"
  | .createProject _ => "projects:create"
  | .createLabel _ => "labels:create"
  | .createWebhook _ _ => "webhooks:create"
  | .createTaskComment _ _ => "comments:create"
  | .uploadTaskAttachment _ _ _ _ => "attachments:create"
  | .createTask _ => "tasks:create"
  | .createExport _ => "exports:create"

/-- What a handler goes on with is for its endpoint. -/
theorem Route.keyRoute_of_check {app : App} {user : AuthenticatedUser} {route : Route}
    {creation : Creation} (h : route.check app user = .ok creation) :
    creation.keyRoute = route.keyRoute := by
  have hok {A : Type} {r : Except AppError A} {f : A → Except AppError Creation}
      (hr : r >>= f = .ok creation) : ∃ a, r = .ok a ∧ f a = .ok creation := by
    cases r with
    | ok a => exact ⟨a, rfl, hr⟩
    | error x => cases hr
  cases route with
  | createInvitation tenantId email role =>
      obtain ⟨_, -, h⟩ := hok h
      obtain ⟨_, -, h⟩ := hok h
      obtain ⟨_, -, h⟩ := hok h
      cases h
      rfl
  | createTaskComment taskId body =>
      obtain ⟨_, -, h⟩ := hok h
      obtain ⟨_, -, h⟩ := hok h
      cases h
      rfl
  | uploadTaskAttachment taskId fileName contentType body =>
      obtain ⟨_, -, h⟩ := hok h
      obtain ⟨_, -, h⟩ := hok h
      obtain ⟨_, -, h⟩ := hok h
      cases h
      rfl
  | createProject payload =>
      obtain ⟨_, -, h⟩ := hok h
      obtain ⟨_, -, h⟩ := hok h
      cases h
      rfl
  | createLabel payload =>
      obtain ⟨_, -, h⟩ := hok h
      obtain ⟨_, -, h⟩ := hok h
      cases h
      rfl
  | createWebhook url events =>
      obtain ⟨_, -, h⟩ := hok h
      cases h
      rfl
  | createTask payload =>
      obtain ⟨_, -, h⟩ := hok h
      cases h
      rfl
  | createExport payload =>
      obtain ⟨_, -, h⟩ := hok h
      cases h
      rfl

/-- The key of a request that passes its checks. -/
theorem CreateRequest.key_of_plan {app : App} {k : CreateRequest} {creation : Creation}
    {key : IdempotencyKey} (h : k.plan app = .ok (creation, key)) :
    key.tenantId = k.user.tenantId ∧ key.route = k.route.keyRoute ∧
      Http.requiredIdempotencyKey k.idempotencyKey = .ok key.key := by
  rw [CreateRequest.plan] at h
  cases hcheck : k.route.check app k.user with
  | error x =>
      rw [hcheck] at h
      cases h
  | ok creation' =>
      cases hkey : Http.requiredIdempotencyKey k.idempotencyKey with
      | error x =>
          rw [hcheck, hkey] at h
          cases h
      | ok value =>
          rw [hcheck, hkey] at h
          cases h
          exact ⟨rfl, Route.keyRoute_of_check hcheck, rfl⟩

/-! ### Stored responses -/

/-- The response has been stored under the key. -/
def StoredUnder (key : IdempotencyKey) (response : StoredResponse) (s : AppState) : Prop :=
  ∃ j, (j, key, response) ∈ s.history.stored

/-- Every response under a key has been stored there, and by a request with that key. -/
structure Recorded (σ : Setting) (s : AppState) : Prop where
  ready : ∀ key entry response, s.cache.idempotency key = some entry →
    entry.value = .ready response → StoredUnder key response s
  keyed : ∀ j key response, (j, key, response) ∈ s.history.stored → σ.key? j = some key

section Recorded

variable {σ : Setting} {i : Nat} {e : Env} {s s' : AppState}

/-- What has been stored remains on record. -/
theorem KeyStep.stored_mono {x : Nat × IdempotencyKey × StoredResponse} (h : KeyStep σ i e s s')
    (hx : x ∈ s.history.stored) : x ∈ s'.history.stored := by
  cases h with
  | apart h => exact h.stored ▸ hx
  | create _ h => exact h.stored ▸ hx
  | claim _ _ _ _ h => exact h ▸ hx
  | extend _ _ _ h => exact h ▸ hx
  | store _ _ _ h =>
      rw [h]
      exact List.mem_cons_of_mem _ hx
  | release _ _ _ h => exact h ▸ hx

theorem KeyStep.storedUnder {key : IdempotencyKey} {response : StoredResponse}
    (h : KeyStep σ i e s s') (hs : StoredUnder key response s) : StoredUnder key response s' :=
  hs.imp fun _ => h.stored_mono

section Lasting

variable {I : AppState → Prop} {cond : Nat → Event → Env → AppState → Prop}
  {hI : ∀ i e s s', I s → KeyStep σ i e s s' → I s'} {key : IdempotencyKey}
  {response : StoredResponse}

theorem storedUnder_lasting : (apartContract hI cond i).Lasting (StoredUnder key response) :=
  lasting_within (fun _ _ _ _ _ _ hs _ hg => hg.storedUnder hs)
    fun _ _ _ _ _ hs _ hW => (KeyStep.apart (σ := σ) (i := i) (e := default) hW).storedUnder hs

theorem storedUnder_stable : (requestContract hI cond).Stable i (StoredUnder key response) :=
  fun _ _ _ _ _ _ hs _ hg => hg.1.storedUnder hs

end Lasting

/-- The entry under a key after the one under `key` has been set. -/
theorem setIdempotency_cases {key key' : IdempotencyKey}
    {entry : Option (Entry IdempotencyValue)} {P : Option (Entry IdempotencyValue) → Prop}
    (hset : key' = key → P entry) (hkeep : P (s.cache.idempotency key')) :
    P ((Cache.setIdempotency s key entry).cache.idempotency key') := by
  by_cases h : key' = key
  · subst h
    simp only [Cache.setIdempotency, Function.update_self]
    exact hset rfl
  · simp only [Cache.setIdempotency, Function.update_of_ne h]
    exact hkeep

theorem KeyStep.recorded (h : KeyStep σ i e s s') (hs : Recorded σ s) : Recorded σ s' := by
  have hstored := @KeyStep.storedUnder σ i e s s'
  constructor
  · intro key' entry response hentry hvalue
    -- An entry that was there before has its answer recorded already.
    have hkeep : ∀ entry, s.cache.idempotency key' = some entry →
        entry.value = .ready response → StoredUnder key' response s' := fun entry he hv =>
      hstored h (hs.ready key' entry response he hv)
    cases h with
    | apart h => exact hkeep entry (h.idempotency ▸ hentry) hvalue
    | create _ h => exact hkeep entry (h.idempotency ▸ hentry) hvalue
    | claim _ _ _ _ h =>
        subst h
        revert hentry
        refine setIdempotency_cases (P := fun o => o = some entry → _) (fun _ ho => ?_)
          fun ho => hkeep entry ho hvalue
        cases ho
        cases hvalue
    | @extend key live _ _ hlive h =>
        subst h
        revert hentry
        refine setIdempotency_cases (P := fun o => o = some entry → _) (fun hk ho => ?_)
          fun ho => hkeep entry ho hvalue
        cases ho
        exact hkeep live (hk ▸ (Option.filter_eq_some_iff.mp hlive).1) hvalue
    | store _ _ _ h =>
        subst h
        revert hentry
        refine setIdempotency_cases (P := fun o => o = some entry → _) (fun hk ho => ?_)
          fun ho => hkeep entry ho hvalue
        cases ho
        cases hvalue
        exact ⟨i, hk ▸ List.mem_cons_self⟩
    | release _ _ _ h =>
        subst h
        revert hentry
        exact setIdempotency_cases (P := fun o => o = some entry → _) (fun _ ho => by cases ho)
          fun ho => hkeep entry ho hvalue
  · intro j key' response hj
    cases h with
    | apart h => exact hs.keyed j key' response (h.stored ▸ hj)
    | create _ h => exact hs.keyed j key' response (h.stored ▸ hj)
    | claim _ _ _ _ h =>
        subst h
        exact hs.keyed j key' response hj
    | extend _ _ _ h =>
        subst h
        exact hs.keyed j key' response hj
    | store hkey _ _ h =>
        subst h
        rcases List.mem_cons.mp hj with hj | hj
        · cases hj
          exact hkey
        · exact hs.keyed j key' response hj
    | release _ _ _ h =>
        subst h
        exact hs.keyed j key' response hj

end Recorded

/-- How a run from no recorded keys starts. -/
theorem recorded_start {σ : Setting} {s : AppState} (hs : KeyStart s)
    (hempty : ∀ key, s.cache.idempotency key = none) : Recorded σ s := by
  constructor
  · intro key entry response he
    rw [hempty] at he
    cases he
  · intro j key response hj
    rw [hs.stored] at hj
    cases hj

/-- The requests of a run, of which any call may fail at any time. -/
def faulty (app : App) (name : Nat → Option CreateRequest) : Setting where
  ttl := app.config.idempotencyTtl
  key? := keyOf app name
  known _ _ := True
  careless := True

end Fluxa.Idempotency

namespace Fluxa
open Interleave Relational Contract Idempotency

variable {app : App} {s : AppState} {ms : List (Move Env CreateRequest)}
  {c : Config Event Env AppState AppError CreateRequest StoredResponse}

/-- From a state with no keys on, every response is one that was stored by a request of the same
tenant, to the same kind of endpoint and with the same value of the header. -/
theorem replayed_from_same_key (hs : KeyStart s) (hempty : ∀ key, s.cache.idempotency key = none)
    (h : (createSystem app).exec (.start s) ms = some c) {i : Nat} {k : CreateRequest}
    {response : StoredResponse} (hk : c.calls[i]? = some (k, .done (.ok response))) :
    ∃ (key : IdempotencyKey) (j : Nat) (k' : CreateRequest) (p : Service StoredResponse),
      (j, key, response) ∈ c.st.history.stored ∧ c.calls[j]? = some (k', p) ∧
      k'.user.tenantId = k.user.tenantId ∧ k'.route.keyRoute = k.route.keyRoute ∧
      Http.requiredIdempotencyKey k'.idempotencyKey =
        Http.requiredIdempotencyKey k.idempotencyKey := by
  let σ := faulty app c.names
  have hI : ∀ (i : Nat) (e : Env) (s s' : AppState), Recorded σ s → KeyStep σ i e s s' →
      Recorded σ s' := fun _ _ _ _ hs h => h.recorded hs
  have hbody : ∀ i k, c.names i = some k →
      (requestContract hI fun _ _ _ _ => True).Triple i (Begun i) ((createSystem app).body k)
        (RequestEnds σ app i k True StoredUnder) := by
    intro i k hname
    refine handler_triple (fun _ _ _ _ _ => .inr trivial) (fun _ _ _ _ _ => trivial)
      (fun _ _ _ _ => trivial) rfl (fun key s entry r hi => hi.ready key entry r)
      (fun _ _ _ => storedUnder_lasting) (fun _ _ => storedUnder_stable) ?_
    exact fun creation key hplan => keyOf_eq hname hplan
  have hcond : (createSystem app).Along (fun d m => d.Meets (fun _ _ _ _ => True) m) (.start s)
      ms := System.along_of_forall fun _ _ _ _ _ _ _ => trivial
  have hc := soundNamed (fun _ => doings_stable) hbody (fun _ _ _ _ ha _ => ⟨ha, trivial⟩)
    (recorded_start hs hempty) hs.begun hcond h c.named_names
  have hends : RequestEnds σ app i k True StoredUnder (.ok response) c.st :=
    sat_done.mp (hc.1.2 i k _ hk) c.st .refl hc.1.1
  obtain ⟨creation, key, hplan, hanswered⟩ := hends.of_ok
  have hstored : StoredUnder key response c.st := by
    obtain ⟨hstored, -⟩ | ⟨x, hdone⟩ := hanswered
    · exact hstored
    · have hmem : (key, response) ∈ (doings i c.st).stored := by simp [hdone]
      exact ⟨i, mem_entriesOf.mp hmem⟩
  obtain ⟨j, hj⟩ := hstored
  obtain ⟨k', p', creation', hk', hplan'⟩ := call_of_keyOf (hc.1.1.keyed j key response hj)
  obtain ⟨htenant, hroute, hheader⟩ := CreateRequest.key_of_plan hplan
  obtain ⟨htenant', hroute', hheader'⟩ := CreateRequest.key_of_plan hplan'
  exact ⟨key, j, k', p', hj, hk', htenant'.symm.trans htenant, hroute'.symm.trans hroute,
    hheader'.trans hheader.symm⟩

/-- Two tasks of tenant 1. -/
def sharedTasks : AppState :=
  { (default : AppState) with
    db := { (default : Database) with
      tasks := ⟨[⟨100, 1, none, "t", none, .open, .low, none, none, 10, 10, 0, 0⟩,
        ⟨101, 1, none, "u", none, .open, .low, none, none, 10, 10, 0, 0⟩], by decide⟩ } }

/-- A comment of the user on the task, under the key `k`. -/
def commentUnderKey (userId taskId : Uuid) (body : String) : CreateRequest :=
  ⟨⟨userId, 1, .member, 0⟩, some "k", .createTaskComment taskId body⟩

/-- A statement of call `i`, which generates the identifier `uuid`, if one. -/
def keyMove (i uuid : Nat) : Move Env CreateRequest := .exec i { (default : Env) with pid := i, uuid }

/-- The user 10 comments on the task 100; afterwards the user 11 comments on the task 101. -/
def sameKeyRun : List (Move Env CreateRequest) :=
  .call (commentUnderKey 10 100 "a") :: (List.range 9).map (fun n => keyMove 0 (n + 1)) ++
    [.call (commentUnderKey 11 101 "b"), keyMove 1 20]

/-- The response to the first of them. -/
def firstResponse : StoredResponse :=
  Http.createdResponse (Http.commentResponseValue default ⟨6, 100, 1, 10, "a", 0, 0⟩)

theorem sharedTasks_keyStart : KeyStart sharedTasks := ⟨rfl, rfl, rfl, rfl, rfl⟩

theorem sameKeyRun_ends : ∃ c, (createSystem default).exec (.start sharedTasks) sameKeyRun = some c ∧
    c.calls[0]? = some (commentUnderKey 10 100 "a", .done (.ok firstResponse)) ∧
    c.calls[1]? = some (commentUnderKey 11 101 "b", .done (.ok firstResponse)) ∧
    c.st.history.created = [(0, .comment, 6)] := by
  have hrun : ((createSystem default).exec (.start sharedTasks) sameKeyRun).map (fun c =>
      (c.calls[0]?, c.calls[1]?, c.st.history.created)) =
      some (some (commentUnderKey 10 100 "a", .done (.ok firstResponse)),
        some (commentUnderKey 11 101 "b", .done (.ok firstResponse)), [(0, .comment, 6)]) := rfl
  obtain ⟨c, hc, h⟩ := Option.map_eq_some_iff.mp hrun
  simp only [Prod.mk.injEq] at h
  exact ⟨c, hc, h⟩

/-- The theorem at that run. -/
theorem replayed_from_same_key_comment :
    ∃ c, (createSystem default).exec (.start sharedTasks) sameKeyRun = some c ∧
      ∃ key j k' p, (j, key, firstResponse) ∈ c.st.history.stored ∧ c.calls[j]? = some (k', p) ∧
        k'.user.tenantId = 1 ∧ k'.route.keyRoute = "comments:create" ∧
        Http.requiredIdempotencyKey k'.idempotencyKey = .ok "k" := by
  obtain ⟨c, hc, -, hk, -⟩ := sameKeyRun_ends
  exact ⟨c, hc, replayed_from_same_key sharedTasks_keyStart (fun _ => rfl) hc hk⟩

/-- With its first statement the second request is answered with the comment of the first, another
user's on another task, and it has created nothing. -/
theorem replay_to_another_user : KeyStart sharedTasks ∧
    (∀ key, sharedTasks.cache.idempotency key = none) ∧
    ∃ c, (createSystem default).exec (.start sharedTasks) sameKeyRun = some c ∧
      c.calls[0]? = some (commentUnderKey 10 100 "a", .done (.ok firstResponse)) ∧
      c.calls[1]? = some (commentUnderKey 11 101 "b", .done (.ok firstResponse)) ∧
      c.st.history.created = [(0, .comment, 6)] :=
  ⟨sharedTasks_keyStart, fun _ => rfl, sameKeyRun_ends⟩

end Fluxa
