import Fluxa.Idempotency.Services

/-!
# Idempotency — released keys

A request that ends with an error after it has claimed its key must have released it.  **`error_releases_key_iff`**: with no failure of the infrastructure this is so of exactly the requests that have nothing left to be validated once the key is claimed; a task or an export whose payload is refused then leaves the pending marker (**`refused_task_keeps_key`**).
-/

namespace Fluxa.Idempotency
open Interleave Relational Contract

/-- No call has done anything with the keys yet. -/
structure KeyStart (s : AppState) : Prop where
  keyClaims : s.history.keyClaims = []
  created : s.history.created = []
  unreported : s.history.unreported = []
  stored : s.history.stored = []
  released : s.history.released = []

theorem KeyStart.begun {s : AppState} (h : KeyStart s) (i : Nat) : Begun i s := by
  simp [Begun, doings, Doings.none, h.keyClaims, h.created, h.stored, h.released]

theorem default_keyStart : KeyStart default := ⟨rfl, rfl, rfl, rfl, rfl⟩

/-- The key of call `i`, by the request that it is. -/
def keyOf (app : App) (name : Nat → Option CreateRequest) (i : Nat) : Option IdempotencyKey :=
  (name i).bind fun k => (k.plan app).toOption.map (·.2)

theorem keyOf_eq {app : App} {name : Nat → Option CreateRequest} {i : Nat} {k : CreateRequest}
    {creation : Creation} {key : IdempotencyKey} (hname : name i = some k)
    (hplan : k.plan app = .ok (creation, key)) : keyOf app name i = some key := by
  simp [keyOf, hname, hplan, Except.toOption]

/-- A call with a key is one that has come in with it. -/
theorem call_of_keyOf {app : App}
    {c : Config Event Env AppState AppError CreateRequest StoredResponse} {i : Nat}
    {key : IdempotencyKey} (h : keyOf app c.names i = some key) :
    ∃ k p creation, c.calls[i]? = some (k, p) ∧ k.plan app = .ok (creation, key) := by
  obtain ⟨k, hname, hk⟩ := Option.bind_eq_some_iff.mp h
  obtain ⟨⟨_, p⟩, hcall, rfl⟩ := Option.map_eq_some_iff.mp hname
  obtain ⟨q, hq, rfl⟩ := Option.map_eq_some_iff.mp hk
  refine ⟨_, p, q.1, hcall, ?_⟩
  revert hq
  cases CreateRequest.plan app _ with
  | error x => exact fun hq => by cases hq
  | ok q' => exact fun hq => by cases hq; rfl

/-- The key holds a pending marker. -/
def PendingMarker (s : AppState) (key : IdempotencyKey) : Prop :=
  ∃ expiresAt, s.cache.idempotency key = some ⟨.pending, expiresAt⟩

/-- Every call on the infrastructure succeeds. -/
def NoFault (_ : Nat) (_ : Event) (e : Env) (_ : AppState) : Prop := e.fault = .none

/-- In no run without failures does a call of the request end with an error, having claimed a key
on which there is still a pending marker. -/
def ReleasesOnError (app : App) (k : CreateRequest) : Prop :=
  ∀ s ms c i e d x key, KeyStart s →
    (createSystem app).Along (fun c m => c.Meets NoFault m) (.start s) (ms ++ [.exec i e]) →
    (createSystem app).exec (.start s) ms = some c →
    (createSystem app).step c (.exec i e) = some d →
    d.calls[i]? = some (k, .done (.error x)) → (i, key) ∈ d.st.history.keyClaims →
    ¬ PendingMarker d.st key

section Releases

variable {app : App} {k : CreateRequest}

/-- The requests of a run, each with its key, where no call fails. -/
def faultless (app : App) (name : Nat → Option CreateRequest) : Setting where
  ttl := app.config.idempotencyTtl
  key? := keyOf app name
  known _ _ := True
  careless := False

/-- With no failure a request whose creation is valid ends with an error only once it has released
its key, or if it has never claimed one. -/
theorem releases_of_valid
    (hvalid : ∀ creation key, k.plan app = .ok (creation, key) → creation.valid app = true) :
    ReleasesOnError app k := by
  intro s ms c i e d x key hs hcond hc hd hk hclaimed hpending
  have hI : ∀ (i : Nat) (e : Env) (s s' : AppState), True →
      KeyStep (faultless app d.names) i e s s' → True := fun _ _ _ _ _ _ => trivial
  have hbody : ∀ i k, d.names i = some k → (requestContract hI NoFault).Triple i (Begun i)
      ((createSystem app).body k) (RequestEnds (faultless app d.names) app i k False fun _ _ _ => True) := by
    intro i k hname
    refine handler_triple (fun _ _ _ h hf => absurd h hf) (fun _ _ _ h hf => absurd h hf)
      (fun _ _ _ _ => trivial) rfl (fun _ _ _ _ _ _ _ => trivial)
      (fun _ _ _ _ _ _ _ _ _ _ _ => trivial) (fun _ _ _ _ _ _ _ _ _ _ _ => trivial) ?_
    exact fun creation key hplan => keyOf_eq hname hplan
  obtain ⟨⟨l, hstep, hunreleased⟩, hends⟩ := finishNamed (fun _ => doings_stable) hbody
    (fun _ _ _ _ ha hf => ⟨ha, hf⟩) trivial hs.begun hcond hc hd d.named_names hk
  have hclaim : key ∈ (doings i d.st).claimed := mem_entriesOf.mpr hclaimed
  have hbegun : ¬ Begun i d.st := by
    intro hb
    rw [hb] at hclaim
    cases hclaim
  obtain hb | ⟨creation, planned, hplan, hfails⟩ := hends.of_error
  · exact hbegun hb
  obtain hb | ⟨hrefused, -⟩ | ⟨xs, hreleased, -⟩ | ⟨hf, -⟩ | hf := hfails
  · exact hbegun hb
  · rw [hvalid creation planned hplan] at hrefused
    cases hrefused
  · -- It is with its last statement that the call has released the key.
    have hkey : keyOf app d.names i = some planned := keyOf_eq (d.named_names i k _ hk) hplan
    rw [hreleased] at hclaim
    obtain rfl := List.mem_singleton.mp hclaim
    obtain ⟨key', hkey', hnone⟩ := hstep.released hunreleased (by simp [hreleased])
    obtain rfl := Option.some.inj (hkey.symm.trans hkey')
    obtain ⟨expiresAt, hmarker⟩ := hpending
    rw [hnone] at hmarker
    cases hmarker
  · exact hf
  · exact hf

/-- The state in which call 0, and nobody else, has just claimed the key. -/
def claimedBy0 (key : IdempotencyKey) : AppState :=
  { Cache.setIdempotency default key (some ⟨.pending, none⟩) with
    history.keyClaims := [(0, key)] }

/-- The state in which its marker expires as well. -/
def expiringBy0 (app : App) (key : IdempotencyKey) : AppState :=
  Cache.setIdempotency (claimedBy0 key) key
    (some ⟨.pending, some ((default : Env).now + app.config.idempotencyTtl)⟩)

/-- A request that is refused once its key is claimed, alone from the empty state: `GET`, `SETNX`
and `EXPIRE`, and it ends. -/
theorem refused_run {A B : Type} {key : IdempotencyKey} {x : AppError} {create : B → Service A}
    {respond : A → StoredResponse}
    (hk : k.handler app = Http.idempotent app key (.error x) create respond) :
    ∃ c, (createSystem app).exec (.start default) [.call k, .exec 0 default, .exec 0 default] =
        some c ∧
      (createSystem app).step c (.exec 0 default) =
        some ⟨expiringBy0 app key, [(k, .done (.error x))]⟩ := by
  have hcall : (createSystem app).step (.start default) (.call k) =
      some ⟨default, [(k, Http.idempotent app key (.error x) create respond)]⟩ := by
    rw [← hk]
    rfl
  have hlive : Cache.idempotencyEntry (claimedBy0 key) key (default : Env).now =
      some ⟨.pending, none⟩ := by
    simp [Cache.idempotencyEntry, claimedBy0, Cache.setIdempotency, Entry.live]
  obtain ⟨eff, next, hc, heff, hnext⟩ : ∃ eff next,
      (createSystem app).exec (.start default) [.call k, .exec 0 default, .exec 0 default] =
        some ⟨claimedBy0 key, [(k, .stmt .quiet (fun _ => true) eff next)]⟩ ∧
      eff default (claimedBy0 key) = expiringBy0 app key ∧
      next default (claimedBy0 key) = .done (.error x) := by
    simp only [System.exec, hcall]
    refine ⟨_, _, rfl, ?_, rfl⟩
    have hfault : (default : Env).fault = .none := rfl
    simp only [hfault, hlive]
    rfl
  refine ⟨_, hc, ?_⟩
  rw [← heff, ← hnext]
  rfl

/-- A request with something left to be refused once its key is claimed leaves the marker. -/
theorem keeps_key_of_invalid {creation : Creation} {key : IdempotencyKey}
    (hplan : k.plan app = .ok (creation, key)) (hinvalid : creation.valid app = false) :
    ¬ ReleasesOnError app k := by
  have hhandler : k.handler app = creation.run app k.user key := by
    rw [handler_eq, hplan]
    rfl
  obtain ⟨A, B, x, create, respond, hrun⟩ : ∃ (A B : Type) (x : AppError)
      (create : B → Service A) (respond : A → StoredResponse),
      k.handler app = Http.idempotent app key (.error x) create respond := by
    rw [hhandler]
    cases creation with
    | task payload =>
        cases hinput : payload.toInput with
        | ok input => simp [Creation.valid, hinput, Except.toOption] at hinvalid
        | error x =>
            rw [Creation.run, hinput]
            exact ⟨_, _, x, _, _, rfl⟩
    | exportJob payload =>
        cases hinput : payload.toInput app with
        | ok input => simp [Creation.valid, hinput, Except.toOption] at hinvalid
        | error x =>
            rw [Creation.run, hinput]
            exact ⟨_, _, x, _, _, rfl⟩
    | _ => cases hinvalid
  obtain ⟨c, hc, hd⟩ := refused_run hrun
  have hcall : ∀ d : Config Event Env AppState AppError CreateRequest StoredResponse,
      d.Meets NoFault (.call k) := by
    intro d i e h
    cases h
  have hexec : ∀ d : Config Event Env AppState AppError CreateRequest StoredResponse,
      d.Meets NoFault (.exec 0 default) := by
    intro d i e h l _
    cases h
    rfl
  intro hreleases
  refine hreleases default _ c 0 default _ x key default_keyStart ?_ hc hd rfl
    (List.mem_singleton_self _) ⟨_, Function.update_self ..⟩
  exact ⟨hcall _, fun _ _ => ⟨hexec _, fun _ _ => ⟨hexec _, fun _ _ => ⟨hexec _, fun _ _ =>
    trivial⟩⟩⟩⟩

end Releases

end Fluxa.Idempotency

namespace Fluxa
open Interleave Idempotency

/-- Exactly the requests with nothing left to be refused release the keys that they have claimed
when they end with an error. -/
theorem error_releases_key_iff (app : App) (k : CreateRequest) : ReleasesOnError app k ↔
    ∀ creation key, k.plan app = .ok (creation, key) → creation.valid app = true := by
  refine ⟨fun h creation key hplan => ?_, releases_of_valid⟩
  by_contra hinvalid
  exact keeps_key_of_invalid hplan (Bool.eq_false_of_not_eq_true hinvalid) h

/-- A task with a blank title. -/
def untitled : Http.TaskPayload := ⟨none, " ", none, none, none, none, none⟩

/-- A member wants to create it. -/
def untitledTask : CreateRequest := ⟨⟨10, 1, .member, 0⟩, some "k", .createTask untitled⟩

/-- The title is refused once the key is claimed, and the marker stays. -/
theorem untitled_task_keeps_key : ¬ ReleasesOnError default untitledTask := by
  have hplan : untitledTask.plan default = .ok (.task untitled, ⟨1, "tasks:create", "k"⟩) := rfl
  exact keeps_key_of_invalid hplan (by decide)

end Fluxa
