import Fluxa.Idempotency.Replays

/-!
# Idempotency — retries

Whether a request that has released its key has left a resource behind.  The handlers release the key on every error, also on one of a call that comes after the commit, and on that of a commit of which only the result was lost.  **`released_created_nothing`**: where neither happens, a released key means that nothing was created, and a client that retries until it gets a response has created one resource.  **`failed_bump_duplicates`** is a run in which the cache fails after the commit.
-/

namespace Fluxa.Idempotency
open Interleave Relational Contract

/-- The resource is in the database. -/
def InDatabase (s : AppState) : ResourceKind → Uuid → Bool
  | .invitation, id => (s.db.invitations.find? id).isSome
  | .project, id => (s.db.projects.find? id).isSome
  | .label, id => (s.db.labels.find? id).isSome
  | .webhook, id => (s.db.webhooks.find? id).isSome
  | .comment, id => (s.db.comments.find? id).isSome
  | .attachment, id => (s.db.attachments.find? id).isSome
  | .task, id => (s.db.tasks.find? id).isSome
  | .export, id => (s.db.jobs.find? id).isSome

/-- No resource is there of a request that has released its key. -/
def ReleasedNothing (s : AppState) : Prop :=
  ∀ i ∈ s.history.released, ∀ kind id, (i, kind, id) ∈ s.history.created →
    InDatabase s kind id = false

/-- How many resources have been created under the key. -/
def createdUnder (app : App) (key : IdempotencyKey)
    (c : Config Event Env AppState AppError CreateRequest StoredResponse) : Nat :=
  c.st.history.created.countP fun x => keyOf app c.names x.1 = some key

/-- What one call has created is all that has been created under the key. -/
theorem createdUnder_eq {app : App} {key : IdempotencyKey} {i : Nat}
    {c : Config Event Env AppState AppError CreateRequest StoredResponse}
    (h : ∀ y ∈ c.st.history.created, keyOf app c.names y.1 = some key ↔ y.1 = i) :
    createdUnder app key c = (doings i c.st).created.length := by
  change _ = (entriesOf i c.st.history.created).length
  rw [createdUnder, entriesOf, List.length_map, ← List.countP_eq_length_filter]
  refine List.countP_congr fun y hy => ?_
  rw [decide_eq_true_iff, decide_eq_true_iff]
  exact h y hy

/-- The move is made without a failure; or its request has created nothing yet, and does not with
this move. -/
def Careful (app : App) (c : Config Event Env AppState AppError CreateRequest StoredResponse) :
    Move Env CreateRequest → Prop
  | .call _ => True
  | .exec i e => e.fault ≠ .none → (doings i c.st).created = [] ∧
      ((createSystem app).step c (.exec i e)).all fun d =>
        d.st.history.created = c.st.history.created

/-- The requests of a run in which no call fails once the resource of its request is created. -/
def careful (app : App) (name : Nat → Option CreateRequest) : Setting where
  ttl := app.config.idempotencyTtl
  key? := keyOf app name
  known _ _ := True
  careless := False

/-- Where every commit has been reported, and no call fails after one, the excuse is that there is no
resource. -/
theorem Excused.nothing {σ : Setting} {i : Nat} {s : AppState} {xs : List (ResourceKind × Uuid)}
    (hxs : Excused σ i s xs) (hu : s.history.unreported = []) (hσ : ¬ σ.careless) : xs = [] := by
  obtain hnil | hmem | hcareless := hxs
  · exact hnil
  · rw [hu] at hmem
    cases hmem
  · exact absurd hcareless hσ

section Run

variable {app : App} {s : AppState} {ms : List (Move Env CreateRequest)}
  {c : Config Event Env AppState AppError CreateRequest StoredResponse}
  {name : Nat → Option CreateRequest}

/-- What the requests of a careful run keep. -/
def CarefulInv (app : App) (name : Nat → Option CreateRequest) (s : AppState) : Prop :=
  Recorded (careful app name) s ∧ ∀ i, Course (careful app name) i s

theorem CarefulInv.step (i : Nat) (e : Env) (s s' : AppState) (hs : CarefulInv app name s)
    (h : KeyStep (careful app name) i e s s') : CarefulInv app name s' :=
  ⟨h.recorded hs.1, fun j => h.course (hs.2 j)⟩

/-- A call only fails where its request has created nothing. -/
def FailsEarly (i : Nat) (_ : Event) (e : Env) (s : AppState) : Prop :=
  e.fault ≠ .none → (doings i s).created = []

theorem careful_body (i : Nat) (k : CreateRequest) (hname : name i = some k) :
    (requestContract (@CarefulInv.step app name) FailsEarly).Triple i (Begun i)
      ((createSystem app).body k) (RequestEnds (careful app name) app i k True StoredUnder) := by
  refine handler_triple (fun _ _ _ h hf => .inl (h hf)) (fun _ _ _ _ _ => trivial)
    (fun _ _ _ _ => trivial) rfl (fun key s entry r hi => hi.1.ready key entry r)
    (fun _ _ _ => storedUnder_lasting) (fun _ _ => storedUnder_stable) ?_
  exact fun creation key hplan => keyOf_eq hname hplan

variable (hs : KeyStart s) (hempty : ∀ key, s.cache.idempotency key = none)
  (hcareful : (createSystem app).Along (Careful app) (.start s) ms)
  (h : (createSystem app).exec (.start s) ms = some c)
include hs hempty hcareful h

theorem careful_keeps : Keeps (requestContract (@CarefulInv.step app c.names)
    FailsEarly) (fun i k => RequestEnds (careful app c.names) app i k True StoredUnder) c ∧
    c.st.history.unreported = [] := by
  have hcond : (createSystem app).Along (fun d m => d.Meets FailsEarly m) (.start s) ms := by
    refine hcareful.mono fun d m hm i e he l _ hf => ?_
    subst he
    exact (hm hf).1
  have hstart : CarefulInv app c.names s :=
    ⟨recorded_start hs hempty, fun i => .inl (hs.begun i)⟩
  have hadm : ∀ i l e s, (createSystem app).adm i l e s = true → FailsEarly i l e s →
      (requestContract (@CarefulInv.step app c.names) FailsEarly).adm i l e s :=
    fun _ _ _ _ ha hf => ⟨ha, hf⟩
  refine ⟨(soundNamed (fun _ => doings_stable) careful_body hadm hstart hs.begun hcond h
    c.named_names).1, ?_⟩
  have hsteps := alongNamed (fun _ => doings_stable) careful_body hadm hstart hs.begun hcond h
    c.named_names
  -- A commit that is not reported would have created a resource with a failure.
  refine System.exec_invariant (I := fun d => d.st.history.unreported = [])
    (fun d m d' hd hm hstep => ?_) hs.unreported (hsteps.and hcareful) h
  cases m with
  | call k =>
      obtain rfl := System.step_call hstep
      exact hd
  | exec i e =>
      obtain ⟨l, hl, -⟩ := label_of_step hstep
      have hguar : KeyStep (careful app c.names) i e d.st d'.st :=
        (hm.1 d' hstep i e rfl l hl).2.1
      cases hguar with
      | apart h => exact h.unreported.trans hd
      | create _ hc =>
          rw [hc.unreported]
          split
          · exact hd
          · rename_i hf
            obtain ⟨kind, id, hcreated⟩ := hc.created
            have hsame := (hm.2 hf).2
            rw [hstep, Option.all_some, decide_eq_true_eq, hcreated] at hsame
            exact absurd hsame (List.cons_ne_self _ _)
      | claim _ _ _ _ h => rw [h]; exact hd
      | extend _ _ _ h => rw [h]; exact hd
      | store _ _ _ h => rw [h]; exact hd
      | release _ _ _ h => rw [h]; exact hd

/-- A request that has ended with an error has created nothing and stored nothing. -/
theorem careful_error {j : Nat} {k : CreateRequest} {x : AppError}
    (hk : c.calls[j]? = some (k, .done (.error x))) :
    (doings j c.st).created = [] ∧ (doings j c.st).stored = [] := by
  obtain ⟨hkeeps, hu⟩ := careful_keeps hs hempty hcareful h
  have hends : RequestEnds (careful app c.names) app j k True StoredUnder (.error x) c.st :=
    sat_done.mp (hkeeps.2 j k _ hk) c.st .refl hkeeps.1
  have hbegun (hb : Begun j c.st) : (doings j c.st).created = [] ∧ (doings j c.st).stored = [] := by
    rw [hb]
    exact ⟨rfl, rfl⟩
  obtain hb | ⟨creation, key, -, hfails⟩ := hends.of_error
  · exact hbegun hb
  obtain hb | ⟨-, hclaimed⟩ | ⟨xs, hdone, hxs⟩ | ⟨-, xs, hdone, hxs⟩ | hcareless := hfails
  · exact hbegun hb
  · rw [hclaimed]
    exact ⟨rfl, rfl⟩
  · rw [hdone]
    exact ⟨hxs.nothing hu id, rfl⟩
  · rw [hdone]
    exact ⟨hxs.nothing hu id, rfl⟩
  · exact False.elim hcareless

/-- A request that is the only one with its key to have ended with a response has created its
resource itself. -/
theorem careful_response {i : Nat} {k : CreateRequest} {response : StoredResponse}
    {creation : Creation} {key : IdempotencyKey}
    (hk : c.calls[i]? = some (k, .done (.ok response))) (hplan : k.plan app = .ok (creation, key))
    (hothers : ∀ j ≠ i, keyOf app c.names j = some key →
      ∃ k' x, c.calls[j]? = some (k', .done (.error x))) :
    ∃ x, doings i c.st = ⟨[key], [x], [(key, response)], 0⟩ := by
  obtain ⟨hkeeps, -⟩ := careful_keeps hs hempty hcareful h
  have hends : RequestEnds (careful app c.names) app i k True StoredUnder (.ok response) c.st :=
    sat_done.mp (hkeeps.2 i k _ hk) c.st .refl hkeeps.1
  obtain ⟨creation', key', hplan', hanswered⟩ := hends.of_ok
  obtain ⟨rfl, rfl⟩ : creation = creation' ∧ key = key' := by
    rw [hplan] at hplan'
    cases hplan'
    exact ⟨rfl, rfl⟩
  obtain ⟨⟨j, hj⟩, hb⟩ | hstored := hanswered
  · -- A replayed response is that of another request, which has ended with an error.
    have hmem : (key, response) ∈ (doings j c.st).stored := mem_entriesOf.mpr hj
    have hji : j ≠ i := by
      rintro rfl
      rw [hb] at hmem
      cases hmem
    obtain ⟨k', x, hk'⟩ := hothers j hji (hkeeps.1.1.keyed j key response hj)
    rw [(careful_error hs hempty hcareful h hk').2] at hmem
    cases hmem
  · exact hstored

end Run

end Fluxa.Idempotency

namespace Fluxa
open Interleave Relational Contract Idempotency

/-- In a run in which no call fails once the resource of its request is created, nothing is left of
a request that has released its key; and under a key with which all requests but one have failed,
and that one was answered, one resource has been created. -/
theorem released_created_nothing {app : App} {s : AppState} {ms : List (Move Env CreateRequest)}
    {c : Config Event Env AppState AppError CreateRequest StoredResponse} (hs : KeyStart s)
    (hempty : ∀ key, s.cache.idempotency key = none)
    (hcareful : (createSystem app).Along (Careful app) (.start s) ms)
    (h : (createSystem app).exec (.start s) ms = some c) :
    ReleasedNothing c.st ∧ ∀ i k creation key response,
      c.calls[i]? = some (k, .done (.ok response)) → k.plan app = .ok (creation, key) →
      (∀ j ≠ i, keyOf app c.names j = some key →
        ∃ k' x, c.calls[j]? = some (k', .done (.error x))) → createdUnder app key c = 1 := by
  obtain ⟨hkeeps, hu⟩ := careful_keeps hs hempty hcareful h
  constructor
  · intro i hi kind id hcreated
    have hreleased : (doings i c.st).released ≠ 0 := (List.count_pos_iff.mpr hi).ne'
    have hmem : (kind, id) ∈ (doings i c.st).created := mem_entriesOf.mpr hcreated
    exfalso
    obtain hb | ⟨key, hc | ⟨x, hc⟩ | ⟨r, x, hc⟩ | ⟨xs, hc, hxs⟩⟩ := hkeeps.1.2 i
    · exact hreleased hb.unreleased
    · exact hreleased (by rw [hc])
    · exact hreleased (by rw [hc])
    · exact hreleased (by rw [hc])
    · rw [hc, hxs.nothing hu fun h => h] at hmem
      cases hmem
  · intro i k creation key response hk hplan hothers
    obtain ⟨x, hdone⟩ := careful_response hs hempty hcareful h hk hplan hothers
    have hkey : keyOf app c.names i = some key := keyOf_eq (c.named_names i k _ hk) hplan
    have hlength : (doings i c.st).created.length = 1 := by rw [hdone]; rfl
    rw [← hlength]
    -- What has been created under the key has been created by this request.
    refine createdUnder_eq fun ⟨j, y⟩ hy => ⟨fun hj => ?_, fun hj => hj ▸ hkey⟩
    by_contra hji
    obtain ⟨k', x', hk'⟩ := hothers j hji hj
    have hmem : y ∈ (doings j c.st).created := mem_entriesOf.mpr hy
    rw [(careful_error hs hempty hcareful h hk').1] at hmem
    cases hmem

instance Idempotency.Careful.decidable {app : App}
    {c : Config Event Env AppState AppError CreateRequest StoredResponse} :
    ∀ m, Decidable (Careful app c m)
  | .call _ => .isTrue trivial
  | .exec i e => inferInstanceAs (Decidable (e.fault ≠ .none → (doings i c.st).created = [] ∧
      ((createSystem app).step c (.exec i e)).all fun d =>
        d.st.history.created = c.st.history.created))

/-- An owner creates a project under the key `k`. -/
def projectUnderKey : CreateRequest := ⟨⟨10, 1, .owner, 0⟩, some "k", .createProject ⟨"P", none⟩⟩

/-- A statement of call `i` that fails. -/
def failingMove (i : Nat) : Move Env CreateRequest :=
  .exec i { (default : Env) with pid := i, fault := .failed }

/-- The `INSERT` of the first request fails, and the second succeeds. -/
def failedInsertRun : List (Move Env CreateRequest) :=
  .call projectUnderKey :: (List.range 5).map (fun n => keyMove 0 (n + 1)) ++
    [failingMove 0, keyMove 0 6, .call projectUnderKey] ++
    (List.range 10).map fun n => keyMove 1 (n + 7)

/-- The response to the second. -/
def projectResponse : StoredResponse :=
  Http.createdResponse (Http.projectResponseValue default ⟨11, 1, "P", none, 10, 10, 0, 0, none⟩)

/-- The theorem at that run. -/
theorem released_created_nothing_failedInsert :
    ∃ c, (createSystem default).exec (.start default) failedInsertRun = some c ∧
      ReleasedNothing c.st ∧ createdUnder default ⟨1, "projects:create", "k"⟩ c = 1 := by
  have hrun : ((createSystem default).exec (.start default) failedInsertRun).map (·.calls) =
      some [(projectUnderKey, .done (.error (databaseError ""))),
        (projectUnderKey, .done (.ok projectResponse))] := rfl
  have hcareful : (createSystem default).Along (Careful default) (.start default)
      failedInsertRun := by decide +kernel
  obtain ⟨c, hc, hcalls⟩ := Option.map_eq_some_iff.mp hrun
  obtain ⟨hreleased, hone⟩ := released_created_nothing default_keyStart (fun _ => rfl) hcareful hc
  have hk : c.calls[1]? = some (projectUnderKey, .done (.ok projectResponse)) := by
    rw [hcalls]
    rfl
  have hplan : projectUnderKey.plan default =
      .ok (.project ⟨"P", none⟩, ⟨1, "projects:create", "k"⟩) := rfl
  refine ⟨c, hc, hreleased, hone 1 _ _ _ _ hk hplan fun j hj hkey => ?_⟩
  obtain ⟨k, p, creation, hcall, -⟩ := call_of_keyOf hkey
  rw [hcalls] at hcall ⊢
  match j, hj with
  | 0, _ => exact ⟨_, _, rfl⟩
  | j + 2, _ => cases hcall

/-- The tenant 1 of its owner 10, with nothing in it. -/
def ownersTenant : AppState :=
  { (default : AppState) with
    db := { (default : Database) with
      users := .single ⟨10, "a@x", "h", none, none, 0⟩
      tenants := .single ⟨1, "T", 0⟩
      memberships := .single ⟨1, 10, .owner, 0⟩ } }

/-- The owner creates a task under the key `k`. -/
def taskUnderKey : CreateRequest :=
  ⟨⟨10, 1, .owner, 0⟩, some "k", .createTask ⟨none, "T", none, none, none, none, none⟩⟩

/-- The cache fails when the first request has inserted its task, and the second succeeds. -/
def failedBumpRun : List (Move Env CreateRequest) :=
  .call taskUnderKey :: (List.range 7).map (fun n => keyMove 0 (n + 1)) ++
    [failingMove 0, keyMove 0 8, .call taskUnderKey] ++
    (List.range 11).map fun n => keyMove 1 (n + 9)

/-- The first request releases its key and leaves its task behind; the second creates another
task. -/
theorem failed_bump_duplicates : KeyStart ownersTenant ∧
    (∀ key, ownersTenant.cache.idempotency key = none) ∧
    ∃ c, (createSystem default).exec (.start ownersTenant) failedBumpRun = some c ∧
      ¬ ReleasedNothing c.st ∧
      (c.calls.map fun x => x.2.ended) = [true, true] ∧ (c.result? 1).any (·.isOk) = true ∧
      createdUnder default ⟨1, "tasks:create", "k"⟩ c = 2 := by
  have hrun : ((createSystem default).exec (.start ownersTenant) failedBumpRun).any fun c =>
      (0 ∈ c.st.history.released ∧ (0, .task, 5) ∈ c.st.history.created ∧
        InDatabase c.st .task 5 = true) ∧
      (c.calls.map fun x => x.2.ended) = [true, true] ∧ (c.result? 1).any (·.isOk) = true ∧
      createdUnder default ⟨1, "tasks:create", "k"⟩ c = 2 := by decide +kernel
  obtain ⟨c, hc, h⟩ := (Option.any_eq_true _ _).mp hrun
  obtain ⟨⟨hreleased, hcreated, hrow⟩, h⟩ := of_decide_eq_true h
  refine ⟨⟨rfl, rfl, rfl, rfl, rfl⟩, fun _ => rfl, c, hc, fun hnothing => ?_, h⟩
  rw [hnothing 0 hreleased .task 5 hcreated] at hrow
  cases hrow

end Fluxa
