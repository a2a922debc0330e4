import Fluxa.Idempotency.Retries

/-!
# Idempotency — one creation under a key

What concurrent requests under one key come to, while nothing fails and the key does not expire.  The marker under the key belongs to one request: **`HeldOnce`**, which every statement keeps.  **`create_once`**: one resource is created, all responses are the same, and after the first response every later request that passes its checks is answered with it by its first statement.  A request that does not pass them is refused before its key is looked at (**`later_request_refused`**).
-/

namespace Fluxa.Idempotency
open Interleave Relational Contract

/-- The request has claimed the key and has not released it. -/
def Holds (K : IdempotencyKey) (i : Nat) (s : AppState) : Prop :=
  K ∈ (doings i s).claimed ∧ (doings i s).released = 0

/-- What is under the key has not expired. -/
def Unexpired (K : IdempotencyKey) (e : Env) (s : AppState) : Prop :=
  ∀ entry, s.cache.idempotency K = some entry → entry.live e.now = true

/-- One request at a time holds the key; what it has stored is under the key, and without a holder
there is nothing under it. -/
structure HeldOnce (σ : Setting) (K : IdempotencyKey) (s : AppState) : Prop where
  keyed : ∀ i key, (i, key) ∈ s.history.keyClaims → σ.key? i = some key
  valid : ∀ i key r, (i, key, r) ∈ s.history.stored → Http.validStatus r.status = true
  holder : ∀ i j, Holds K i s → Holds K j s → i = j
  free : s.cache.idempotency K = none → ∀ i, ¬ Holds K i s
  storer : ∀ i r, (i, K, r) ∈ s.history.stored → Holds K i s
  settled : ∀ i r, (i, K, r) ∈ s.history.stored →
    ∃ entry, s.cache.idempotency K = some entry ∧ entry.value = .ready r

section HeldOnce

variable {σ : Setting} {K : IdempotencyKey} {i : Nat} {e : Env} {s s' : AppState}

/-- Nothing of it changes under the key. -/
theorem HeldOnce.congr (hs : HeldOnce σ K s) (hcache : s'.cache.idempotency K = s.cache.idempotency K)
    (hholds : ∀ j, Holds K j s' ↔ Holds K j s)
    (hstored : ∀ j r, (j, K, r) ∈ s'.history.stored ↔ (j, K, r) ∈ s.history.stored)
    (hkeyed : ∀ j key, (j, key) ∈ s'.history.keyClaims → σ.key? j = some key)
    (hvalid : ∀ j key r, (j, key, r) ∈ s'.history.stored → Http.validStatus r.status = true) :
    HeldOnce σ K s' where
  keyed := hkeyed
  valid := hvalid
  holder a b ha hb := hs.holder a b ((hholds a).mp ha) ((hholds b).mp hb)
  free hnone j hj := hs.free (hcache ▸ hnone) j ((hholds j).mp hj)
  storer j r hj := (hholds j).mpr (hs.storer j r ((hstored j r).mp hj))
  settled j r hj := hcache ▸ hs.settled j r ((hstored j r).mp hj)

theorem HeldOnce.same (hs : HeldOnce σ K s) (h : SameKeys s s') : HeldOnce σ K s' := by
  refine hs.congr (by rw [h.idempotency]) (fun j => ?_) (fun j r => by rw [h.stored])
    (by rw [h.keyClaims]; exact hs.keyed) (by rw [h.stored]; exact hs.valid)
  simp only [Holds, doings, h.keyClaims, h.released]

/-- A request that has claimed its key, and no more than that key, holds that key. -/
theorem holds_iff {key : IdempotencyKey} {D : Doings} (hD : doings i s = D)
    (hclaimed : D.claimed = [key]) (hreleased : D.released = 0) : Holds K i s ↔ key = K := by
  rw [Holds, hD, hclaimed, hreleased, List.mem_singleton]
  exact ⟨fun h => h.1.symm, fun h => ⟨h.symm, rfl⟩⟩

theorem HeldOnce.claim {key : IdempotencyKey} (hs : HeldOnce σ K s) (hkey : σ.key? i = some key)
    (hK : Unexpired K e s) (hdone : Begun i s)
    (hfree : Cache.idempotencyEntry s key e.now = none)
    (hne : ∀ j ≠ i, (Holds K j s' ↔ Holds K j s))
    (h : s' = { Cache.setIdempotency s key (some ⟨.pending, none⟩) with
      history.keyClaims := (i, key) :: s.history.keyClaims }) : HeldOnce σ K s' := by
  have hkeyed : ∀ j key, (j, key) ∈ s'.history.keyClaims → σ.key? j = some key := by
    subst h
    intro j key' hj
    rcases List.mem_cons.mp hj with hj | hj
    · cases hj
      exact hkey
    · exact hs.keyed j key' hj
  have hafter : Holds K i s' ↔ key = K := holds_iff (h ▸ Begun.claim hdone) rfl rfl
  have hbefore : ¬ Holds K i s := fun hi => by
    have hmem := hi.1
    rw [hdone] at hmem
    cases hmem
  by_cases hkK : key = K
  · -- The key was free, and is now held by this request.
    subst hkK
    have hnone : s.cache.idempotency key = none := by
      cases hentry : s.cache.idempotency key with
      | none => rfl
      | some entry =>
          rw [Cache.idempotencyEntry, hentry, Option.filter_some, hK entry hentry] at hfree
          cases hfree
    have honly : ∀ j, Holds key j s' → j = i := fun j hj => by
      by_contra hji
      exact hs.free hnone j ((hne j hji).mp hj)
    have hstored : ∀ j r, (j, key, r) ∉ s'.history.stored := by
      rw [h]
      exact fun j r hj => hs.free hnone j (hs.storer j r hj)
    refine ⟨hkeyed, by rw [h]; exact hs.valid, fun a b ha hb => (honly a ha).trans (honly b hb).symm,
      fun hnone' => ?_, fun j r hj => (hstored j r hj).elim, fun j r hj => (hstored j r hj).elim⟩
    rw [h] at hnone'
    simp [Cache.setIdempotency] at hnone'
  · refine hs.congr ?_ (fun j => ?_) (fun j r => by rw [h]; rfl) hkeyed (by rw [h]; exact hs.valid)
    · rw [h]
      exact Function.update_of_ne (Ne.symm hkK) ..
    · by_cases hji : j = i
      · subst hji
        exact ⟨fun hj => absurd (hafter.mp hj) hkK, fun hj => absurd hj hbefore⟩
      · exact hne j hji

theorem HeldOnce.extend {key : IdempotencyKey} {entry : Entry IdempotencyValue} {expiresAt : Time}
    (hs : HeldOnce σ K s) (hlive : Cache.idempotencyEntry s key e.now = some entry) :
    HeldOnce σ K (Cache.setIdempotency s key (some ⟨entry.value, some expiresAt⟩)) := by
  have hentry : s.cache.idempotency key = some entry := (Option.filter_eq_some_iff.mp hlive).1
  by_cases hkK : key = K
  · subst hkK
    refine ⟨hs.keyed, hs.valid, hs.holder, fun hnone => ?_, hs.storer, fun j r hj => ?_⟩
    · simp [Cache.setIdempotency] at hnone
    · obtain ⟨entry', hentry', hvalue⟩ := hs.settled j r hj
      obtain rfl := Option.some.inj (hentry.symm.trans hentry')
      exact ⟨_, Function.update_self .., hvalue⟩
  · exact hs.congr (Function.update_of_ne (Ne.symm hkK) ..) (fun _ => .rfl) (fun _ _ => .rfl)
      hs.keyed hs.valid

theorem HeldOnce.store {key : IdempotencyKey} {x : ResourceKind × Uuid} {response : StoredResponse}
    {expiresAt : Time} (hs : HeldOnce σ K s) (hdone : doings i s = ⟨[key], [x], [], 0⟩)
    (hvalid : Http.validStatus response.status = true) : HeldOnce σ K
      { Cache.setIdempotency s key (some ⟨.ready response, some expiresAt⟩) with
        history.stored := (i, key, response) :: s.history.stored } := by
  have hvalid' : ∀ j key' r, (j, key', r) ∈ (i, key, response) :: s.history.stored →
      Http.validStatus r.status = true := by
    intro j key' r hj
    rcases List.mem_cons.mp hj with hj | hj
    · cases hj
      exact hvalid
    · exact hs.valid j key' r hj
  by_cases hkK : key = K
  · subst hkK
    have hi : Holds key i s := (holds_iff hdone rfl rfl).mpr rfl
    -- Nothing has been stored under the key, since the holder has not stored anything.
    have hnone : ∀ j r, (j, key, r) ∉ s.history.stored := by
      intro j r hj
      obtain rfl := hs.holder j i (hs.storer j r hj) hi
      have hmem : (key, r) ∈ (doings j s).stored := mem_entriesOf.mpr hj
      rw [hdone] at hmem
      cases hmem
    have hnew : ∀ j r, (j, key, r) ∈ (i, key, response) :: s.history.stored →
        j = i ∧ r = response := by
      intro j r hj
      rcases List.mem_cons.mp hj with hj | hj
      · cases hj
        exact ⟨rfl, rfl⟩
      · exact absurd hj (hnone j r)
    refine ⟨hs.keyed, hvalid', hs.holder, fun h => ?_, fun j r hj => ?_, fun j r hj => ?_⟩
    · simp [Cache.setIdempotency] at h
    · obtain ⟨rfl, -⟩ := hnew j r hj
      exact hi
    · obtain ⟨-, rfl⟩ := hnew j r hj
      exact ⟨_, Function.update_self .., rfl⟩
  · refine hs.congr (Function.update_of_ne (Ne.symm hkK) ..) (fun _ => .rfl) (fun j r => ?_)
      hs.keyed hvalid'
    refine ⟨fun hj => ?_, List.mem_cons_of_mem _⟩
    rcases List.mem_cons.mp hj with hj | hj
    · cases hj
      exact absurd rfl hkK
    · exact hj

theorem HeldOnce.release {key : IdempotencyKey} {xs : List (ResourceKind × Uuid)}
    (hs : HeldOnce σ K s) (hdone : doings i s = ⟨[key], xs, [], 0⟩)
    (hne : ∀ j ≠ i, (Holds K j s' ↔ Holds K j s))
    (h : s' = { Cache.setIdempotency s key none with
      history.released := i :: s.history.released }) : HeldOnce σ K s' := by
  have hbefore : Holds K i s ↔ key = K := holds_iff hdone rfl rfl
  have hafter : ¬ Holds K i s' := fun hi => by
    have hzero := hi.2
    rw [h] at hzero
    simp [doings] at hzero
  by_cases hkK : key = K
  · subst hkK
    have hi : Holds key i s := hbefore.mpr rfl
    have hnobody : ∀ j, ¬ Holds key j s' := fun j hj => by
      by_cases hji : j = i
      · exact hafter (hji ▸ hj)
      · exact hji (hs.holder j i ((hne j hji).mp hj) hi)
    have hnone : ∀ j r, (j, key, r) ∉ s'.history.stored := by
      rw [h]
      intro j r hj
      obtain rfl := hs.holder j i (hs.storer j r hj) hi
      have hmem : (key, r) ∈ (doings j s).stored := mem_entriesOf.mpr hj
      rw [hdone] at hmem
      cases hmem
    exact ⟨by rw [h]; exact hs.keyed, by rw [h]; exact hs.valid,
      fun a _ ha _ => (hnobody a ha).elim, fun _ => hnobody, fun j r hj => (hnone j r hj).elim,
      fun j r hj => (hnone j r hj).elim⟩
  · refine hs.congr ?_ (fun j => ?_) (fun j r => by rw [h]; rfl) (by rw [h]; exact hs.keyed)
      (by rw [h]; exact hs.valid)
    · rw [h]
      exact Function.update_of_ne (Ne.symm hkK) ..
    · by_cases hji : j = i
      · subst hji
        exact ⟨fun hj => absurd hj hafter, fun hj => absurd (hbefore.mp hj) hkK⟩
      · exact hne j hji

/-- Every statement keeps the key held once, while what is under it has not expired. -/
theorem KeyStep.heldOnce (h : KeyStep σ i e s s') (hknown : σ.known e s → Unexpired K e s)
    (hs : HeldOnce σ K s) : HeldOnce σ K s' := by
  have hne : ∀ j ≠ i, (Holds K j s' ↔ Holds K j s) := fun j hj => by
    rw [Holds, h.doings_of_ne (Ne.symm hj)]
    rfl
  cases h with
  | apart h => exact hs.same h.toSameKeys
  | create _ h => exact hs.same h.toSameKeys
  | claim hkey hk hdone hfree h => exact hs.claim hkey (hknown hk) hdone hfree hne h
  | extend _ _ hlive h =>
      subst h
      exact hs.extend hlive
  | store _ hdone hvalid h =>
      subst h
      exact hs.store hdone hvalid
  | release _ hdone _ h => exact hs.release hdone hne h

end HeldOnce

/-! ### Runs -/

/-- No call fails, and what is under the key has not expired. -/
def Timely (K : IdempotencyKey) (_ : Nat) (_ : Event) (e : Env) (s : AppState) : Prop :=
  e.fault = .none ∧ Unexpired K e s

/-- The requests of a run in which the key does not expire. -/
def timely (app : App) (K : IdempotencyKey) (name : Nat → Option CreateRequest) : Setting where
  ttl := app.config.idempotencyTtl
  key? := keyOf app name
  known := Unexpired K
  careless := False

section Run

variable {app : App} {K : IdempotencyKey} {s : AppState} {ms : List (Move Env CreateRequest)}
  {c : Config Event Env AppState AppError CreateRequest StoredResponse}
  {name : Nat → Option CreateRequest}

/-- What the requests of such a run keep. -/
structure TimelyInv (app : App) (K : IdempotencyKey) (name : Nat → Option CreateRequest)
    (s : AppState) : Prop where
  recorded : Recorded (timely app K name) s
  course : ∀ i, Course (timely app K name) i s
  heldOnce : HeldOnce (timely app K name) K s

theorem TimelyInv.step (i : Nat) (e : Env) (s s' : AppState) (hs : TimelyInv app K name s)
    (h : KeyStep (timely app K name) i e s s') : TimelyInv app K name s' :=
  ⟨h.recorded hs.recorded, fun j => h.course (hs.course j), h.heldOnce id hs.heldOnce⟩

theorem timelyInv_start (hs : KeyStart s) (hempty : ∀ key, s.cache.idempotency key = none) :
    TimelyInv app K name s := by
  refine ⟨recorded_start hs hempty, fun i => .inl (hs.begun i), ?_⟩
  have hholds : ∀ i, ¬ Holds K i s := fun i hi => by
    have hmem := hi.1
    rw [hs.begun i] at hmem
    cases hmem
  refine ⟨?_, ?_, fun i _ hi _ => (hholds i hi).elim, fun _ => hholds, ?_, ?_⟩
  · rw [hs.keyClaims]
    exact fun _ _ h => by cases h
  all_goals
    rw [hs.stored]
    intros
    rename_i h
    cases h

theorem timely_body (i : Nat) (k : CreateRequest) (hname : name i = some k) :
    (requestContract (@TimelyInv.step app K name) (Timely K)).Triple i
      (Begun i) ((createSystem app).body k)
      (RequestEnds (timely app K name) app i k False StoredUnder) := by
  refine handler_triple (fun _ _ _ h hf => absurd h.1 hf) (fun _ _ _ h hf => absurd h.1 hf)
    (fun _ _ _ h => h.2) rfl (fun key s entry r hi => hi.recorded.ready key entry r)
    (fun _ _ _ => storedUnder_lasting) (fun _ _ => storedUnder_stable) ?_
  exact fun creation key hplan => keyOf_eq hname hplan

section Facts

variable (hs : KeyStart s) (hempty : ∀ key, s.cache.idempotency key = none)
  (htimely : (createSystem app).Along (fun d m => d.Meets (Timely K) m) (.start s) ms)
  (h : (createSystem app).exec (.start s) ms = some c)
include hs hempty htimely h

theorem timely_keeps (hn : c.Named name) : KeepsFrom
    (requestContract (@TimelyInv.step app K name) (Timely K)) Begun
    (fun i k => RequestEnds (timely app K name) app i k False StoredUnder) c :=
  soundNamed (fun _ => doings_stable) timely_body (fun _ _ _ _ ha hf => ⟨ha, hf⟩)
    (timelyInv_start hs hempty) hs.begun htimely h hn

/-- Every commit is reported. -/
theorem timely_unreported : c.st.history.unreported = [] := by
  have hcareful : (createSystem app).Along (Careful app) (.start s) ms := by
    refine htimely.of_invariant (I := fun _ => True) (fun _ _ _ _ _ _ => trivial)
      (fun d m d' _ hm hstep => ?_) trivial h
    cases m with
    | call k => trivial
    | exec i e =>
        obtain ⟨l, hl, -⟩ := label_of_step hstep
        exact fun hf => absurd (hm i e rfl l hl).1 hf
  exact (careful_keeps hs hempty hcareful h).2

/-- A request that has created something under the key holds it, and has created nothing else. -/
theorem timely_creator {i : Nat} {x : ResourceKind × Uuid}
    (hkey : keyOf app c.names i = some K) (hx : x ∈ (doings i c.st).created) :
    Holds K i c.st ∧ (doings i c.st).created = [x] := by
  have hinv : TimelyInv app K c.names c.st := (timely_keeps hs hempty htimely h c.named_names).1.1
  have hu : c.st.history.unreported = [] := timely_unreported hs hempty htimely h
  have hown : ∀ key, key ∈ (doings i c.st).claimed → key = K := fun key hmem =>
    Option.some.inj ((hinv.heldOnce.keyed i key (mem_entriesOf.mp hmem)).symm.trans hkey)
  obtain hb | ⟨key, hc | ⟨y, hc⟩ | ⟨r, y, hc⟩ | ⟨xs, hc, hxs⟩⟩ := hinv.course i
  · rw [hb] at hx
    cases hx
  · rw [hc] at hx
    cases hx
  · rw [hc] at hx hown
    obtain rfl := List.mem_singleton.mp hx
    exact ⟨(holds_iff hc rfl rfl).mpr (hown key (List.mem_singleton_self _)), by rw [hc]⟩
  · rw [hc] at hx hown
    obtain rfl := List.mem_singleton.mp hx
    exact ⟨(holds_iff hc rfl rfl).mpr (hown key (List.mem_singleton_self _)), by rw [hc]⟩
  · rw [hc, hxs.nothing hu fun h => h] at hx
    cases hx

theorem timely_createdUnder : createdUnder app K c ≤ 1 := by
  have hinv : TimelyInv app K c.names c.st := (timely_keeps hs hempty htimely h c.named_names).1.1
  by_cases hany : ∃ y ∈ c.st.history.created, keyOf app c.names y.1 = some K
  · obtain ⟨⟨i, x⟩, hx, hkey⟩ := hany
    obtain ⟨hholds, hone⟩ := timely_creator hs hempty htimely h hkey (mem_entriesOf.mpr hx)
    have heq : createdUnder app K c = (doings i c.st).created.length := by
      refine createdUnder_eq fun ⟨j, y⟩ hy => ⟨fun hj => ?_, fun hj => hj ▸ hkey⟩
      have hholds' := (timely_creator hs hempty htimely h hj (mem_entriesOf.mpr hy)).1
      exact hinv.heldOnce.holder j i hholds' hholds
    rw [heq, hone]
    exact Nat.le_refl 1
  · rw [createdUnder, List.countP_eq_zero.mpr fun y hy => ?_]
    · exact Nat.zero_le 1
    · rw [decide_eq_true_iff]
      exact fun hkey => hany ⟨y, hy, hkey⟩

/-- What is stored under the key is one response. -/
theorem timely_stored {r r' : StoredResponse} (hr : StoredUnder K r c.st)
    (hr' : StoredUnder K r' c.st) : r = r' := by
  have hinv : TimelyInv app K c.names c.st := (timely_keeps hs hempty htimely h c.named_names).1.1
  obtain ⟨j, hj⟩ := hr
  obtain ⟨j', hj'⟩ := hr'
  obtain ⟨entry, hentry, hvalue⟩ := hinv.heldOnce.settled j r hj
  obtain ⟨entry', hentry', hvalue'⟩ := hinv.heldOnce.settled j' r' hj'
  obtain rfl := Option.some.inj (hentry.symm.trans hentry')
  exact IdempotencyValue.ready.inj (hvalue.symm.trans hvalue')

/-- A response to a request with the key is one that is stored under it. -/
theorem timely_response {i : Nat} {k : CreateRequest} {r : StoredResponse}
    (hk : c.calls[i]? = some (k, .done (.ok r))) (hkey : keyOf app c.names i = some K) :
    StoredUnder K r c.st := by
  have hkeeps := (timely_keeps hs hempty htimely h c.named_names).1
  have hends : RequestEnds (timely app K c.names) app i k False StoredUnder (.ok r) c.st :=
    sat_done.mp (hkeeps.2 i k _ hk) c.st .refl hkeeps.1
  obtain ⟨creation, key, hplan, hanswered⟩ := hends.of_ok
  obtain rfl := Option.some.inj ((keyOf_eq (c.named_names i k _ hk) hplan).symm.trans hkey)
  obtain ⟨hstored, -⟩ | ⟨x, hdone⟩ := hanswered
  · exact hstored
  · have hmem : (key, r) ∈ (doings i c.st).stored := by simp [hdone]
    exact ⟨i, mem_entriesOf.mp hmem⟩

end Facts

/-! ### Later requests -/

/-- The first statement of an idempotent request ends it, where it finds a response. -/
theorem idempotent_settled {A B : Type} {prepare : Except AppError B} {create : B → Service A}
    {respond : A → StoredResponse} : ∃ l ready eff next,
      Http.idempotent app K prepare create respond = .stmt l ready eff next ∧
      ∀ e s entry r, e.fault = .none → Cache.idempotencyEntry s K e.now = some entry →
        entry.value = .ready r → Http.validStatus r.status = true →
        next e s = .done (.ok r) := by
  refine ⟨_, _, _, _, rfl, fun e s entry r hf hentry hvalue hvalid => ?_⟩
  simp only [hf, hentry, Option.map_some, hvalue, Prog.done_ok_bind, hvalid, if_true]
  rfl

theorem handler_settled {k : CreateRequest} {creation : Creation}
    (hplan : k.plan app = .ok (creation, K)) : ∃ l ready eff next,
      k.handler app = .stmt l ready eff next ∧
      ∀ e s entry r, e.fault = .none → Cache.idempotencyEntry s K e.now = some entry →
        entry.value = .ready r → Http.validStatus r.status = true →
        next e s = .done (.ok r) := by
  rw [handler_eq, hplan]
  change ∃ l ready eff next, creation.run app k.user K = _ ∧ _
  cases creation <;> exact idempotent_settled

/-- The calls from number `n` on with the key have yet to begin, or have been answered with the
response. -/
def LaterAnswered (app : App) (K : IdempotencyKey) (n : Nat) (r : StoredResponse)
    (d : Config Event Env AppState AppError CreateRequest StoredResponse) : Prop :=
  ∀ j k p, n ≤ j → d.calls[j]? = some (k, p) → (∃ creation, k.plan app = .ok (creation, K)) →
    p = k.handler app ∨ p = .done (.ok r)

/-- They stay so, while the response is under the key. -/
theorem LaterAnswered.step {n : Nat} {r : StoredResponse} {m : Move Env CreateRequest}
    {d d' : Config Event Env AppState AppError CreateRequest StoredResponse}
    (hd : LaterAnswered app K n r d) (hinv : TimelyInv app K name d.st)
    (hstored : StoredUnder K r d.st) (hm : d.Meets (Timely K) m)
    (hstep : (createSystem app).step d m = some d') : LaterAnswered app K n r d' := by
  intro j k p hj hk hplan
  cases m with
  | call k' =>
      obtain rfl := System.step_call hstep
      rw [List.getElem?_append] at hk
      split at hk
      · exact hd j k p hj hk hplan
      · obtain ⟨rfl, rfl⟩ := Prod.mk.inj (List.mem_singleton.mp (List.mem_of_getElem? hk))
        exact .inl rfl
  | exec i e =>
      obtain ⟨k', l, ready, eff, next, hi, -, -, rfl⟩ := System.step_exec hstep
      have hlt : i < d.calls.length := (List.getElem?_eq_some_iff.mp hi).1
      by_cases hij : i = j
      · subst hij
        rw [List.getElem?_set_self hlt] at hk
        obtain ⟨rfl, rfl⟩ := Prod.mk.inj (Option.some.inj hk)
        -- The call has yet to begin, and its first statement finds the response.
        obtain hbody | hdone := hd i k' _ hj hi hplan
        · obtain ⟨creation, hplan⟩ := hplan
          obtain ⟨l₀, ready₀, eff₀, next₀, hhandler, hnext⟩ := handler_settled hplan
          rw [hhandler] at hbody
          cases hbody
          obtain ⟨a, ha⟩ := hstored
          obtain ⟨hf, hlive⟩ := hm i e rfl l (by simp [Config.label?, hi])
          obtain ⟨entry, hentry, hvalue⟩ := hinv.heldOnce.settled a r ha
          refine .inr (hnext e d.st entry r hf ?_ hvalue (hinv.heldOnce.valid a K r ha))
          rw [Cache.idempotencyEntry, hentry, Option.filter_some, hlive entry hentry]
          rfl
        · cases hdone
      · rw [List.getElem?_set_ne hij] at hk
        exact hd j k p hj hk hplan

section Later

variable {ms' : List (Move Env CreateRequest)}
  {d : Config Event Env AppState AppError CreateRequest StoredResponse} (hs : KeyStart s)
  (hempty : ∀ key, s.cache.idempotency key = none)
  (htimely : (createSystem app).Along (fun d m => d.Meets (Timely K) m) (.start s) (ms ++ ms'))
  (hc : (createSystem app).exec (.start s) ms = some c)
  (hd : (createSystem app).exec c ms' = some d)
include hs hempty htimely hc hd

/-- Once a response is stored, the requests that come in are answered with it. -/
theorem later_answered {a : Nat} {r : StoredResponse} (ha : (a, K, r) ∈ c.st.history.stored) :
    LaterAnswered app K c.calls.length r d ∧ (a, K, r) ∈ d.st.history.stored := by
  have hrun : (createSystem app).exec (.start s) (ms ++ ms') = some d := by
    rw [System.exec_append, hc]
    exact hd
  obtain ⟨hfirst, hrest⟩ := htimely.append hc
  have hguar := (alongNamed (fun _ => doings_stable)
    (@timely_body app K d.names) (fun _ _ _ _ ha hf => ⟨ha, hf⟩)
    (timelyInv_start hs hempty) hs.begun htimely hrun d.named_names).append hc
  have hkeeps := timely_keeps hs hempty hfirst hc (System.named_of_exec hd d.named_names)
  have hlater : LaterAnswered app K c.calls.length r c := by
    intro j k p hj hk
    rw [List.getElem?_eq_none hj] at hk
    cases hk
  refine System.exec_invariant (I := fun x => TimelyInv app K d.names x.st ∧
    LaterAnswered app K c.calls.length r x ∧ (a, K, r) ∈ x.st.history.stored) ?_
    ⟨hkeeps.1.1, hlater, ha⟩ (hrest.and hguar.2) hd |>.2
  rintro x m x' ⟨hinv, hans, hstored⟩ ⟨hm, hg⟩ hstep
  have hans' := hans.step hinv ⟨a, hstored⟩ hm hstep
  cases m with
  | call k =>
      obtain rfl := System.step_call hstep
      exact ⟨hinv, hans', hstored⟩
  | exec i e =>
      obtain ⟨l, hl, -⟩ := label_of_step hstep
      have hkey : KeyStep (timely app K d.names) i e x.st x'.st :=
        (hg x' hstep i e rfl l hl).2.1
      exact ⟨hinv.step i e _ _ hkey, hans', hkey.stored_mono hstored⟩

/-- They create nothing. -/
theorem later_created {a : Nat} {r : StoredResponse} (ha : (a, K, r) ∈ c.st.history.stored)
    {j : Nat} (hj : c.calls.length ≤ j) (hkey : keyOf app d.names j = some K) :
    (doings j d.st).created = [] := by
  have hrun : (createSystem app).exec (.start s) (ms ++ ms') = some d := by
    rw [System.exec_append, hc]
    exact hd
  have hinv : TimelyInv app K c.names c.st :=
    (timely_keeps hs hempty (htimely.append hc).1 hc c.named_names).1.1
  have hinv' : TimelyInv app K d.names d.st :=
    (timely_keeps hs hempty htimely hrun d.named_names).1.1
  by_contra hne
  obtain ⟨x, hx⟩ := List.exists_mem_of_ne_nil _ hne
  -- The holder is the request that has stored the response, which came in before.
  have hstored := (later_answered hs hempty htimely hc hd ha).2
  obtain rfl := hinv'.heldOnce.holder j a (timely_creator hs hempty htimely hrun hkey hx).1
    (hinv'.heldOnce.storer a r hstored)
  obtain ⟨k, p, creation, hcall, -⟩ := call_of_keyOf (hinv.recorded.keyed j K r ha)
  exact absurd (List.getElem?_eq_some_iff.mp hcall).1 (Nat.not_lt.mpr hj)

end Later

end Run

end Fluxa.Idempotency

namespace Fluxa
open Interleave Relational Contract Idempotency

/-- In a run without failures, as long as what is under the key does not expire: at most one resource
is created under it, all responses are the same, and once there is one, a later request that passes
its checks is answered with it by its first statement, and creates nothing. -/
theorem create_once {app : App} {K : IdempotencyKey} {s : AppState}
    {ms ms' : List (Move Env CreateRequest)}
    {c d : Config Event Env AppState AppError CreateRequest StoredResponse} (hs : KeyStart s)
    (hempty : ∀ key, s.cache.idempotency key = none)
    (htimely : (createSystem app).Along (fun d m => d.Meets (Timely K) m) (.start s) (ms ++ ms'))
    (hc : (createSystem app).exec (.start s) ms = some c)
    (hd : (createSystem app).exec c ms' = some d) :
    createdUnder app K d ≤ 1 ∧
    (∀ i j k k' r r', d.calls[i]? = some (k, .done (.ok r)) → keyOf app d.names i = some K →
      d.calls[j]? = some (k', .done (.ok r')) → keyOf app d.names j = some K → r = r') ∧
    ∀ i k r, c.calls[i]? = some (k, .done (.ok r)) → keyOf app c.names i = some K →
      ∀ j k' p, c.calls.length ≤ j → d.calls[j]? = some (k', p) → keyOf app d.names j = some K →
        (p = k'.handler app ∨ p = .done (.ok r)) ∧ (doings j d.st).created = [] := by
  have hrun : (createSystem app).exec (.start s) (ms ++ ms') = some d := by
    rw [System.exec_append, hc]
    exact hd
  refine ⟨timely_createdUnder hs hempty htimely hrun, ?_, ?_⟩
  · intro i j k k' r r' hk hkey hk' hkey'
    exact timely_stored hs hempty htimely hrun (timely_response hs hempty htimely hrun hk hkey)
      (timely_response hs hempty htimely hrun hk' hkey')
  · intro i k r hk hkey j k' p hj hk' hkey'
    obtain ⟨a, ha⟩ := timely_response hs hempty (htimely.append hc).1 hc hk hkey
    refine ⟨(later_answered hs hempty htimely hc hd ha).1 j k' p hj hk' ?_,
      later_created hs hempty htimely hc hd ha hj hkey'⟩
    obtain ⟨k₀, p₀, creation, hcall, hplan⟩ := call_of_keyOf hkey'
    obtain ⟨rfl, -⟩ := Prod.mk.inj (Option.some.inj (hcall.symm.trans hk'))
    exact ⟨creation, hplan⟩

instance Idempotency.Timely.decidable {K : IdempotencyKey} :
    ∀ i l e s, Decidable (Timely K i l e s) := fun _ _ e s =>
  have : Decidable (Unexpired K e s) :=
    decidable_of_iff ((s.cache.idempotency K).all (·.live e.now) = true)
      ⟨fun h entry hentry => by simpa [hentry] using h, fun h => by
        cases hentry : s.cache.idempotency K with
        | none => rfl
        | some entry => exact h entry hentry⟩
  inferInstanceAs (Decidable (_ ∧ _))

/-- The key of the projects of the owner. -/
def projectKey : IdempotencyKey := ⟨1, "projects:create", "k"⟩

/-- A project is created. -/
def projectRun : List (Move Env CreateRequest) :=
  .call projectUnderKey :: (List.range 10).map fun n => keyMove 0 (n + 1)

/-- The response to its creation. -/
def createdResponse : StoredResponse :=
  Http.createdResponse (Http.projectResponseValue default ⟨5, 1, "P", none, 10, 10, 0, 0, none⟩)

theorem projectRun_ends : ∃ c, (createSystem default).exec (.start default) projectRun = some c ∧
    c.calls = [(projectUnderKey, .done (.ok createdResponse))] := by
  have hrun : ((createSystem default).exec (.start default) projectRun).map (·.calls) =
      some [(projectUnderKey, .done (.ok createdResponse))] := rfl
  exact Option.map_eq_some_iff.mp hrun

/-- The theorem at that run, with the same request once more. -/
theorem create_once_replay : ∃ c d,
    (createSystem default).exec (.start default) projectRun = some c ∧
    (createSystem default).exec c [.call projectUnderKey, keyMove 1 20] = some d ∧
    createdUnder default projectKey d ≤ 1 := by
  have hrun : ((createSystem default).exec (.start default)
      (projectRun ++ [.call projectUnderKey, keyMove 1 20])).isSome = true := by decide +kernel
  have htimely : (createSystem default).Along (fun d m => d.Meets (Timely projectKey) m)
      (.start default) (projectRun ++ [.call projectUnderKey, keyMove 1 20]) := by decide +kernel
  obtain ⟨d, hd⟩ := Option.isSome_iff_exists.mp hrun
  rw [System.exec_append] at hd
  obtain ⟨c, hc, hd⟩ := Option.bind_eq_some_iff.mp hd
  exact ⟨c, d, hc, hd, (create_once default_keyStart (fun _ => rfl) htimely hc hd).1⟩

/-- The same request, but with a blank name. -/
def blankUnderKey : CreateRequest := ⟨⟨10, 1, .owner, 0⟩, some "k", .createProject ⟨" ", none⟩⟩

/-- It is refused by the checks that come before the one of the key. -/
theorem later_request_refused : ∃ c d,
    (createSystem default).exec (.start default) projectRun = some c ∧
    c.calls[0]? = some (projectUnderKey, .done (.ok createdResponse)) ∧
    (createSystem default).exec c [.call blankUnderKey] = some d ∧
    (createSystem default).Along (fun d m => d.Meets (Timely projectKey) m) (.start default)
      (projectRun ++ [.call blankUnderKey]) ∧
    blankUnderKey.user.tenantId = projectUnderKey.user.tenantId ∧
    blankUnderKey.route.keyRoute = projectUnderKey.route.keyRoute ∧
    blankUnderKey.idempotencyKey = projectUnderKey.idempotencyKey ∧
    ∃ x, d.calls[1]? = some (blankUnderKey, .done (.error x)) := by
  have htimely : (createSystem default).Along (fun d m => d.Meets (Timely projectKey) m)
      (.start default) (projectRun ++ [.call blankUnderKey]) := by decide +kernel
  obtain ⟨c, hc, hcalls⟩ := projectRun_ends
  refine ⟨c, _, hc, by rw [hcalls]; rfl, rfl, htimely, rfl, rfl, rfl, ?_⟩
  rw [hcalls]
  exact ⟨_, rfl⟩

end Fluxa
