import Fluxa.Http.Idempotency
import Fluxa.Interleave.Named
import Fluxa.State.Quiet

/-!
# Idempotency — the steps of an idempotent request

What an idempotent request has done so far is in the history under its number: `doings`.  A request begins with nothing done, claims its key, creates its resource, and then stores the response or releases the key.  **`KeyStep`** is what one statement of it may do, and in which of these phases; **`keyContract`** is the contract that asks it of every statement.  The invariant of the shared state and the condition on the runs are parameters.
-/

namespace Fluxa.Idempotency
open Interleave Relational Contract

/-! ### What a request has done -/

/-- The entries of call `i`. -/
def entriesOf {α : Type} (i : Nat) (entries : List (Nat × α)) : List α :=
  (entries.filter fun x => x.1 = i).map (·.2)

@[simp] theorem entriesOf_nil {α : Type} {i : Nat} : entriesOf i ([] : List (Nat × α)) = [] := rfl

@[simp] theorem entriesOf_cons_self {α : Type} {i : Nat} {a : α} {entries : List (Nat × α)} :
    entriesOf i ((i, a) :: entries) = a :: entriesOf i entries := by
  simp [entriesOf]

theorem entriesOf_cons_ne {α : Type} {i j : Nat} (h : j ≠ i) {a : α}
    {entries : List (Nat × α)} : entriesOf i ((j, a) :: entries) = entriesOf i entries := by
  simp [entriesOf, h]

@[simp] theorem mem_entriesOf {α : Type} {i : Nat} {a : α} {entries : List (Nat × α)} :
    a ∈ entriesOf i entries ↔ (i, a) ∈ entries := by
  simp [entriesOf]

/-- What a request has done: the keys that it has claimed, the resources that it has created, the
responses that it has stored, and how often it has released a key. -/
structure Doings where
  claimed : List IdempotencyKey
  created : List (ResourceKind × Uuid)
  stored : List (IdempotencyKey × StoredResponse)
  released : Nat

/-- What call `i` has done. -/
def doings (i : Nat) (s : AppState) : Doings where
  claimed := entriesOf i s.history.keyClaims
  created := entriesOf i s.history.created
  stored := entriesOf i s.history.stored
  released := s.history.released.count i

/-- Nothing. -/
def Doings.none : Doings := ⟨[], [], [], 0⟩

/-! ### Steps -/

/-- The two states agree on the idempotency keys and on the record of what was done with them. -/
structure SameKeys (s s' : AppState) : Prop where
  idempotency : s'.cache.idempotency = s.cache.idempotency
  keyClaims : s'.history.keyClaims = s.history.keyClaims
  stored : s'.history.stored = s.history.stored
  released : s'.history.released = s.history.released

/-- The two states agree on the created resources besides. -/
structure Apart (s s' : AppState) : Prop extends SameKeys s s' where
  created : s'.history.created = s.history.created
  unreported : s'.history.unreported = s.history.unreported

theorem Apart.refl (s : AppState) : Apart s s := ⟨⟨rfl, rfl, rfl, rfl⟩, rfl, rfl⟩

/-- By call `i` a resource is committed, and the commit is reported unless there is a fault. -/
structure Creates (i : Nat) (e : Env) (s s' : AppState) : Prop extends SameKeys s s' where
  created : ∃ kind id, s'.history.created = (i, kind, id) :: s.history.created
  unreported : s'.history.unreported =
    if e.fault = .none then s.history.unreported else i :: s.history.unreported

theorem Apart.of_bystander {s s' : AppState} (h : Bystander s s') : Apart s s' := by
  constructor
  · constructor
    · exact h.idempotency
    all_goals rw [h.history]
  · rw [h.history]
  · rw [h.history]

theorem Apart.doings {s s' : AppState} (h : Apart s s') (i : Nat) :
    Idempotency.doings i s' = Idempotency.doings i s := by
  simp only [Idempotency.doings, h.keyClaims, h.created, h.stored, h.released]

/-- What the steps depend on: the lifetime of a key, the keys of the requests, and what is known
when a key is claimed. -/
structure Setting where
  ttl : Nat
  key? : Nat → Option IdempotencyKey
  known : Env → AppState → Prop
  /-- A call may fail after the resource of its request has been committed. -/
  careless : Prop

variable {σ : Setting}

/-- What a statement of call `i` may do, where it has done what it has done so far. -/
inductive KeyStep (σ : Setting) (i : Nat) (e : Env) (s s' : AppState) : Prop where
  | apart (h : Apart s s')
  | create {key : IdempotencyKey} (hdone : doings i s = ⟨[key], [], [], 0⟩)
      (h : Creates i e s s')
  | claim {key : IdempotencyKey} (hkey : σ.key? i = some key) (hknown : σ.known e s)
      (hdone : doings i s = .none) (hfree : Cache.idempotencyEntry s key e.now = none)
      (h : s' = { Cache.setIdempotency s key (some ⟨.pending, none⟩) with
        history.keyClaims := (i, key) :: s.history.keyClaims })
  | extend {key : IdempotencyKey} {entry : Entry IdempotencyValue}
      (hkey : σ.key? i = some key) (hdone : doings i s = ⟨[key], [], [], 0⟩)
      (hlive : Cache.idempotencyEntry s key e.now = some entry)
      (h : s' = Cache.setIdempotency s key (some ⟨entry.value, some (e.now + σ.ttl)⟩))
  | store {key : IdempotencyKey} {x : ResourceKind × Uuid} {response : StoredResponse}
      (hkey : σ.key? i = some key) (hdone : doings i s = ⟨[key], [x], [], 0⟩)
      (hvalid : Http.validStatus response.status = true)
      (h : s' = { Cache.setIdempotency s key (some ⟨.ready response, some (e.now + σ.ttl)⟩) with
        history.stored := (i, key, response) :: s.history.stored })
  | release {key : IdempotencyKey} {xs : List (ResourceKind × Uuid)}
      (hkey : σ.key? i = some key) (hdone : doings i s = ⟨[key], xs, [], 0⟩)
      (hxs : xs = [] ∨ i ∈ s.history.unreported ∨ σ.careless)
      (h : s' = { Cache.setIdempotency s key none with
        history.released := i :: s.history.released })

/-- What a call has done is not for others to change. -/
theorem KeyStep.doings_of_ne {i j : Nat} {e : Env} {s s' : AppState} (h : KeyStep σ j e s s')
    (hj : j ≠ i) : doings i s' = doings i s := by
  cases h with
  | apart h => exact h.doings i
  | create _ h =>
      obtain ⟨kind, id, hcreated⟩ := h.created
      simp only [doings, h.keyClaims, h.stored, h.released, hcreated, entriesOf_cons_ne hj]
  | claim _ _ _ _ h => simp [h, doings, Cache.setIdempotency, entriesOf_cons_ne hj]
  | extend _ _ _ h => simp [h, doings, Cache.setIdempotency]
  | store _ _ _ h => simp [h, doings, Cache.setIdempotency, entriesOf_cons_ne hj]
  | release _ _ _ h => simp [h, doings, Cache.setIdempotency, List.count_cons_of_ne hj]

/-- A commit that was not reported stays one. -/
theorem KeyStep.unreported_mono {i j : Nat} {e : Env} {s s' : AppState} (h : KeyStep σ j e s s')
    (hi : i ∈ s.history.unreported) : i ∈ s'.history.unreported := by
  cases h with
  | apart h => exact h.unreported ▸ hi
  | create _ h =>
      rw [h.unreported]
      split
      · exact hi
      · exact List.mem_cons_of_mem _ hi
  | claim _ _ _ _ h => exact h ▸ hi
  | extend _ _ _ h => exact h ▸ hi
  | store _ _ _ h => exact h ▸ hi
  | release _ _ _ h => exact h ▸ hi

/-- The statement with which a request releases a key takes away what is under its key. -/
theorem KeyStep.released {i : Nat} {e : Env} {s s' : AppState} (h : KeyStep σ i e s s')
    (hs : (doings i s).released = 0) (hs' : (doings i s').released ≠ 0) :
    ∃ key, σ.key? i = some key ∧ s'.cache.idempotency key = none := by
  have hsame (heq : s'.history.released = s.history.released) : False := by
    simp only [doings] at hs hs'
    rw [heq] at hs'
    exact hs' hs
  cases h with
  | apart h => exact (hsame h.released).elim
  | create _ h => exact (hsame h.released).elim
  | claim _ _ _ _ h => exact (hsame (h ▸ rfl)).elim
  | extend _ _ _ h => exact (hsame (h ▸ rfl)).elim
  | store _ _ _ h => exact (hsame (h ▸ rfl)).elim
  | release hkey _ _ h => exact ⟨_, hkey, by simp [h, Cache.setIdempotency]⟩

/-! ### The contract -/

/-- Every statement is a `KeyStep`, and keeps the invariant. -/
def keyContract (σ : Setting) (I : AppState → Prop) (cond : Nat → Event → Env → AppState → Prop)
    (hI : ∀ i e s s', I s → KeyStep σ i e s s' → I s') : Contract Event Env AppState where
  inv := I
  guar i _ e s s' := KeyStep σ i e s s'
  adm i l e s := admissible i l e s = true ∧ cond i l e s
  guar_inv hi hg := hI _ _ _ _ hi hg

/-- Call `i` has not released its key. -/
def Unreleased (i : Nat) (s : AppState) : Prop := (doings i s).released = 0

section Rules

variable {I : AppState → Prop} {cond : Nat → Event → Env → AppState → Prop}
  {hI : ∀ i e s s', I s → KeyStep σ i e s s' → I s'} {i : Nat} {D : Doings} {A B : Type}

/-- The contract under which call `i` leaves the keys and the created resources alone. -/
abbrev apartContract (hI : ∀ i e s s', I s → KeyStep σ i e s s' → I s')
    (cond : Nat → Event → Env → AppState → Prop) (i : Nat) : Contract Event Env AppState :=
  (keyContract σ I cond hI).within i fun _ _ s s' => Apart s s'

/-- The contract under which no call does anything once it has released its key. -/
abbrev requestContract (hI : ∀ i e s s', I s → KeyStep σ i e s s' → I s')
    (cond : Nat → Event → Env → AppState → Prop) : Contract Event Env AppState :=
  (keyContract σ I cond hI).holding Unreleased

theorem keyContract_tolerant : Tolerant (keyContract σ I cond hI) where
  stay _ _ _ s _ _ := .apart (.refl s)
  bystander _ _ _ _ _ h := .apart (.of_bystander h)
  issue _ _ _ _ _ := .apart ⟨⟨rfl, rfl, rfl, rfl⟩, rfl, rfl⟩

theorem apartContract_tolerant : Tolerant (apartContract hI cond i) :=
  keyContract_tolerant.within (fun _ _ s => .refl s) (fun _ _ _ h => .of_bystander h)
    fun _ _ => ⟨⟨rfl, rfl, rfl, rfl⟩, rfl, rfl⟩

theorem doings_lasting : (apartContract hI cond i).Lasting fun s => doings i s = D :=
  lasting_within (fun _ _ _ _ _ _ hs hj hg => (hg.doings_of_ne hj).trans hs)
    fun _ _ _ _ _ hs _ hW => (hW.doings i).trans hs

theorem unreleased_lasting : (apartContract hI cond i).Lasting (Unreleased i) := by
  refine lasting_within (fun s s' _ _ _ _ hs hj hg => ?_) fun _ _ s s' _ hs _ hW => ?_
  · rw [Unreleased, hg.doings_of_ne hj]
    exact hs
  · rw [Unreleased, hW.doings i]
    exact hs

/-- That a commit was not reported is not for others to change. -/
theorem unreported_lasting :
    (apartContract hI cond i).Lasting fun s => i ∈ s.history.unreported :=
  lasting_within (fun _ _ _ _ _ _ hs _ hg => hg.unreported_mono hs)
    fun _ _ _ _ _ hs _ hW => hW.unreported ▸ hs

theorem doings_stable : (requestContract hI cond).Stable i fun s => doings i s = D :=
  fun _ _ _ _ _ _ hs hj hg => (hg.1.doings_of_ne hj).trans hs

/-- A program that leaves the keys alone, in a request that has not released its key. -/
theorem apart_triple {P : AppState → Prop} {p : Service A} {Q : Except AppError A → AppState → Prop}
    (hD : D.released = 0) (h : (apartContract hI cond i).Triple i P p Q) :
    (requestContract hI cond).Triple i (fun s => P s ∧ doings i s = D) p
      fun r s => Q r s ∧ doings i s = D := by
  refine (Triple.holding unreleased_lasting (h.keep doings_lasting)).conseq (fun s _ hs => ?_)
    fun r s _ hq => hq.1
  exact ⟨hs, by rw [Unreleased, hs.2, hD]⟩

theorem apart_safe {p : Service A} (hD : D.released = 0) (h : (apartContract hI cond i).Safe i p) :
    (requestContract hI cond).Triple i (fun s => doings i s = D) p fun _ s => doings i s = D :=
  (apart_triple hD h).conseq (fun _ _ hs => ⟨trivial, hs⟩) fun _ _ _ hq => hq.2

/-- Such a program, before one that goes on with its value; its error ends the whole. -/
theorem apart_bind {p : Service A} {f : A → Service B} {R : Except AppError B → AppState → Prop}
    (hD : D.released = 0) (h : (apartContract hI cond i).Safe i p)
    (hf : ∀ a, (requestContract hI cond).Triple i (fun s => doings i s = D) (f a) R)
    (he : ∀ x s, doings i s = D → R (.error x) s) :
    (requestContract hI cond).Triple i (fun s => doings i s = D) (p.bind f) R :=
  Triple.bind (apart_safe hD h) hf fun x s _ hs => he x s hs

/-- A statement in a request that has not released its key. -/
theorem step_triple {event : Event} {ready : AppState → Bool}
    {run : Env → AppState → Except AppError A × AppState} {P : AppState → Prop}
    {Q : Except AppError A → AppState → Prop} (hP : (requestContract hI cond).Stable i P)
    (hrel : ∀ s, P s → Unreleased i s) (hQ : ∀ r, (requestContract hI cond).Stable i (Q r))
    (h : ∀ s e, I s → P s → e.pid = i → cond i event e s →
      KeyStep σ i e s (run e s).2 ∧ Q (run e s).1 (run e s).2) :
    (requestContract hI cond).Triple i P (.atomic event ready run) Q := by
  refine Triple.atomic hP hQ fun s e hi hs _ ha => ?_
  obtain ⟨hstep, hq⟩ := h s e hi hs (not_issued_of_admissible ha.1).1 ha.2
  exact ⟨⟨hstep, hrel s hs⟩, hq⟩

/-- A Redis command in a request that has not released its key. -/
theorem redis_triple {run : Env → AppState → A × AppState} {P : AppState → Prop}
    {Q : A → AppState → Prop} {E : AppError → AppState → Prop}
    (hP : (requestContract hI cond).Stable i P) (hrel : ∀ s, P s → Unreleased i s)
    (hQ : ∀ a, (requestContract hI cond).Stable i (Q a))
    (hE : ∀ x, (requestContract hI cond).Stable i (E x))
    (hfail : ∀ s e, P s → cond i .quiet e s → e.fault ≠ .none → E (redisError e.detail) s)
    (h : ∀ s e, I s → P s → e.pid = i → cond i .quiet e s →
      KeyStep σ i e s (run e s).2 ∧ Q (run e s).1 (run e s).2 ∧
        (e.fault ≠ .none → E (redisError e.detail) (run e s).2)) :
    (requestContract hI cond).Triple i P (redis run) (orFail E Q) := by
  refine step_triple hP hrel (stable_orFail hE hQ) fun s e hi hs hpid hc => ?_
  cases hf : e.fault with
  | none =>
      obtain ⟨hstep, hq, -⟩ := h s e hi hs hpid hc
      exact ⟨hstep, hq⟩
  | failed => exact ⟨.apart (.refl s), hfail s e hs hc (by simp [hf])⟩
  | lost =>
      obtain ⟨hstep, -, hx⟩ := h s e hi hs hpid hc
      exact ⟨hstep, hx (by simp [hf])⟩

theorem unreported_stable :
    (requestContract hI cond).Stable i fun s => i ∈ s.history.unreported :=
  fun _ _ _ _ _ _ hs _ hg => hg.1.unreported_mono hs

end Rules

end Fluxa.Idempotency
