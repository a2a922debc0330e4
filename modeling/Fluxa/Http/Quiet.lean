import Fluxa.Http.Idempotency
import Fluxa.State.Quiet

/-!
# Http — idempotent requests that are quiet but for the creation

Where a contract allows any change of the idempotency keys, an idempotent request keeps to it as soon as the creation does.
-/

namespace Fluxa
open Interleave Contract

/-- The two states differ only in the idempotency keys and the record of what was done with
them. -/
structure KeyChange (s s' : AppState) : Prop where
  db : s'.db = s.db
  storage : s'.storage = s.storage
  cache : s'.cache = { s.cache with idempotency := s'.cache.idempotency }
  history : s'.history = { s.history with
    released := s'.history.released
    keyClaims := s'.history.keyClaims
    stored := s'.history.stored }

theorem KeyChange.refl (s : AppState) : KeyChange s s := ⟨rfl, rfl, rfl, rfl⟩

theorem KeyChange.setIdempotency (s : AppState) (key : IdempotencyKey)
    (entry : Option (Entry IdempotencyValue)) : KeyChange s (Cache.setIdempotency s key entry) :=
  ⟨rfl, rfl, rfl, rfl⟩

/-- Where a request is refused with another error than an internal one, `N` holds. -/
def Refused {A : Type} (N : AppState → Prop) : Except AppError A → AppState → Prop
  | .ok _, _ | .error (.internal _), _ => True
  | .error _, s => N s

theorem refused_of {A : Type} {N : AppState → Prop} {r : Except AppError A} {s : AppState}
    (h : N s) : Refused N r s := by
  unfold Refused
  split
  · trivial
  · trivial
  · exact h

theorem Refused.mono {A : Type} {N : AppState → Prop} {r : Except AppError A} {s s' : AppState}
    (h : Refused N r s) (hN : N s → N s') : Refused N r s' := by
  cases r with
  | ok a => trivial
  | error x => cases x <;> first | trivial | exact hN h

/-- What is asked where an error is returned does not depend on what is returned otherwise. -/
theorem Refused.error {A B : Type} {N : AppState → Prop} {x : AppError} {s : AppState}
    (h : Refused N (.error x : Except AppError A) s) : Refused N (.error x : Except AppError B) s := by
  cases x <;> exact h

theorem stable_refused {A : Type} {K : Contract Event Env AppState} {i : Nat}
    {N : AppState → Prop} (hN : K.Stable i N) (r : Except AppError A) :
    K.Stable i (Refused N r) :=
  fun s s' j l e hi hs hj hg => hs.mono fun hn => hN s s' j l e hi hn hj hg

/-- The contract allows changes of the idempotency keys besides. -/
structure PatientOfKeys (K : Contract Event Env AppState) : Prop extends Patient K where
  keys : ∀ i e s s', K.inv s → KeyChange s s' → K.guar i .quiet e s s'

/-- The contract allows changes of the idempotency keys besides. -/
structure TolerantOfKeys (K : Contract Event Env AppState) : Prop extends Tolerant K where
  keys : ∀ i e s s', K.inv s → KeyChange s s' → K.guar i .quiet e s s'

/-- Holding one call to changes that include the quiet ones leaves the contract tolerant. -/
theorem TolerantOfKeys.within {K : Contract Event Env AppState} (hK : TolerantOfKeys K) {j : Nat}
    {W : Event → Env → AppState → AppState → Prop} (hs : ∀ l e s, W l e s s)
    (hb : ∀ e s s', Bystander s s' → W .quiet e s s') (hk : ∀ e s s', KeyChange s s' → W .quiet e s s')
    (hn : ∀ e s, W .quiet e s { s with history.issued := (e.uuid, e.pid) :: s.history.issued }) :
    TolerantOfKeys (K.within j W) :=
  { hK.toTolerant.within hs hb hn with
    keys := fun i e s s' hi h => ⟨hK.keys i e s s' hi h, fun _ => hk e s s' h⟩ }

theorem TolerantOfKeys.of_within {K : Contract Event Env AppState} {j : Nat}
    {W : Event → Env → AppState → AppState → Prop} (hK : TolerantOfKeys (K.within j W)) :
    TolerantOfKeys K where
  stay i l e s hi hf := (hK.stay i l e s hi hf).1
  bystander i e s s' hi h := (hK.bystander i e s s' hi h).1
  issue i e s hi ha := (hK.issue i e s hi ha).1
  keys i e s s' hi h := (hK.keys i e s s' hi h).1

theorem TolerantOfKeys.patient {K : Contract Event Env AppState} (hK : TolerantOfKeys K) :
    PatientOfKeys K :=
  { hK.toPatient with keys := hK.keys }

instance {K : Contract Event Env AppState} : Coe (TolerantOfKeys K) (PatientOfKeys K) :=
  ⟨TolerantOfKeys.patient⟩

section Requests

variable {K : Contract Event Env AppState} {i : Nat} (hK : PatientOfKeys K)
  {key : IdempotencyKey} {ttl : Nat} {app : App}
include hK

theorem redis_key {A : Type} {run : Env → AppState → A × AppState}
    (h : ∀ e s, KeyChange s (run e s).2) : K.Safe i (redis run) :=
  redis_safe hK.toPatient fun s e hi _ => hK.keys i e s _ hi (h e s)

theorem idempotencyState_safe : K.Safe i (Cache.idempotencyState key) :=
  redis_key hK fun _ s => .refl s

theorem claimIdempotencyKey_safe : K.Safe i (Cache.claimIdempotencyKey key ttl) := by
  refine .bind (redis_key hK fun e s => ?_) fun claimed => .ite (fun _ => ?_) fun _ => .done
  · split
    · exact .refl s
    · exact ⟨rfl, rfl, rfl, rfl⟩
  · refine .bind (redis_key hK fun e s => ?_) fun _ => .done
    split
    · exact .setIdempotency s key _
    · exact .refl s

theorem replayIdempotent_safe : K.Safe i (Http.replayIdempotent key) := by
  refine .bind (idempotencyState_safe hK) fun found => ?_
  split
  · exact .done
  · exact .done
  · exact .ite (fun _ => .done) fun _ => .fail

theorem replayOrClaim_safe : K.Safe i (Http.replayOrClaim app key) := by
  refine .bind (replayIdempotent_safe hK) fun response => ?_
  split
  · exact .done
  · refine .bind (claimIdempotencyKey_safe hK) fun claimed => .ite (fun _ => .done) fun _ => ?_
    refine .bind (replayIdempotent_safe hK) fun response => ?_
    split
    · exact .done
    · exact .fail

theorem storeOrRelease_safe {r : Except AppError StoredResponse} :
    K.Safe i (Http.storeOrRelease app key r) := by
  cases r with
  | ok response => exact .bind (redis_key hK fun _ _ => ⟨rfl, rfl, rfl, rfl⟩) fun _ => .done
  | error error => exact .bind (redis_key hK fun _ _ => ⟨rfl, rfl, rfl, rfl⟩) fun _ => .fail

/-- An idempotent request whose creation keeps to the contract where a lasting fact holds. -/
theorem idempotent_prepared {A B : Type} {prepare : Except AppError B} {create : B → Service A}
    {respond : A → StoredResponse} {F : AppState → Prop} (hF : K.Lasting F)
    (h : ∀ input, prepare = .ok input → K.Triple i F (create input) fun _ _ => True) :
    K.Triple i F (Http.idempotent app key prepare create respond) fun _ _ => True := by
  refine (replayOrClaim_safe hK).carry_bind hF fun response => ?_
  split
  · exact Triple.any (Triple.done (Q := fun _ _ => True) (hF.stable i) fun _ _ _ => trivial)
  · refine .lift_bind fun input hin => ?_
    refine Triple.bind (Triple.attempt (h input hin).onOk_any) (fun _ => ?_) fun _ _ _ _ => trivial
    exact (storeOrRelease_safe hK).pre fun _ _ _ => trivial

theorem idempotent_from {A B : Type} {prepare : Except AppError B} {create : B → Service A}
    {respond : A → StoredResponse} {F : AppState → Prop} (hF : K.Lasting F)
    (h : ∀ input, K.Triple i F (create input) fun _ _ => True) :
    K.Triple i F (Http.idempotent app key prepare create respond) fun _ _ => True :=
  idempotent_prepared hK hF fun input _ => h input

/-- A Redis command on the keys fails with an internal error only. -/
theorem redis_refused {A B : Type} {run : Env → AppState → A × AppState} {f : A → Service B}
    {P N : AppState → Prop} (hP : K.Stable i P)
    (hkeep : ∀ s s', P s → KeyChange s s' → P s') (h : ∀ e s, KeyChange s (run e s).2)
    (hf : ∀ a, K.Triple i P (f a) (Refused N)) :
    K.Triple i P ((redis run).bind f) (Refused N) := by
  refine Triple.bind (Q := orFail (fun x _ => ∃ text, x = .internal text) fun _ => P) ?_ hf ?_
  · refine Triple.atomic hP (stable_orFail (fun _ => stable_const) fun _ => hP)
      fun s e hi hs _ _ => ?_
    have hkey := hK.keys i e s _ hi (h e s)
    cases hfault : e.fault with
    | none => exact ⟨hkey, hkeep s _ hs (h e s)⟩
    | failed => exact ⟨hK.stay i _ e s hi hfault, _, rfl⟩
    | lost => exact ⟨hkey, _, rfl⟩
  · rintro x s - ⟨text, rfl⟩
    trivial

omit hK in
/-- A request is refused where its creation is, or its key is taken; either way `N` holds, which
only the creation may end. -/
theorem idempotent_refused {A B : Type} {prepare : Except AppError B} {create : B → Service A}
    {respond : A → StoredResponse} {W : Event → Env → AppState → AppState → Prop}
    {N : AppState → Prop} (hK : TolerantOfKeys (K.within i W)) (hN : (K.within i W).Lasting N)
    (hkeep : ∀ s s', N s → KeyChange s s' → N s')
    (h : ∀ input, K.Triple i N (create input) (Refused N)) :
    K.Triple i N (Http.idempotent app key prepare create respond) (Refused N) := by
  have hstable : K.Stable i N := (hN.stable i).of_within
  have hkeys : TolerantOfKeys K := hK.of_within
  have hclaim : K.Triple i N (Http.replayOrClaim app key) fun _ => N :=
    ((Triple.keep hN (replayOrClaim_safe hK)).of_within.pre fun _ _ hs => ⟨trivial, hs⟩).post
      fun _ _ _ h => h.2
  refine Triple.bind hclaim (fun response => ?_) fun _ _ _ hs => refused_of hs
  split
  · exact Triple.done hstable fun _ _ _ => trivial
  · cases prepare with
    | error error => exact Triple.done hstable fun _ _ hs => refused_of hs
    | ok input =>
        change K.Triple i N ((create input).attempt.bind _) _
        refine Triple.bind (h input).attempt_or (fun r => ?_) fun _ _ _ hx => hx
        cases r with
        | ok a =>
            have hstore : K.Triple i (fun _ => True)
                (Http.storeOrRelease app key (.ok (respond a))) (Refused N) := by
              refine redis_refused hkeys stable_const (fun _ _ _ _ => trivial) ?_ fun _ => ?_
              · exact fun _ _ => ⟨rfl, rfl, rfl, rfl⟩
              · exact Triple.done stable_const fun _ _ _ => trivial
            exact hstore.pre fun _ _ _ => trivial
        | error error =>
            refine redis_refused hkeys (stable_refused hstable (.error error : Except AppError A)) (fun s s' hs hkey => ?_) ?_ fun _ => ?_
            · exact hs.mono fun hn => hkeep s s' hn hkey
            · exact fun _ _ => ⟨rfl, rfl, rfl, rfl⟩
            · exact Triple.done (stable_refused hstable (.error error : Except AppError A)) fun _ _ hs => hs.error

end Requests

end Fluxa
