import Fluxa.Interleave.Prog

/-!
# Interleave — couplings

Two programs, each alone, from two states and with the same inputs.  **`alone`** computes what a program does when nobody interferes; its inputs are a sequence without end, of which it takes as many as it needs.  **`Couples`** relates the two ends: where the first program ends, so does the second, with a related result in a related state; and where both end with a value they have taken equally many inputs, so that what comes next may be coupled again.

A program **`Ignores`** a change of the state when it does the same with and without it.
-/

namespace Interleave

variable {L E S X A B C D : Type}

/-- The program alone: its result, the state then, and the inputs that are left; none where it
waits for ever. -/
def alone : Prog L E S X A → (Nat → E) → S → Option (Except X A × S × (Nat → E))
  | .done r, es, s => some (r, s, es)
  | .stmt _ ready eff next, es, s =>
    if ready s then alone (next (es 0) s) (fun n => es (n + 1)) (eff (es 0) s) else none

theorem alone_atomic {l : L} {ready : S → Bool} {run : E → S → Except X A × S} {es : Nat → E}
    {s : S} : alone (Prog.atomic l ready run) es s =
      if ready s then some ((run (es 0) s).1, (run (es 0) s).2, fun n => es (n + 1)) else none :=
  rfl

/-- A sequence ends with the error of its first part, or with the end of the second. -/
theorem alone_bind {p : Prog L E S X A} {f : A → Prog L E S X B} {es : Nat → E} {s : S} :
    alone (p.bind f) es s = (alone p es s).bind fun x =>
      match x.1 with
      | .ok a => alone (f a) x.2.2 x.2.1
      | .error e => some (.error e, x.2.1, x.2.2) := by
  induction p generalizing es s with
  | done r =>
      cases r with
      | ok a => rfl
      | error x => rfl
  | stmt l ready eff next ih =>
      simp only [Prog.bind, alone]
      split
      · exact ih (es 0) s
      · rfl

/-- The inputs that are left are among those there were. -/
theorem alone_rest {I : E → Prop} {p : Prog L E S X A} {es rest : Nat → E} {s t : S}
    {r : Except X A} (hes : ∀ n, I (es n)) (h : alone p es s = some (r, t, rest)) :
    ∀ n, I (rest n) := by
  induction p generalizing es s with
  | done r₀ =>
      obtain ⟨-, -, rfl⟩ : r₀ = r ∧ s = t ∧ es = rest := by simpa [alone] using h
      exact hes
  | stmt l ready eff next ih =>
      simp only [alone] at h
      split at h
      · exact ih (es 0) s (fun n => hes (n + 1)) h
      · cases h

/-! ### Couplings -/

/-- Where the first program ends, from the first of two states in `P` and with inputs in `I`, the
second ends from the second, with results and states in `Q`; with values, they have taken the same
inputs. -/
def Couples (I : E → Prop) (P : S → S → Prop) (p : Prog L E S X A) (q : Prog L E S X B)
    (Q : Except X A → Except X B → S → S → Prop) : Prop :=
  ∀ es s s', (∀ n, I (es n)) → P s s' → ∀ r t rest, alone p es s = some (r, t, rest) →
    ∃ r' t' rest', alone q es s' = some (r', t', rest') ∧ Q r r' t t' ∧
      (∀ a b, r = .ok a → r' = .ok b → rest' = rest) ∧ ∀ n, I (rest n)

/-- Both results are values, in `Q`, or both are errors, in `F`. -/
def Both (Q : A → B → S → S → Prop) (F : X → X → S → S → Prop) :
    Except X A → Except X B → S → S → Prop
  | .ok a, .ok b => Q a b
  | .error x, .error y => F x y
  | _, _ => fun _ _ => False

/-- Both results are values, in `M`, or both are errors, in `G`; the states are in `R`. -/
def Agree (M : A → B → Prop) (G : X → X → Prop) (R : S → S → Prop) :
    Except X A → Except X B → S → S → Prop :=
  Both (fun a b s s' => M a b ∧ R s s') fun x y s s' => G x y ∧ R s s'

theorem Agree.states {M : A → B → Prop} {G : X → X → Prop} {R : S → S → Prop} {r : Except X A}
    {r' : Except X B} {s s' : S} (h : Agree M G R r r' s s') : R s s' := by
  cases r with
  | ok a =>
      cases r' with
      | ok b => exact h.2
      | error y => exact h.elim
  | error x =>
      cases r' with
      | ok b => exact h.elim
      | error y => exact h.2

variable {I : E → Prop} {P P' : S → S → Prop} {p : Prog L E S X A} {q : Prog L E S X B}
  {Q Q' : Except X A → Except X B → S → S → Prop} {F : X → X → S → S → Prop}

namespace Couples

theorem pre (h : Couples I P p q Q) (hP : ∀ s s', P' s s' → P s s') : Couples I P' p q Q :=
  fun es s s' hes hs => h es s s' hes (hP s s' hs)

theorem post (h : Couples I P p q Q) (hQ : ∀ r r' s s', Q r r' s s' → Q' r r' s s') :
    Couples I P p q Q' := by
  intro es s s' hes hs r t rest hp
  obtain ⟨r', t', rest', hq, hr, hrest⟩ := h es s s' hes hs r t rest hp
  exact ⟨r', t', rest', hq, hQ r r' t t' hr, hrest⟩

theorem done {r : Except X A} {r' : Except X B} (h : ∀ s s', P s s' → Q r r' s s') :
    Couples I P (.done r : Prog L E S X A) (.done r') Q := by
  intro es s s' hes hs r₀ t rest hp
  obtain ⟨rfl, rfl, rfl⟩ : r = r₀ ∧ s = t ∧ es = rest := by simpa [alone] using hp
  exact ⟨r', s', es, rfl, h s s' hs, fun _ _ _ _ => rfl, hes⟩

theorem atomic {l l' : L} {ready ready' : S → Bool} {run : E → S → Except X A × S}
    {run' : E → S → Except X B × S}
    (h : ∀ e s s', I e → P s s' → ready s = true → ready' s' = true ∧
      Q (run e s).1 (run' e s').1 (run e s).2 (run' e s').2) :
    Couples I P (Prog.atomic l ready run) (Prog.atomic l' ready' run') Q := by
  intro es s s' hes hs r t rest hp
  rw [alone_atomic] at hp
  split at hp
  · rename_i hready
    obtain ⟨hready', hq⟩ := h (es 0) s s' (hes 0) hs hready
    cases hp
    exact ⟨_, _, _, by rw [alone_atomic, if_pos hready'], hq, fun _ _ _ _ => rfl,
      fun n => hes (n + 1)⟩
  · cases hp

/-- Sequences are coupled part by part. -/
theorem bind {M : A → B → S → S → Prop} {f : A → Prog L E S X C} {g : B → Prog L E S X D}
    {Q : Except X C → Except X D → S → S → Prop} (hp : Couples I P p q (Both M F))
    (hf : ∀ a b, Couples I (M a b) (f a) (g b) Q)
    (hF : ∀ x y s s', F x y s s' → Q (.error x) (.error y) s s') :
    Couples I P (p.bind f) (q.bind g) Q := by
  intro es s s' hes hs r t rest h
  rw [alone_bind] at h
  obtain ⟨⟨r₁, t₁, rest₁⟩, h₁, h₂⟩ := Option.bind_eq_some_iff.mp h
  obtain ⟨r₁', t₁', rest₁', hq₁, hboth, hsame, hrest₁⟩ := hp es s s' hes hs r₁ t₁ rest₁ h₁
  rw [alone_bind, hq₁]
  cases r₁ with
  | ok a =>
      cases r₁' with
      | ok b =>
          obtain rfl := hsame a b rfl rfl
          exact hf a b rest₁' t₁ t₁' hrest₁ hboth r t rest h₂
      | error y => exact hboth.elim
  | error x =>
      cases r₁' with
      | ok b => exact hboth.elim
      | error y =>
          cases h₂
          exact ⟨_, _, _, rfl, hF x y _ _ hboth, (by intro a b he; cases he), hrest₁⟩

/-- What is known of the states is what is known between the parts; the second part may use what is
known of the values. -/
theorem seq {M : A → B → Prop} {N : C → D → Prop} {G : X → X → Prop} {R : S → S → Prop}
    {f : A → Prog L E S X C} {g : B → Prog L E S X D} (hp : Couples I P p q (Agree M G R))
    (hf : ∀ a b, M a b → Couples I R (f a) (g b) (Agree N G R)) :
    Couples I P (p.bind f) (q.bind g) (Agree N G R) :=
  hp.bind (fun a b es s s' hes hs => hf a b hs.1 es s s' hes hs.2) fun _ _ _ _ h => h

end Couples

/-! ### Changes that a program ignores -/

/-- The program does the same with and without the change `f` of the state. -/
def Ignores (f : S → S) : Prog L E S X A → Prop
  | .done _ => True
  | .stmt _ ready eff next => (∀ s, ready (f s) = ready s) ∧ (∀ e s, eff e (f s) = f (eff e s)) ∧
      (∀ e s, next e (f s) = next e s) ∧ ∀ e s, Ignores f (next e s)

variable {f : S → S}

namespace Ignores

theorem done {r : Except X A} : Ignores f (.done r : Prog L E S X A) := trivial

theorem atomic {l : L} {ready : S → Bool} {run : E → S → Except X A × S}
    (hready : ∀ s, ready (f s) = ready s)
    (hrun : ∀ e s, run e (f s) = ((run e s).1, f (run e s).2)) :
    Ignores f (Prog.atomic l ready run) := by
  refine ⟨hready, fun e s => ?_, fun e s => ?_, fun _ _ => trivial⟩
  · exact congrArg Prod.snd (hrun e s)
  · exact congrArg (fun x => Prog.done x.1) (hrun e s)

theorem bind {k : A → Prog L E S X C} (hp : Ignores f p) (hk : ∀ a, Ignores f (k a)) :
    Ignores f (p.bind k) := by
  induction p with
  | done r =>
      cases r with
      | ok a => exact hk a
      | error x => trivial
  | stmt l ready eff next ih =>
      refine ⟨hp.1, hp.2.1, fun e s => ?_, fun e s => ih e s (hp.2.2.2 e s)⟩
      exact congrArg (·.bind k) (hp.2.2.1 e s)

theorem attempt (hp : Ignores f p) : Ignores f p.attempt := by
  induction p with
  | done r => trivial
  | stmt l ready eff next ih =>
      refine ⟨hp.1, hp.2.1, fun e s => ?_, fun e s => ih e s (hp.2.2.2 e s)⟩
      exact congrArg Prog.attempt (hp.2.2.1 e s)

theorem ensure {b : Bool} {x : X} : Ignores f (Prog.ensure b x : Prog L E S X Unit) := by
  unfold Prog.ensure
  split
  · trivial
  · trivial

theorem okOr {o : Option A} {x : X} : Ignores f (Prog.okOr o x : Prog L E S X A) := by
  cases o with
  | none => trivial
  | some a => trivial

theorem ite {c : Prop} [Decidable c] {p q : Prog L E S X A} (hp : Ignores f p) (hq : Ignores f q) :
    Ignores f (if c then p else q) := by
  split
  · exact hp
  · exact hq

end Ignores

theorem alone_ignores (h : Ignores f p) {es : Nat → E} {s : S} :
    alone p es (f s) = (alone p es s).map fun x => (x.1, f x.2.1, x.2.2) := by
  induction p generalizing es s with
  | done r => rfl
  | stmt l ready eff next ih =>
      simp only [alone]
      rw [h.1, h.2.1, h.2.2.1]
      split
      · exact ih (es 0) s (h.2.2.2 (es 0) s)
      · rfl

/-! ### Programs in turn -/

/-- Programs one after the other, each alone with its own inputs. -/
def inTurn (body : C → Prog L E S X A) :
    List (C × (Nat → E)) → S → Option (List (Except X A) × S)
  | [], s => some ([], s)
  | (k, es) :: ks, s => (alone (body k) es s).bind fun x =>
      (inTurn body ks x.2.1).map fun y => (x.1 :: y.1, y.2)

theorem inTurn_append {body : C → Prog L E S X A} {ks ls : List (C × (Nat → E))} {s t : S}
    {rs : List (Except X A)} (h : inTurn body ks s = some (rs, t)) :
    inTurn body (ks ++ ls) s = (inTurn body ls t).map fun y => (rs ++ y.1, y.2) := by
  induction ks generalizing s rs with
  | nil =>
      obtain ⟨rfl, rfl⟩ := Prod.mk.inj (Option.some.inj h)
      cases hls : inTurn body ls s <;> simp [hls]
  | cons k ks ih =>
      obtain ⟨x, hx, h⟩ := Option.bind_eq_some_iff.mp h
      obtain ⟨⟨rs', t'⟩, hrest, h⟩ := Option.map_eq_some_iff.mp h
      obtain ⟨rfl, rfl⟩ := Prod.mk.inj h
      rw [List.cons_append, inTurn, hx, Option.bind_some, ih hrest, Option.map_map]
      rfl

/-- Programs that are coupled one by one are coupled in turn. -/
theorem Couples.inTurn {body : C → Prog L E S X A} {R : S → S → Prop}
    {Same : Except X A → Except X A → Prop}
    (hbody : ∀ k, Couples I R (body k) (body k) fun r r' s s' => Same r r' ∧ R s s')
    {ks : List (C × (Nat → E))} (hI : ∀ k ∈ ks, ∀ n, I (k.2 n)) {s s' t : S}
    {rs : List (Except X A)} (hs : R s s') (h : Interleave.inTurn body ks s = some (rs, t)) :
    ∃ rs' t', Interleave.inTurn body ks s' = some (rs', t') ∧ List.Forall₂ Same rs rs' ∧ R t t' := by
  induction ks generalizing s s' rs with
  | nil =>
      obtain ⟨rfl, rfl⟩ := Prod.mk.inj (Option.some.inj h)
      exact ⟨[], s', rfl, .nil, hs⟩
  | cons k ks ih =>
      obtain ⟨⟨r, t₁, rest⟩, hk, h⟩ := Option.bind_eq_some_iff.mp h
      obtain ⟨⟨rs₁, t₂⟩, hks, h⟩ := Option.map_eq_some_iff.mp h
      obtain ⟨rfl, rfl⟩ := Prod.mk.inj h
      obtain ⟨r', t₁', rest', hk', ⟨hr, ht₁⟩, -⟩ :=
        hbody k.1 k.2 s s' (hI k List.mem_cons_self) hs r t₁ rest hk
      obtain ⟨rs', t', hks', hrs, ht⟩ :=
        ih (fun l hl => hI l (List.mem_cons_of_mem _ hl)) ht₁ hks
      refine ⟨r' :: rs', t', ?_, .cons hr hrs, ht⟩
      rw [Interleave.inTurn, hk', Option.bind_some, hks']
      rfl

end Interleave
