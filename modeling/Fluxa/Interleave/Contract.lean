import Fluxa.Interleave.System

/-!
# Interleave — contracts

Rely–guarantee reasoning about the calls of a system.  A contract names an invariant of the shared state and, for each call number, the state changes that call may make: its *guarantee*.  What a call may *rely* on between two of its statements is then fixed: the changes that the guarantees of the other calls allow.  So a contract is an abstract transition system, and one proves once that its actions keep the invariant.

**`Contract.Sat`** says that a program keeps to the contract, from a given state and under any interference, and ends as a postcondition says.  The rules for it follow the shape of programs: `Triple.bind`, `Triple.attempt`, `Triple.atomic` and so on.  **`Contract.sound`** puts the calls together: if every call keeps to the contract on its own, then in every run the invariant holds and every finished call satisfies its postcondition, in whatever state the others have left since.
-/

namespace Interleave

/-- The abstract transition system that the calls of a system are to keep to. -/
structure Contract (L E S : Type) where
  /-- What holds of the shared state between any two statements. -/
  inv : S → Prop
  /-- The changes of state that call number `i` may make by a statement with the given label and
  input. -/
  guar : Nat → L → E → S → S → Prop
  /-- The inputs under which statements run, and any further condition on the runs considered. -/
  adm : Nat → L → E → S → Prop
  /-- The actions keep the invariant. -/
  guar_inv : ∀ {i l e s s'}, inv s → guar i l e s s' → inv s'

namespace Contract

variable {L E S X C A B : Type} (K : Contract L E S)

/-- One change made by a call other than `i`. -/
def Other (i : Nat) (s s' : S) : Prop := K.inv s ∧ ∃ j l e, j ≠ i ∧ K.guar j l e s s'

/-- What the other calls may do to the state between two statements of call `i`. -/
def rely (i : Nat) : S → S → Prop := Relation.ReflTransGen (K.Other i)

/-- Call `i`, left with the program `p` in state `s`, keeps to the contract, and when it ends
`Q` holds of its result and of every state the others may then leave. -/
def Sat (i : Nat) : Prog L E S X A → (Except X A → S → Prop) → S → Prop
  | .done r, Q, s => ∀ s', K.rely i s s' → K.inv s' → Q r s'
  | .stmt l ready eff next, Q, s => ∀ s' e, K.rely i s s' → K.inv s' → ready s' = true →
      K.adm i l e s' → K.guar i l e s' (eff e s') ∧ Sat i (next e s') Q (eff e s')

/-- No call but `i` itself can make `P` false. -/
def Stable (i : Nat) (P : S → Prop) : Prop :=
  ∀ s s' j l e, K.inv s → P s → j ≠ i → K.guar j l e s s' → P s'

/-- No call at all can make `P` false. -/
def Lasting (P : S → Prop) : Prop := ∀ i l e s s', K.inv s → P s → K.guar i l e s s' → P s'

/-- Run where `P` holds, the program `p` of call `i` keeps to the contract and ends in `Q`. -/
def Triple (i : Nat) (P : S → Prop) (p : Prog L E S X A) (Q : Except X A → S → Prop) : Prop :=
  ∀ s, K.inv s → P s → K.Sat i p Q s

/-- The postcondition that asks `Q` of a value and nothing of an error. -/
def onOk (Q : A → S → Prop) : Except X A → S → Prop
  | .ok a, s => Q a s
  | .error _, _ => True

@[simp] theorem onOk_ok (Q : A → S → Prop) (a : A) (s : S) :
    onOk (X := X) Q (.ok a) s = Q a s := rfl

@[simp] theorem onOk_error (Q : A → S → Prop) (x : X) (s : S) :
    onOk Q (.error x) s = True := rfl

/-- The postcondition that asks `Q` of a value and `E` of an error. -/
def orFail (E : X → S → Prop) (Q : A → S → Prop) : Except X A → S → Prop
  | .ok a, s => Q a s
  | .error x, s => E x s

variable {K}

/-! ### Stable facts -/

theorem Lasting.stable {P : S → Prop} (h : K.Lasting P) (i : Nat) : K.Stable i P :=
  fun s s' j l e hi hP _ hg => h j l e s s' hi hP hg

theorem stable_const {i : Nat} {P : Prop} : K.Stable i fun _ => P := fun _ _ _ _ _ _ h _ _ => h

theorem lasting_const {P : Prop} : K.Lasting fun _ => P := fun _ _ _ _ _ _ h _ => h

theorem Stable.and {i : Nat} {P Q : S → Prop} (hP : K.Stable i P) (hQ : K.Stable i Q) :
    K.Stable i fun s => P s ∧ Q s :=
  fun s s' j l e hi h hj hg => ⟨hP s s' j l e hi h.1 hj hg, hQ s s' j l e hi h.2 hj hg⟩

theorem stable_or {i : Nat} {P Q : S → Prop} (hP : K.Stable i P) (hQ : K.Stable i Q) :
    K.Stable i fun s => P s ∨ Q s :=
  fun s s' j l e hi h hj hg => h.imp (fun h => hP s s' j l e hi h hj hg)
    fun h => hQ s s' j l e hi h hj hg

theorem Lasting.and {P Q : S → Prop} (hP : K.Lasting P) (hQ : K.Lasting Q) :
    K.Lasting fun s => P s ∧ Q s :=
  fun i l e s s' hi h hg => ⟨hP i l e s s' hi h.1 hg, hQ i l e s s' hi h.2 hg⟩

theorem stable_exists {i : Nat} {ι : Type} {P : ι → S → Prop} (h : ∀ a, K.Stable i (P a)) :
    K.Stable i fun s => ∃ a, P a s := by
  rintro s s' j l e hi ⟨a, ha⟩ hj hg
  exact ⟨a, h a s s' j l e hi ha hj hg⟩

theorem stable_forall {i : Nat} {ι : Type} {P : ι → S → Prop} (h : ∀ a, K.Stable i (P a)) :
    K.Stable i fun s => ∀ a, P a s :=
  fun s s' j l e hi hs hj hg a => h a s s' j l e hi (hs a) hj hg

/-- What is asked only under a condition that is not about the state. -/
theorem stable_imp {i : Nat} {φ : Prop} {P : S → Prop} (h : K.Stable i P) :
    K.Stable i fun s => φ → P s :=
  fun s s' j l e hi hs hj hg hφ => h s s' j l e hi (hs hφ) hj hg

theorem lasting_exists {ι : Type} {P : ι → S → Prop} (h : ∀ a, K.Lasting (P a)) :
    K.Lasting fun s => ∃ a, P a s := by
  rintro i l e s s' hi ⟨a, ha⟩ hg
  exact ⟨a, h a i l e s s' hi ha hg⟩

theorem stable_onOk {i : Nat} {Q : A → S → Prop} (h : ∀ a, K.Stable i (Q a)) (r : Except X A) :
    K.Stable i (onOk Q r) := by
  cases r with
  | ok a => exact h a
  | error x => exact stable_const

theorem stable_orFail {i : Nat} {E : X → S → Prop} {Q : A → S → Prop} (hE : ∀ x, K.Stable i (E x))
    (hQ : ∀ a, K.Stable i (Q a)) (r : Except X A) : K.Stable i (orFail E Q r) := by
  cases r with
  | ok a => exact hQ a
  | error x => exact hE x

/-- A stable fact survives any interference. -/
theorem Stable.rely {i : Nat} {P : S → Prop} (h : K.Stable i P) {s s' : S}
    (hr : K.rely i s s') (hP : P s) : P s' := by
  induction hr with
  | refl => exact hP
  | tail _ hbc ih =>
      obtain ⟨hi, j, l, e, hj, hg⟩ := hbc
      exact h _ _ j l e hi ih hj hg

/-- Under a stronger invariant and fewer changes, what was stable is stable. -/
theorem Stable.refine {K₀ : Contract L E S} {i : Nat} {P : S → Prop} (h : K₀.Stable i P)
    (hinv : ∀ s, K.inv s → K₀.inv s)
    (hguar : ∀ j l e s s', K.guar j l e s s' → K₀.guar j l e s s') : K.Stable i P :=
  fun s s' j l e hi hs hj hg => h s s' j l e (hinv s hi) hs hj (hguar j l e s s' hg)

/-! ### Rules for `Sat` -/

theorem sat_stmt {i : Nat} {l : L} {ready : S → Bool} {eff : E → S → S}
    {next : E → S → Prog L E S X A} {Q : Except X A → S → Prop} {s : S} :
    K.Sat i (.stmt l ready eff next) Q s ↔ ∀ s' e, K.rely i s s' → K.inv s' → ready s' = true →
      K.adm i l e s' → K.guar i l e s' (eff e s') ∧ K.Sat i (next e s') Q (eff e s') :=
  Iff.rfl

theorem sat_done {i : Nat} {r : Except X A} {Q : Except X A → S → Prop} {s : S} :
    K.Sat i (.done r) Q s ↔ ∀ s', K.rely i s s' → K.inv s' → Q r s' :=
  Iff.rfl

theorem Sat.rely {i : Nat} {p : Prog L E S X A} {Q : Except X A → S → Prop} {s s' : S}
    (h : K.Sat i p Q s) (hr : K.rely i s s') : K.Sat i p Q s' := by
  cases p with
  | done r => exact fun t ht hi => h t (hr.trans ht) hi
  | stmt l ready eff next => exact fun t e ht hi hy ha => h t e (hr.trans ht) hi hy ha

theorem Sat.conseq {i : Nat} {p : Prog L E S X A} {Q Q' : Except X A → S → Prop} {s : S}
    (h : K.Sat i p Q s) (hQ : ∀ r s, K.inv s → Q r s → Q' r s) : K.Sat i p Q' s := by
  induction p generalizing s with
  | done r => exact fun t ht hi => hQ r t hi (h t ht hi)
  | stmt l ready eff next ih =>
      intro t e ht hi hy ha
      obtain ⟨hg, hn⟩ := h t e ht hi hy ha
      exact ⟨hg, ih e t hn⟩

/-- A fact that no call can make false holds of the end as well. -/
theorem Sat.keep {i : Nat} {p : Prog L E S X A} {Q : Except X A → S → Prop} {F : S → Prop}
    (hF : K.Lasting F) {s : S} (h : K.Sat i p Q s) (hs : F s) :
    K.Sat i p (fun r t => Q r t ∧ F t) s := by
  induction p generalizing s with
  | done r => exact fun t ht hi => ⟨h t ht hi, (hF.stable i).rely ht hs⟩
  | stmt l ready eff next ih =>
      intro t e ht hi hy ha
      obtain ⟨hg, hn⟩ := h t e ht hi hy ha
      exact ⟨hg, ih e t hn (hF i l e t _ hi ((hF.stable i).rely ht hs) hg)⟩

theorem Sat.bind {i : Nat} {p : Prog L E S X A} {f : A → Prog L E S X B}
    {Q : Except X A → S → Prop} {R : Except X B → S → Prop} {s : S} (hs : K.inv s)
    (h : K.Sat i p Q s) (hf : ∀ a t, K.inv t → Q (.ok a) t → K.Sat i (f a) R t)
    (he : ∀ x t, K.inv t → Q (.error x) t → R (.error x) t) : K.Sat i (p.bind f) R s := by
  induction p generalizing s with
  | done r =>
      cases r with
      | ok a => exact hf a s hs (h s .refl hs)
      | error x => exact fun t ht hi => he x t hi (h t ht hi)
  | stmt l ready eff next ih =>
      intro t e ht hi hy ha
      obtain ⟨hg, hn⟩ := h t e ht hi hy ha
      exact ⟨hg, ih e t (K.guar_inv hi hg) hn⟩

theorem Sat.attempt {i : Nat} {p : Prog L E S X A} {Q : Except X A → S → Prop} {s : S}
    (h : K.Sat i p Q s) :
    K.Sat i p.attempt (fun r t => ∃ r', r = .ok r' ∧ Q r' t) s := by
  induction p generalizing s with
  | done r => exact fun t ht hi => ⟨r, rfl, h t ht hi⟩
  | stmt l ready eff next ih =>
      intro t e ht hi hy ha
      obtain ⟨hg, hn⟩ := h t e ht hi hy ha
      exact ⟨hg, ih e t hn⟩

/-! ### Rules for `Triple` -/

theorem Triple.conseq {i : Nat} {P P' : S → Prop} {p : Prog L E S X A}
    {Q Q' : Except X A → S → Prop} (h : K.Triple i P p Q) (hP : ∀ s, K.inv s → P' s → P s)
    (hQ : ∀ r s, K.inv s → Q r s → Q' r s) : K.Triple i P' p Q' :=
  fun s hi hs => (h s hi (hP s hi hs)).conseq hQ

theorem Triple.pre {i : Nat} {P P' : S → Prop} {p : Prog L E S X A}
    {Q : Except X A → S → Prop} (h : K.Triple i P p Q) (hP : ∀ s, K.inv s → P' s → P s) :
    K.Triple i P' p Q :=
  h.conseq hP fun _ _ _ h => h

theorem Triple.post {i : Nat} {P : S → Prop} {p : Prog L E S X A}
    {Q Q' : Except X A → S → Prop} (h : K.Triple i P p Q)
    (hQ : ∀ r s, K.inv s → Q r s → Q' r s) : K.Triple i P p Q' :=
  h.conseq (fun _ _ h => h) hQ

/-- Whether the program keeps to the contract, ending anyhow, is what any triple says. -/
theorem Triple.any {i : Nat} {P : S → Prop} {p : Prog L E S X A}
    {Q : Except X A → S → Prop} (h : K.Triple i P p Q) : K.Triple i P p fun _ _ => True :=
  h.post fun _ _ _ _ => trivial

/-- A fact that is not about the state may be assumed beforehand. -/
theorem Triple.of_fact {i : Nat} {φ : Prop} {P : S → Prop} {p : Prog L E S X A}
    {Q : Except X A → S → Prop} (h : φ → K.Triple i P p Q) :
    K.Triple i (fun s => φ ∧ P s) p Q :=
  fun s hi hs => h hs.1 s hi hs.2

/-- An ending of which nothing is asked. -/
theorem Triple.onOk_any {i : Nat} {P : S → Prop} {p : Prog L E S X A}
    {Q : Except X A → S → Prop} (h : K.Triple i P p Q) :
    K.Triple i P p (onOk fun _ _ => True) :=
  h.post fun r _ _ _ => by cases r <;> trivial

theorem Triple.keep {i : Nat} {P F : S → Prop} {p : Prog L E S X A}
    {Q : Except X A → S → Prop} (hF : K.Lasting F) (h : K.Triple i P p Q) :
    K.Triple i (fun s => P s ∧ F s) p fun r s => Q r s ∧ F s :=
  fun s hi hs => (h s hi hs.1).keep hF hs.2

theorem Triple.bind {i : Nat} {P : S → Prop} {p : Prog L E S X A} {f : A → Prog L E S X B}
    {Q : Except X A → S → Prop} {R : Except X B → S → Prop} (h : K.Triple i P p Q)
    (hf : ∀ a, K.Triple i (Q (.ok a)) (f a) R)
    (he : ∀ x s, K.inv s → Q (.error x) s → R (.error x) s) : K.Triple i P (p.bind f) R :=
  fun s hi hs => (h s hi hs).bind hi (fun a t ht hq => hf a t ht hq) he

/-- Sequencing when only the value's postcondition matters. -/
theorem Triple.seq {i : Nat} {P : S → Prop} {p : Prog L E S X A} {f : A → Prog L E S X B}
    {Q : A → S → Prop} {R : B → S → Prop} (h : K.Triple i P p (onOk Q))
    (hf : ∀ a, K.Triple i (Q a) (f a) (onOk R)) : K.Triple i P (p.bind f) (onOk R) :=
  h.bind hf fun _ _ _ _ => trivial

/-- Sequencing when an error of the first program is one of the whole. -/
theorem Triple.seq_or {i : Nat} {P : S → Prop} {p : Prog L E S X A} {f : A → Prog L E S X B}
    {F : X → S → Prop} {Q : A → S → Prop} {R : B → S → Prop} (h : K.Triple i P p (orFail F Q))
    (hf : ∀ a, K.Triple i (Q a) (f a) (orFail F R)) : K.Triple i P (p.bind f) (orFail F R) :=
  h.bind hf fun _ _ _ h => h

theorem Triple.attempt {i : Nat} {P : S → Prop} {p : Prog L E S X A}
    {Q : Except X A → S → Prop} (h : K.Triple i P p Q) :
    K.Triple i P p.attempt (onOk Q) := by
  refine fun s hi hs => (h s hi hs).attempt.conseq ?_
  rintro r t - ⟨r', rfl, hq⟩
  exact hq

/-- An attempt ends in no error. -/
theorem Triple.attempt_or {i : Nat} {P : S → Prop} {p : Prog L E S X A}
    {Q : Except X A → S → Prop} {F : X → S → Prop} (h : K.Triple i P p Q) :
    K.Triple i P p.attempt (orFail F Q) := by
  refine fun s hi hs => (h s hi hs).attempt.conseq ?_
  rintro r t - ⟨r', rfl, hq⟩
  exact hq

theorem Triple.done {i : Nat} {P : S → Prop} {r : Except X A} {Q : Except X A → S → Prop}
    (hP : K.Stable i P) (h : ∀ s, K.inv s → P s → Q r s) :
    K.Triple i P (.done r : Prog L E S X A) Q :=
  fun _ _ hs t ht hi => h t hi (hP.rely ht hs)

theorem Triple.fail {i : Nat} {P : S → Prop} {x : X} {Q : A → S → Prop} :
    K.Triple i P (Prog.fail x : Prog L E S X A) (onOk Q) :=
  fun _ _ _ _ _ _ => trivial

theorem Triple.blocked {i : Nat} {P : S → Prop} {l : L} {x : X} {Q : Except X A → S → Prop} :
    K.Triple i P (Prog.blocked l x : Prog L E S X A) Q :=
  fun _ _ _ _ _ _ _ hy _ => absurd hy (by simp)

theorem Triple.ensure {i : Nat} {P : S → Prop} (hP : K.Stable i P) {b : Bool} {x : X} :
    K.Triple i P (Prog.ensure b x : Prog L E S X Unit) (onOk fun _ s => b = true ∧ P s) := by
  unfold Prog.ensure
  cases b with
  | false => exact Triple.fail
  | true => exact Triple.done hP fun _ _ hs => ⟨rfl, hs⟩

theorem Triple.ensure_or {i : Nat} {P : S → Prop} (hP : K.Stable i P) {b : Bool} {x : X}
    {F : X → S → Prop} (hF : ∀ s, K.inv s → P s → F x s) :
    K.Triple i P (Prog.ensure b x : Prog L E S X Unit) (orFail F fun _ => P) := by
  unfold Prog.ensure
  cases b with
  | false => exact Triple.done hP hF
  | true => exact Triple.done hP fun _ _ hs => hs

theorem Triple.okOr_or {i : Nat} {P : S → Prop} (hP : K.Stable i P) {o : Option A} {x : X}
    {F : X → S → Prop} (hF : ∀ s, K.inv s → P s → o = none → F x s) :
    K.Triple i P (Prog.okOr o x : Prog L E S X A) (orFail F fun a s => o = some a ∧ P s) := by
  unfold Prog.okOr
  cases o with
  | none => exact Triple.done hP fun s hi hs => hF s hi hs rfl
  | some a => exact Triple.done hP fun _ _ hs => ⟨rfl, hs⟩

theorem Triple.okOr {i : Nat} {P : S → Prop} (hP : K.Stable i P) {o : Option A} {x : X} :
    K.Triple i P (Prog.okOr o x : Prog L E S X A) (onOk fun a s => o = some a ∧ P s) := by
  unfold Prog.okOr
  cases o with
  | none => exact Triple.fail
  | some a => exact Triple.done hP fun _ _ hs => ⟨rfl, hs⟩

/-- A program that goes on with the value of `r`. -/
theorem Triple.lift_bind {i : Nat} {P : S → Prop} {r : Except X A} {f : A → Prog L E S X B}
    (h : ∀ a, r = .ok a → K.Triple i P (f a) fun _ _ => True) :
    K.Triple i P ((Prog.lift r : Prog L E S X A).bind f) fun _ _ => True := by
  cases r with
  | ok a => exact h a rfl
  | error x => exact fun _ _ _ _ _ _ => trivial

/-- A program that goes on with the value of `r`, or ends with its error. -/
theorem Triple.lift_or {i : Nat} {P : S → Prop} {r : Except X A} {f : A → Prog L E S X B}
    {R : Except X B → S → Prop} (hP : K.Stable i P)
    (h : ∀ a, r = .ok a → K.Triple i P (f a) R) (he : ∀ x s, K.inv s → P s → R (.error x) s) :
    K.Triple i P ((Prog.lift r : Prog L E S X A).bind f) R := by
  cases r with
  | ok a => exact h a rfl
  | error x => exact Triple.done hP (he x)

theorem Triple.ite {i : Nat} {P : S → Prop} {b : Prop} [Decidable b] {p q : Prog L E S X A}
    {Q : Except X A → S → Prop} (hp : b → K.Triple i P p Q) (hq : ¬ b → K.Triple i P q Q) :
    K.Triple i P (if b then p else q) Q := by
  split
  · exact hp ‹b›
  · exact hq ‹¬ b›

/-- A single statement: what it does from any state it may find, and that what it establishes
outlives the others' changes. -/
theorem Triple.atomic {i : Nat} {P : S → Prop} {l : L} {ready : S → Bool}
    {run : E → S → Except X A × S} {Q : Except X A → S → Prop} (hP : K.Stable i P)
    (hQ : ∀ r, K.Stable i (Q r))
    (h : ∀ s e, K.inv s → P s → ready s = true → K.adm i l e s →
      K.guar i l e s (run e s).2 ∧ Q (run e s).1 (run e s).2) :
    K.Triple i P (Prog.atomic l ready run) Q := by
  intro s hi hs s' e hr hi' hy ha
  obtain ⟨hg, hq⟩ := h s' e hi' (hP.rely hr hs) hy ha
  exact ⟨hg, fun t ht _ => (hQ _).rely ht hq⟩

/-- What a triple says of a single statement. -/
theorem Triple.of_atomic {i : Nat} {P : S → Prop} {l : L} {ready : S → Bool}
    {run : E → S → Except X A × S} {Q : Except X A → S → Prop}
    (h : K.Triple i P (Prog.atomic l ready run) Q) {s : S} {e : E} (hi : K.inv s) (hs : P s)
    (hy : ready s = true) (ha : K.adm i l e s) :
    K.guar i l e s (run e s).2 ∧ Q (run e s).1 (run e s).2 := by
  obtain ⟨hg, hq⟩ := h s hi hs s e .refl hi hy ha
  exact ⟨hg, hq _ .refl (K.guar_inv hi hg)⟩

/-! ### Programs that keep to the contract from anywhere -/

/-- From every state, and whatever its results, the program keeps to the contract. -/
def Safe (K : Contract L E S) (i : Nat) (p : Prog L E S X A) : Prop :=
  K.Triple i (fun _ => True) p fun _ _ => True

theorem Triple.safe {i : Nat} {p : Prog L E S X A} {Q : Except X A → S → Prop}
    (h : K.Triple i (fun _ => True) p Q) : K.Safe i p :=
  h.post fun _ _ _ _ => trivial

theorem Safe.done {i : Nat} {r : Except X A} : K.Safe i (.done r : Prog L E S X A) :=
  fun _ _ _ _ _ _ => trivial

theorem Safe.fail {i : Nat} {x : X} : K.Safe i (Prog.fail x : Prog L E S X A) :=
  fun _ _ _ _ _ _ => trivial

theorem Safe.bind {i : Nat} {p : Prog L E S X A} {f : A → Prog L E S X B} (hp : K.Safe i p)
    (hf : ∀ a, K.Safe i (f a)) : K.Safe i (p.bind f) :=
  Triple.bind hp hf fun _ _ _ _ => trivial

/-- The first part of a program keeps to what the whole does. -/
theorem Safe.of_bind {i : Nat} {p : Prog L E S X A} {f : A → Prog L E S X B}
    (h : K.Safe i (p.bind f)) : K.Safe i p := by
  intro s hi hs
  replace h := h s hi hs
  clear hs hi
  induction p generalizing s with
  | done r => exact sat_done.mpr fun _ _ _ => trivial
  | stmt l ready eff next ih =>
      refine sat_stmt.mpr fun t e ht hi hy ha => ?_
      obtain ⟨hg, hn⟩ := sat_stmt.mp h t e ht hi hy ha
      exact ⟨hg, ih e t _ hn⟩

theorem Safe.attempt {i : Nat} {p : Prog L E S X A} (hp : K.Safe i p) : K.Safe i p.attempt :=
  (Triple.attempt hp).safe

theorem Safe.ensure {i : Nat} {b : Bool} {x : X} :
    K.Safe i (Prog.ensure b x : Prog L E S X Unit) :=
  (Triple.ensure stable_const).safe

theorem Safe.okOr {i : Nat} {o : Option A} {x : X} :
    K.Safe i (Prog.okOr o x : Prog L E S X A) :=
  (Triple.okOr stable_const).safe

theorem Safe.ite {i : Nat} {b : Prop} [Decidable b] {p q : Prog L E S X A}
    (hp : b → K.Safe i p) (hq : ¬ b → K.Safe i q) : K.Safe i (if b then p else q) :=
  Triple.ite hp hq

theorem Safe.atomic {i : Nat} {l : L} {ready : S → Bool} {run : E → S → Except X A × S}
    (h : ∀ s e, K.inv s → ready s = true → K.adm i l e s → K.guar i l e s (run e s).2) :
    K.Safe i (Prog.atomic l ready run) :=
  Triple.atomic stable_const (fun _ => stable_const) fun s e hi _ hy ha =>
    ⟨h s e hi hy ha, trivial⟩

/-- Every statement of the program makes a change in `R`, from whatever state. -/
def Makes (R : L → E → S → S → Prop) : Prog L E S X A → Prop
  | .done _ => True
  | .stmt l _ eff next => (∀ e s, R l e s (eff e s)) ∧ ∀ e s, Makes R (next e s)

/-- A program that makes changes in `R` only keeps to a contract that allows them. -/
theorem Makes.safe {R : L → E → S → S → Prop} {i : Nat} {p : Prog L E S X A} (h : Makes R p)
    (hR : ∀ l e s s', K.inv s → K.adm i l e s → R l e s s' → K.guar i l e s s') : K.Safe i p := by
  intro s hi _
  clear hi
  induction p generalizing s with
  | done r => exact fun _ _ _ => trivial
  | stmt l ready eff next ih =>
      intro t e _ hi _ ha
      exact ⟨hR l e t _ hi ha (h.1 e t), ih e t (h.2 e t) _⟩

/-- A safe program takes a lasting fact from its start to its end. -/
theorem Safe.carry {i : Nat} {p : Prog L E S X A} (hp : K.Safe i p) {F : S → Prop}
    (hF : K.Lasting F) : K.Triple i F p (onOk fun _ => F) :=
  ((Triple.keep hF hp).pre fun _ _ hs => ⟨trivial, hs⟩).post fun r _ _ h => by
    cases r with
    | ok a => exact h.2
    | error x => trivial

/-- A safe program in front of one that needs the lasting fact. -/
theorem Safe.carry_seq {i : Nat} {p : Prog L E S X A} {f : A → Prog L E S X B}
    {R : B → S → Prop} (hp : K.Safe i p) {F : S → Prop} (hF : K.Lasting F)
    (hf : ∀ a, K.Triple i F (f a) (onOk R)) : K.Triple i F (p.bind f) (onOk R) :=
  Triple.seq (hp.carry hF) hf

theorem Safe.carry_bind {i : Nat} {p : Prog L E S X A} {f : A → Prog L E S X B}
    (hp : K.Safe i p) {F : S → Prop} (hF : K.Lasting F)
    (hf : ∀ a, K.Triple i F (f a) fun _ _ => True) :
    K.Triple i F (p.bind f) fun _ _ => True :=
  Triple.bind (hp.carry hF) hf fun _ _ _ _ => trivial

/-! ### Programs that make only some of the changes allowed to them -/

/-- The contract under which call `i` is held to the changes `W` besides. -/
def within (K : Contract L E S) (i : Nat) (W : L → E → S → S → Prop) : Contract L E S where
  inv := K.inv
  guar j l e s s' := K.guar j l e s s' ∧ (j = i → W l e s s')
  adm := K.adm
  guar_inv hi hg := K.guar_inv hi hg.1

theorem rely_within {i : Nat} {W : L → E → S → S → Prop} {s s' : S} :
    (K.within i W).rely i s s' ↔ K.rely i s s' := by
  have h : (K.within i W).Other i = K.Other i := by
    funext a b
    refine propext ⟨?_, ?_⟩
    · rintro ⟨hi, j, l, e, hj, hg, -⟩
      exact ⟨hi, j, l, e, hj, hg⟩
    · rintro ⟨hi, j, l, e, hj, hg⟩
      exact ⟨hi, j, l, e, hj, hg, fun h => absurd h hj⟩
  rw [rely, rely, h]

theorem Sat.of_within {i : Nat} {W : L → E → S → S → Prop} {p : Prog L E S X A}
    {Q : Except X A → S → Prop} {s : S} (h : (K.within i W).Sat i p Q s) : K.Sat i p Q s := by
  induction p generalizing s with
  | done r => exact fun t ht hi => h t (rely_within.mpr ht) hi
  | stmt l ready eff next ih =>
      intro t e ht hi hy ha
      obtain ⟨hg, hn⟩ := h t e (rely_within.mpr ht) hi hy ha
      exact ⟨hg.1, ih e t hn⟩

theorem Triple.of_within {i : Nat} {W : L → E → S → S → Prop} {P : S → Prop}
    {p : Prog L E S X A} {Q : Except X A → S → Prop} (h : (K.within i W).Triple i P p Q) :
    K.Triple i P p Q :=
  fun s hi hs => (h s hi hs).of_within

theorem Stable.of_within {i : Nat} {W : L → E → S → S → Prop} {P : S → Prop}
    (h : (K.within i W).Stable i P) : K.Stable i P :=
  fun s s' j l e hi hs hj hg => h s s' j l e hi hs hj ⟨hg, fun h => absurd h hj⟩

/-- A fact that the others keep, and that `i` keeps as long as it makes only the changes `W`. -/
theorem lasting_within {i : Nat} {W : L → E → S → S → Prop} {P : S → Prop} (hP : K.Stable i P)
    (hW : ∀ l e s s', K.inv s → P s → K.guar i l e s s' → W l e s s' → P s') :
    (K.within i W).Lasting P := by
  intro j l e s s' hi hs hg
  by_cases hj : j = i
  · subst hj
    exact hW l e s s' hi hs hg.1 (hg.2 rfl)
  · exact hP s s' j l e hi hs hj hg.1

/-! ### Two contracts at once -/

/-- The contract that asks for what each of the two asks for. -/
def both (K K' : Contract L E S) : Contract L E S where
  inv s := K.inv s ∧ K'.inv s
  guar i l e s s' := K.guar i l e s s' ∧ K'.guar i l e s s'
  adm i l e s := K.adm i l e s ∧ K'.adm i l e s
  guar_inv hi hg := ⟨K.guar_inv hi.1 hg.1, K'.guar_inv hi.2 hg.2⟩

theorem rely_both {K' : Contract L E S} {i : Nat} {s s' : S} (h : (K.both K').rely i s s') :
    K.rely i s s' ∧ K'.rely i s s' := by
  induction h with
  | refl => exact ⟨.refl, .refl⟩
  | tail _ hbc ih =>
      obtain ⟨hi, j, l, e, hj, hg⟩ := hbc
      exact ⟨ih.1.tail ⟨hi.1, j, l, e, hj, hg.1⟩, ih.2.tail ⟨hi.2, j, l, e, hj, hg.2⟩⟩

/-- A program that keeps to each of two contracts keeps to both, and ends as each of them says. -/
theorem Sat.both {K' : Contract L E S} {i : Nat} {p : Prog L E S X A}
    {Q Q' : Except X A → S → Prop} {s : S} (h : K.Sat i p Q s) (h' : K'.Sat i p Q' s) :
    (K.both K').Sat i p (fun r t => Q r t ∧ Q' r t) s := by
  induction p generalizing s with
  | done r =>
      intro t ht hi
      obtain ⟨hr, hr'⟩ := rely_both ht
      exact ⟨h t hr hi.1, h' t hr' hi.2⟩
  | stmt l ready eff next ih =>
      intro t e ht hi hy ha
      obtain ⟨hr, hr'⟩ := rely_both ht
      obtain ⟨hg, hn⟩ := h t e hr hi.1 hy ha.1
      obtain ⟨hg', hn'⟩ := h' t e hr' hi.2 hy ha.2
      exact ⟨⟨hg, hg'⟩, ih e t hn hn'⟩

theorem Triple.both {K' : Contract L E S} {i : Nat} {p : Prog L E S X A} {P P' : S → Prop}
    {Q Q' : Except X A → S → Prop} (h : K.Triple i P p Q) (h' : K'.Triple i P' p Q') :
    (K.both K').Triple i (fun s => P s ∧ P' s) p fun r t => Q r t ∧ Q' r t :=
  fun s hi hs => (h s hi.1 hs.1).both (h' s hi.2 hs.2)

theorem Safe.both {K' : Contract L E S} {i : Nat} {p : Prog L E S X A} (h : K.Safe i p)
    (h' : K'.Safe i p) : (K.both K').Safe i p :=
  (Triple.both h h').conseq (fun _ _ _ => ⟨trivial, trivial⟩) fun _ _ _ _ => trivial

/-! ### Soundness -/

/-- In configuration `c` the invariant holds, and every call keeps to the contract with what is
left of its program. -/
def Keeps (K : Contract L E S) (post : Nat → C → Except X A → S → Prop)
    (c : Config L E S X C A) : Prop :=
  K.inv c.st ∧ ∀ i k p, c.calls[i]? = some (k, p) → K.Sat i p (post i k) c.st

theorem keeps_start {post : Nat → C → Except X A → S → Prop} {s : S} (hs : K.inv s) :
    Keeps K post (.start s : Config L E S X C A) :=
  ⟨hs, fun i k p h => by simp [Config.start] at h⟩

/-- As `Keeps`, and a call that has not come in yet finds `pre` when it does. -/
def KeepsFrom (K : Contract L E S) (pre : Nat → S → Prop)
    (post : Nat → C → Except X A → S → Prop) (c : Config L E S X C A) : Prop :=
  Keeps K post c ∧ ∀ i, c.calls.length ≤ i → pre i c.st

theorem keepsFrom_start {pre : Nat → S → Prop} {post : Nat → C → Except X A → S → Prop} {s : S}
    (hs : K.inv s) (hpre : ∀ i, pre i s) : KeepsFrom K pre post (.start s : Config L E S X C A) :=
  ⟨keeps_start hs, fun i _ => hpre i⟩

/-- What only a call itself can make false, it finds true when it comes in. -/
theorem keepsFrom_step_of {sys : System L E S X C A} {pre : Nat → S → Prop}
    {post : Nat → C → Except X A → S → Prop} {cond : Nat → L → E → S → Prop}
    {c d : Config L E S X C A} {m : Move E C} (hpre : ∀ i, K.Stable i (pre i))
    (hbody : ∀ k, m = .call k → K.Triple c.calls.length (pre c.calls.length) (sys.body k)
      (post c.calls.length k))
    (hadm : ∀ i l e s, sys.adm i l e s = true → cond i l e s → K.adm i l e s)
    (hc : KeepsFrom K pre post c) (hm : c.Meets cond m) (h : sys.step c m = some d) :
    KeepsFrom K pre post d := by
  obtain ⟨⟨hi, hk⟩, hnew⟩ := hc
  cases m with
  | call k =>
      obtain rfl := System.step_call h
      refine ⟨⟨hi, fun j k' p hj => ?_⟩, fun j hj => hnew j ?_⟩
      · rw [List.getElem?_append] at hj
        split at hj
        · exact hk j k' p hj
        · rename_i hlt
          rw [List.getElem?_singleton] at hj
          split at hj
          · obtain rfl : j = c.calls.length := by omega
            cases hj
            -- The call that comes in starts from its precondition, which has held so far.
            exact hbody k rfl c.st hi (hnew _ (Nat.le_refl _))
          · cases hj
      · rw [List.length_append] at hj
        exact Nat.le_trans (Nat.le_add_right _ _) hj
  | exec i e =>
      obtain ⟨k, l, ready, eff, next, hci, hy, hya, rfl⟩ := System.step_exec h
      have hlt : i < c.calls.length := (List.getElem?_eq_some_iff.mp hci).1
      have ha : K.adm i l e c.st :=
        hadm i l e c.st hya (hm i e rfl l (by simp [Config.label?, hci]))
      obtain ⟨hg, hn⟩ := hk i k _ hci c.st e .refl hi hy ha
      refine ⟨⟨K.guar_inv hi hg, fun j k' p hj => ?_⟩, fun j hj => ?_⟩
      · by_cases e' : j = i
        · subst e'
          rw [List.getElem?_set_self hlt] at hj
          cases hj
          exact hn
        · rw [List.getElem?_set_ne (Ne.symm e')] at hj
          -- For the other calls the statement is one step of their rely.
          exact (hk j k' p hj).rely (.single ⟨hi, i, l, e, Ne.symm e', hg⟩)
      · rw [List.length_set] at hj
        exact hpre j _ _ i l e hi (hnew j hj) (Nat.ne_of_lt (Nat.lt_of_lt_of_le hlt hj)) hg

theorem keepsFrom_step {sys : System L E S X C A} {pre : Nat → S → Prop}
    {post : Nat → C → Except X A → S → Prop} {cond : Nat → L → E → S → Prop}
    (hpre : ∀ i, K.Stable i (pre i)) (hbody : ∀ i k, K.Triple i (pre i) (sys.body k) (post i k))
    (hadm : ∀ i l e s, sys.adm i l e s = true → cond i l e s → K.adm i l e s)
    {c d : Config L E S X C A} {m : Move E C} (hc : KeepsFrom K pre post c) (hm : c.Meets cond m)
    (h : sys.step c m = some d) : KeepsFrom K pre post d :=
  keepsFrom_step_of hpre (fun k _ => hbody c.calls.length k) hadm hc hm h

/-- Soundness for calls that rely on what they find when they come in. -/
theorem soundFrom {sys : System L E S X C A} {pre : Nat → S → Prop}
    {post : Nat → C → Except X A → S → Prop} {cond : Nat → L → E → S → Prop}
    (hpre : ∀ i, K.Stable i (pre i)) (hbody : ∀ i k, K.Triple i (pre i) (sys.body k) (post i k))
    (hadm : ∀ i l e s, sys.adm i l e s = true → cond i l e s → K.adm i l e s)
    {s : S} (hs : K.inv s) (hfirst : ∀ i, pre i s) {c : Config L E S X C A}
    {ms : List (Move E C)} (hcond : sys.Along (fun d m => d.Meets cond m) (.start s) ms)
    (h : sys.exec (.start s) ms = some c) : KeepsFrom K pre post c :=
  System.exec_invariant (fun _ _ _ hc hm hd => keepsFrom_step hpre hbody hadm hc hm hd)
    (keepsFrom_start hs hfirst) hcond h

/-- Such calls keep to the contract in every state of the run. -/
theorem throughFrom {sys : System L E S X C A} {pre : Nat → S → Prop}
    {post : Nat → C → Except X A → S → Prop}
    (hpre : ∀ i, K.Stable i (pre i)) (hbody : ∀ i k, K.Triple i (pre i) (sys.body k) (post i k))
    (hadm : ∀ i l e s, sys.adm i l e s = true → K.adm i l e s)
    {s : S} (hs : K.inv s) (hfirst : ∀ i, pre i s) {ms : List (Move E C)} :
    sys.Through (fun c => KeepsFrom K pre post c) (.start s) ms :=
  System.through_invariant (P := fun c m => c.Meets (fun _ _ _ _ => True) m)
    (fun _ _ _ hc hm hd => keepsFrom_step hpre hbody (fun i l e s ha _ => hadm i l e s ha) hc hm hd)
    (keepsFrom_start hs hfirst) (System.along_of_forall fun _ _ _ _ _ _ _ => trivial)

theorem keeps_step {sys : System L E S X C A} {post : Nat → C → Except X A → S → Prop}
    {cond : Nat → L → E → S → Prop}
    (hbody : ∀ i k, K.Triple i (fun _ => True) (sys.body k) (post i k))
    (hadm : ∀ i l e s, sys.adm i l e s = true → cond i l e s → K.adm i l e s)
    {c d : Config L E S X C A} {m : Move E C} (hc : Keeps K post c) (hm : c.Meets cond m)
    (h : sys.step c m = some d) : Keeps K post d :=
  (keepsFrom_step (fun _ => stable_const) hbody hadm ⟨hc, fun _ _ => trivial⟩ hm h).1

/-- Soundness: if each call keeps to the contract on its own, every run whose statements all
meet `cond` does. -/
theorem sound {sys : System L E S X C A} {post : Nat → C → Except X A → S → Prop}
    {cond : Nat → L → E → S → Prop}
    (hbody : ∀ i k, K.Triple i (fun _ => True) (sys.body k) (post i k))
    (hadm : ∀ i l e s, sys.adm i l e s = true → cond i l e s → K.adm i l e s)
    {s : S} (hs : K.inv s) {c : Config L E S X C A} {ms : List (Move E C)}
    (hcond : sys.Along (fun d m => d.Meets cond m) (.start s) ms)
    (h : sys.exec (.start s) ms = some c) : Keeps K post c :=
  System.exec_invariant (fun _ _ _ hc hm hd => keeps_step hbody hadm hc hm hd) (keeps_start hs)
    hcond h

/-- Where every input that the system allows is one that the contract expects, no condition on the
run is needed. -/
theorem keeps_step_all {sys : System L E S X C A} {post : Nat → C → Except X A → S → Prop}
    (hbody : ∀ i k, K.Triple i (fun _ => True) (sys.body k) (post i k))
    (hadm : ∀ i l e s, sys.adm i l e s = true → K.adm i l e s)
    {c d : Config L E S X C A} {m : Move E C} (hc : Keeps K post c)
    (h : sys.step c m = some d) : Keeps K post d := by
  have hm : c.Meets (fun _ _ _ _ => True) m := fun _ _ _ _ _ => trivial
  exact keeps_step hbody (fun i l e s ha _ => hadm i l e s ha) hc hm h

theorem sound_all {sys : System L E S X C A} {post : Nat → C → Except X A → S → Prop}
    (hbody : ∀ i k, K.Triple i (fun _ => True) (sys.body k) (post i k))
    (hadm : ∀ i l e s, sys.adm i l e s = true → K.adm i l e s)
    {s : S} (hs : K.inv s) {c : Config L E S X C A} {ms : List (Move E C)}
    (h : sys.exec (.start s) ms = some c) : Keeps K post c :=
  System.exec_invariant (fun _ _ _ hc (_ : True) hd => keeps_step_all hbody hadm hc hd)
    (keeps_start hs) (System.along_of_forall fun _ _ => trivial) h

/-- Every statement executed is one that the contract allows. -/
theorem Keeps.guar {sys : System L E S X C A} {post : Nat → C → Except X A → S → Prop}
    {c d : Config L E S X C A} (h : Keeps K post c) {i : Nat} {e : E}
    (hd : sys.step c (.exec i e) = some d) {l : L} (hl : c.label? i = some l)
    (ha : K.adm i l e c.st) : K.guar i l e c.st d.st := by
  obtain ⟨k, l', ready, eff, next, hci, hy, -, rfl⟩ := System.step_exec hd
  obtain rfl : l' = l := by simpa [Config.label?, hci] using hl
  exact (h.2 i k _ hci c.st e .refl h.1 hy ha).1

/-- The statement that a move executes has a label, and gets an input it can receive. -/
theorem label_of_step {sys : System L E S X C A} {c d : Config L E S X C A} {i : Nat} {e : E}
    (hd : sys.step c (.exec i e) = some d) :
    ∃ l, c.label? i = some l ∧ sys.adm i l e c.st = true := by
  obtain ⟨k, l, ready, eff, next, hci, -, hy, -⟩ := System.step_exec hd
  exact ⟨l, by simp [Config.label?, hci], hy⟩

/-- Every statement executed that meets `cond` is one that the contract allows. -/
theorem Keeps.guar_of_meets {sys : System L E S X C A} {post : Nat → C → Except X A → S → Prop}
    {cond : Nat → L → E → S → Prop} {c d : Config L E S X C A} (h : Keeps K post c)
    (hadm : ∀ i l e s, sys.adm i l e s = true → cond i l e s → K.adm i l e s)
    {i : Nat} {e : E} (hm : c.Meets cond (.exec i e))
    (hd : sys.step c (.exec i e) = some d) {l : L} (hl : c.label? i = some l) :
    K.guar i l e c.st d.st := by
  obtain ⟨l', hl', hy⟩ := label_of_step hd
  cases hl.symm.trans hl'
  exact h.guar hd hl (hadm i l e c.st hy (hm i e rfl l hl))

section Invariant

variable {sys : System L E S X C A} {post : Nat → C → Except X A → S → Prop}
  {cond : Nat → L → E → S → Prop} {P : S → Prop} {R : Nat → L → E → S → S → Prop}
  (hbody : ∀ i k, K.Triple i (fun _ => True) (sys.body k) (post i k))
  (hadm : ∀ i l e s, sys.adm i l e s = true → cond i l e s → K.adm i l e s)
  (hstep : ∀ i l e s s', K.inv s → K.adm i l e s → cond i l e s → P s → K.guar i l e s s' →
    P s' ∧ R i l e s s')
include hbody hadm hstep

/-- A fact that every action of the contract keeps is kept by a move that meets `cond`, which does
what the actions do from where the fact holds. -/
theorem invariant_step {c d : Config L E S X C A} {m : Move E C} (hc : Keeps K post c ∧ P c.st)
    (hm : c.Meets cond m) (hd : sys.step c m = some d) :
    (Keeps K post d ∧ P d.st) ∧ c.Meets (fun i l e s => R i l e s d.st) m := by
  have hkeep := keeps_step hbody hadm hc.1 hm hd
  cases m with
  | call k =>
      obtain rfl := System.step_call hd
      exact ⟨⟨hkeep, hc.2⟩, fun _ _ he => by cases he⟩
  | exec i e =>
      obtain ⟨l, hl, ha⟩ := label_of_step hd
      have hmeets := hm i e rfl l hl
      have had := hadm i l e c.st ha hmeets
      obtain ⟨hPd, hR⟩ := hstep i l e c.st d.st hc.1.1 had hmeets hc.2 (hc.1.guar hd hl had)
      refine ⟨⟨hkeep, hPd⟩, fun i' e' he l' hl' => ?_⟩
      cases he
      cases hl.symm.trans hl'
      exact hR

/-- A fact that every action of the contract keeps holds at the end of a run whose statements all
meet `cond`, and every statement of the run does what the actions do from where the fact holds. -/
theorem invariant {s : S} (hs : K.inv s) (hP : P s) {c : Config L E S X C A}
    {ms : List (Move E C)} (hcond : sys.Along (fun d m => d.Meets cond m) (.start s) ms)
    (h : sys.exec (.start s) ms = some c) :
    P c.st ∧ sys.Along (fun d m => ∀ d', sys.step d m = some d' →
      d.Meets (fun i l e s => R i l e s d'.st) m) (.start s) ms := by
  refine ⟨(System.exec_invariant (I := fun c => Keeps K post c ∧ P c.st)
    (fun c m d hc hm hd => (invariant_step hbody hadm hstep hc hm hd).1)
    ⟨keeps_start hs, hP⟩ hcond h).2, ?_⟩
  refine hcond.of_invariant (I := fun c => Keeps K post c ∧ P c.st)
    (fun c m d hc hm hd => (invariant_step hbody hadm hstep hc hm hd).1)
    (fun c m d hc hm hd d' hd' => ?_) ⟨keeps_start hs, hP⟩ h
  obtain rfl := Option.some.inj (hd.symm.trans hd')
  exact (invariant_step hbody hadm hstep hc hm hd).2

/-- Such a fact holds in every state of the run. -/
theorem throughInvariant {s : S} (hs : K.inv s) (hP : P s) {ms : List (Move E C)}
    (hcond : sys.Along (fun d m => d.Meets cond m) (.start s) ms) :
    sys.Through (fun d => P d.st) (.start s) ms :=
  (System.through_invariant (I := fun c => Keeps K post c ∧ P c.st)
    (fun _ _ _ hc hm hd => (invariant_step hbody hadm hstep hc hm hd).1)
    ⟨keeps_start hs, hP⟩ hcond).mono fun _ hd => hd.2

end Invariant

/-- Every step of a run takes a call or is an action of the contract. -/
theorem along_guar {sys : System L E S X C A} {post : Nat → C → Except X A → S → Prop}
    (hbody : ∀ i k, K.Triple i (fun _ => True) (sys.body k) (post i k))
    (hadm : ∀ i l e s, sys.adm i l e s = true → K.adm i l e s)
    {s : S} (hs : K.inv s) {c : Config L E S X C A} {ms : List (Move E C)}
    (h : sys.exec (.start s) ms = some c) :
    sys.Along (fun d m => ∀ d', sys.step d m = some d' →
      (∃ k, m = .call k) ∧ d'.st = d.st ∨
        ∃ i e l, m = .exec i e ∧ K.guar i l e d.st d'.st) (.start s) ms := by
  refine (System.along_of_forall (P := fun _ _ => True) fun _ _ => trivial).of_invariant
    (fun _ _ _ hc _ hd => keeps_step_all hbody hadm hc hd) (fun c m d hc _ hd d' hd' => ?_)
    (keeps_start hs) h
  cases m with
  | call k =>
      obtain rfl := System.step_call hd'
      exact .inl ⟨⟨k, rfl⟩, rfl⟩
  | exec i e =>
      obtain ⟨l, hl, ha⟩ := label_of_step hd'
      exact .inr ⟨i, e, l, rfl, hc.guar hd' hl (hadm i l e c.st ha)⟩

/-- What every action of the contract does to the state, and doing nothing, every step of a run
does. -/
theorem along_rel {sys : System L E S X C A} {post : Nat → C → Except X A → S → Prop}
    {R : S → S → Prop} (hbody : ∀ i k, K.Triple i (fun _ => True) (sys.body k) (post i k))
    (hadm : ∀ i l e s, sys.adm i l e s = true → K.adm i l e s) (hrefl : ∀ s, R s s)
    (hstep : ∀ i l e s s', K.guar i l e s s' → R s s')
    {s : S} (hs : K.inv s) {c : Config L E S X C A} {ms : List (Move E C)}
    (h : sys.exec (.start s) ms = some c) :
    sys.Along (fun d m => ∀ d', sys.step d m = some d' → R d.st d'.st) (.start s) ms := by
  refine (along_guar hbody hadm hs h).mono fun d m hd d' hd' => ?_
  rcases hd d' hd' with ⟨-, he⟩ | ⟨i, e, l, -, hg⟩
  · rw [he]
    exact hrefl _
  · exact hstep i l e d.st d'.st hg

/-- If `cond` decides, for every action of the contract, whether it keeps `P`, then a run keeps
`P` throughout exactly when all its statements meet `cond`. -/
theorem through_iff_along {sys : System L E S X C A} {post : Nat → C → Except X A → S → Prop}
    {cond : Nat → L → E → S → Prop} {P : S → Prop}
    (hbody : ∀ i k, K.Triple i (fun _ => True) (sys.body k) (post i k))
    (hadm : ∀ i l e s, sys.adm i l e s = true → K.adm i l e s)
    (hstep : ∀ i l e s s', K.inv s → K.adm i l e s → P s → K.guar i l e s s' →
      (P s' ↔ cond i l e s))
    {s : S} (hs : K.inv s) (hP : P s) {c : Config L E S X C A} {ms : List (Move E C)}
    (h : sys.exec (.start s) ms = some c) :
    sys.Through (fun d => P d.st) (.start s) ms ↔
      sys.Along (fun d m => d.Meets cond m) (.start s) ms := by
  refine System.through_iff_along (fun _ _ _ hc hd => keeps_step_all hbody hadm hc hd)
    (fun c m d hc hPc hd => ?_) (keeps_start hs) hP h
  cases m with
  | call k =>
      obtain rfl := System.step_call hd
      refine ⟨fun _ i e he => ?_, fun _ => hPc⟩
      cases he
  | exec i e =>
      obtain ⟨l, hl, ha⟩ := label_of_step hd
      have hg := hc.guar hd hl (hadm i l e c.st ha)
      rw [hstep i l e c.st d.st hc.1 (hadm i l e c.st ha) hPc hg]
      refine ⟨?_, fun hm => hm i e rfl l hl⟩
      rintro hcond i' e' he l' hl'
      cases he
      cases hl.symm.trans hl'
      exact hcond

theorem Keeps.result {post : Nat → C → Except X A → S → Prop} {c : Config L E S X C A}
    (h : Keeps K post c) {i : Nat} {k : C} {r : Except X A}
    (hi : c.calls[i]? = some (k, .done r)) : post i k r c.st :=
  h.2 i k _ hi c.st .refl h.1

/-- What a call that comes in after the configuration `c` ends in, when it can rely on a lasting
fact that holds in `c`. -/
theorem Keeps.later {sys : System L E S X C A} {post post' : Nat → C → Except X A → S → Prop}
    {F : S → Prop} {c d : Config L E S X C A} {ms : List (Move E C)} (hc : Keeps K post c)
    (hF : K.Lasting F) (hbody : ∀ i k, K.Triple i F (sys.body k) (post' i k))
    (hadm : ∀ i l e s, sys.adm i l e s = true → K.adm i l e s) (hcF : F c.st)
    (h : sys.exec c ms = some d) {i : Nat} {k : C} {r : Except X A} (hlate : c.calls.length ≤ i)
    (hi : d.calls[i]? = some (k, .done r)) : post' i k r d.st := by
  have hstart : KeepsFrom K (fun i s => c.calls.length ≤ i ∧ F s)
      (fun i k r s => c.calls.length ≤ i → post' i k r s) c := by
    refine ⟨⟨hc.1, fun i k p hk => (hc.2 i k p hk).conseq fun r s _ _ hle => ?_⟩,
      fun i hle => ⟨hle, hcF⟩⟩
    -- The calls of `c` itself are not late.
    exact absurd (List.getElem?_eq_some_iff.mp hk).1 (Nat.not_lt.mpr hle)
  have hlater : ∀ i k, K.Triple i (fun s => c.calls.length ≤ i ∧ F s) (sys.body k)
      fun r s => c.calls.length ≤ i → post' i k r s :=
    fun i k => Triple.of_fact fun _ => (hbody i k).post fun r s _ hq _ => hq
  have hend := System.exec_invariant (P := fun c m => c.Meets (fun _ _ _ _ => True) m)
    (fun _ _ _ hc' hm hd => keepsFrom_step (fun i => stable_const.and (hF.stable i)) hlater
      (fun i l e s ha _ => hadm i l e s ha) hc' hm hd)
    hstart (System.along_of_forall fun _ _ _ _ _ _ _ => trivial) h
  exact hend.1.2 i k _ hi d.st .refl hend.1.1 hlate

/-- A lasting fact that holds in `c` holds in whatever follows. -/
theorem Keeps.lasting {sys : System L E S X C A} {post : Nat → C → Except X A → S → Prop}
    {F : S → Prop} {c d : Config L E S X C A} {ms : List (Move E C)} (hc : Keeps K post c)
    (hF : K.Lasting F) (hbody : ∀ i k, K.Triple i (fun _ => True) (sys.body k) (post i k))
    (hadm : ∀ i l e s, sys.adm i l e s = true → K.adm i l e s) (hcF : F c.st)
    (h : sys.exec c ms = some d) : F d.st :=
  (System.exec_invariant (I := fun c => Keeps K post c ∧ F c.st)
    (fun _ _ _ hc' hm hd => (invariant_step (P := F) (R := fun _ _ _ _ _ => True) hbody
      (fun i l e s ha _ => hadm i l e s ha)
      (fun i l e s s' hi _ _ hs hg => ⟨hF i l e s s' hi hs hg, trivial⟩) hc' hm hd).1)
    ⟨hc, hcF⟩ (System.along_of_forall (P := fun c m => c.Meets (fun _ _ _ _ => True) m)
      fun _ _ _ _ _ _ _ => trivial) h).2

-- The rules are the interface from here on: unfolding `Sat` would run the program.
attribute [irreducible] Sat

end Contract

end Interleave
