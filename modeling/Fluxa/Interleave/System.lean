import Fluxa.Interleave.Prog

/-!
# Interleave — systems of concurrent calls

A system runs any number of calls side by side on one state.  A run is a list of moves: a new call comes in, or one of the calls under way executes its next statement with some environment input.  **`System.exec`** plays a run; it is a function, so a run on given inputs can be evaluated, and every interleaving is some list of moves.

**`System.Along`** says that a condition on the statement about to run held at every move of a run.
-/

namespace Interleave

variable {L E S X C A : Type}

/-- What runs: the program of each call, and which environment inputs the statement labelled `l`
of call number `i` can receive in a state. -/
structure System (L E S X C A : Type) where
  /-- The program a call runs. -/
  body : C → Prog L E S X A
  /-- The inputs a statement can receive. -/
  adm : Nat → L → E → S → Bool

/-- The shared state, and each call made so far with what is left of its program. -/
structure Config (L E S X C A : Type) where
  /-- The shared state. -/
  st : S
  /-- The calls, in the order in which they came in. -/
  calls : List (C × Prog L E S X A)

/-- One move of a run. -/
inductive Move (E C : Type) where
  /-- The call `c` comes in. -/
  | call (c : C)
  /-- Call number `i` executes its next statement with input `e`. -/
  | exec (i : Nat) (e : E)

namespace Config

/-- No call has come in yet. -/
def start (s : S) : Config L E S X C A := ⟨s, []⟩

/-- The label of the next statement of call `i`. -/
def label? (c : Config L E S X C A) (i : Nat) : Option L :=
  match c.calls[i]? with
  | some (_, .stmt l _ _ _) => some l
  | _ => none

/-- The result of call `i`, once it has ended. -/
def result? (c : Config L E S X C A) (i : Nat) : Option (Except X A) :=
  match c.calls[i]? with
  | some (_, .done r) => some r
  | _ => none

/-- The condition `cond` holds of the statement that the move `m` executes in `c`: of the call's
number, the label, the input and the state. -/
def Meets (c : Config L E S X C A) (cond : Nat → L → E → S → Prop) (m : Move E C) : Prop :=
  ∀ i e, m = .exec i e → ∀ l, c.label? i = some l → cond i l e c.st

end Config

instance Config.Meets.decidable {cond : Nat → L → E → S → Prop}
    [∀ i l e s, Decidable (cond i l e s)] (c : Config L E S X C A) :
    ∀ m : Move E C, Decidable (c.Meets cond m)
  | .call _ => .isTrue fun _ _ he => by cases he
  | .exec i e =>
    match h : c.label? i with
    | none => .isTrue fun i' e' he l hl => by
        cases he
        rw [h] at hl
        cases hl
    | some l =>
      decidable_of_iff (cond i l e c.st) ⟨fun hc i' e' he l' hl => by
        cases he
        rw [h] at hl
        cases hl
        exact hc, fun hm => hm i e rfl l h⟩

namespace System

variable (sys : System L E S X C A)

/-- The configuration after a move; none when the move cannot be made. -/
def step (c : Config L E S X C A) : Move E C → Option (Config L E S X C A)
  | .call k => some { c with calls := c.calls ++ [(k, sys.body k)] }
  | .exec i e =>
    match c.calls[i]? with
    | some (k, .stmt l ready eff next) =>
      if ready c.st && sys.adm i l e c.st then
        some ⟨eff e c.st, c.calls.set i (k, next e c.st)⟩
      else none
    | _ => none

/-- The configuration after a run; none when some move of it cannot be made. -/
def exec (c : Config L E S X C A) : List (Move E C) → Option (Config L E S X C A)
  | [] => some c
  | m :: ms => (sys.step c m).bind fun d => exec d ms

/-- The condition `P` on a configuration and the move made there holds at every move of the
run `ms`. -/
def Along (P : Config L E S X C A → Move E C → Prop) :
    Config L E S X C A → List (Move E C) → Prop
  | _, [] => True
  | c, m :: ms => P c m ∧ ∀ d, sys.step c m = some d → Along P d ms

/-- The condition `P` holds of every configuration that the run `ms` passes through, the first
and the last included. -/
def Through (P : Config L E S X C A → Prop) :
    Config L E S X C A → List (Move E C) → Prop
  | c, [] => P c
  | c, m :: ms => P c ∧ ∀ d, sys.step c m = some d → Through P d ms

instance Along.decidable {P : Config L E S X C A → Move E C → Prop}
    [∀ c m, Decidable (P c m)] :
    ∀ (c : Config L E S X C A) (ms : List (Move E C)), Decidable (sys.Along P c ms)
  | _, [] => .isTrue trivial
  | c, m :: ms =>
    match h : sys.step c m with
    | none => decidable_of_iff (P c m) (by simp [Along, h])
    | some d =>
      have := Along.decidable (P := P) d ms
      decidable_of_iff (P c m ∧ sys.Along P d ms) (by simp [Along, h])

variable {sys}

/-- Inversion of an executed statement. -/
theorem step_exec {c d : Config L E S X C A} {i : Nat} {e : E}
    (h : sys.step c (.exec i e) = some d) :
    ∃ k l ready eff next, c.calls[i]? = some (k, .stmt l ready eff next) ∧
      ready c.st = true ∧ sys.adm i l e c.st = true ∧
      d = ⟨eff e c.st, c.calls.set i (k, next e c.st)⟩ := by
  simp only [step] at h
  split at h
  · rename_i k l ready eff next hc
    split at h
    · rename_i hr
      rw [Bool.and_eq_true] at hr
      exact ⟨k, l, ready, eff, next, hc, hr.1, hr.2, (Option.some.inj h).symm⟩
    · cases h
  · cases h

/-- Inversion of an incoming call. -/
theorem step_call {c d : Config L E S X C A} {k : C} (h : sys.step c (.call k) = some d) :
    d = { c with calls := c.calls ++ [(k, sys.body k)] } := by
  simp only [step, Option.some.injEq] at h
  exact h.symm

theorem exec_cons {c d : Config L E S X C A} {m : Move E C} {ms : List (Move E C)}
    (h : sys.exec c (m :: ms) = some d) :
    ∃ c₁, sys.step c m = some c₁ ∧ sys.exec c₁ ms = some d := by
  simpa only [exec, Option.bind_eq_some_iff] using h

theorem exec_append {c : Config L E S X C A} {ms ns : List (Move E C)} :
    sys.exec c (ms ++ ns) = (sys.exec c ms).bind fun d => sys.exec d ns := by
  induction ms generalizing c with
  | nil => rfl
  | cons m ms ih =>
      simp only [List.cons_append, exec, Option.bind_assoc]
      congr 1
      funext d
      exact ih

theorem Along.mono {P Q : Config L E S X C A → Move E C → Prop} (hPQ : ∀ c m, P c m → Q c m)
    {c : Config L E S X C A} {ms : List (Move E C)} (h : sys.Along P c ms) :
    sys.Along Q c ms := by
  induction ms generalizing c with
  | nil => trivial
  | cons m ms ih => exact ⟨hPQ c m h.1, fun d hd => ih (h.2 d hd)⟩

theorem along_of_forall {P : Config L E S X C A → Move E C → Prop} (hP : ∀ c m, P c m)
    {c : Config L E S X C A} {ms : List (Move E C)} : sys.Along P c ms := by
  induction ms generalizing c with
  | nil => trivial
  | cons m ms ih => exact ⟨hP c m, fun d _ => ih⟩

theorem Along.and {P Q : Config L E S X C A → Move E C → Prop} {c : Config L E S X C A}
    {ms : List (Move E C)} (hP : sys.Along P c ms) (hQ : sys.Along Q c ms) :
    sys.Along (fun c m => P c m ∧ Q c m) c ms := by
  induction ms generalizing c with
  | nil => trivial
  | cons m ms ih => exact ⟨⟨hP.1, hQ.1⟩, fun d hd => ih (hP.2 d hd) (hQ.2 d hd)⟩

theorem Through.head {P : Config L E S X C A → Prop} {c : Config L E S X C A}
    {ms : List (Move E C)} (h : sys.Through P c ms) : P c := by
  cases ms with
  | nil => exact h
  | cons m ms => exact h.1

/-- What holds throughout a run holds at its end. -/
theorem Through.last {P : Config L E S X C A → Prop} {c d : Config L E S X C A}
    {ms : List (Move E C)} (h : sys.Through P c ms) (hd : sys.exec c ms = some d) : P d := by
  induction ms generalizing c with
  | nil => exact Option.some.inj hd ▸ h
  | cons m ms ih =>
      obtain ⟨c₁, h₁, h₂⟩ := exec_cons hd
      exact ih (h.2 c₁ h₁) h₂

/-- What holds along a run holds of its last move. -/
theorem Along.last {P : Config L E S X C A → Move E C → Prop} {c d : Config L E S X C A}
    {ms : List (Move E C)} {m : Move E C} (h : sys.Along P c (ms ++ [m]))
    (hd : sys.exec c ms = some d) : P d m := by
  induction ms generalizing c with
  | nil => exact Option.some.inj hd ▸ h.1
  | cons m' ms ih =>
      obtain ⟨c₁, h₁, h₂⟩ := exec_cons hd
      exact ih (h.2 c₁ h₁) h₂

/-- What holds along a run holds along its beginning. -/
theorem Along.init {P : Config L E S X C A → Move E C → Prop} {c : Config L E S X C A}
    {ms ns : List (Move E C)} (h : sys.Along P c (ms ++ ns)) : sys.Along P c ms := by
  induction ms generalizing c with
  | nil => trivial
  | cons m ms ih => exact ⟨h.1, fun d hd => ih (h.2 d hd)⟩

/-- What holds along a run holds along its parts. -/
theorem Along.append {P : Config L E S X C A → Move E C → Prop} {c d : Config L E S X C A}
    {ms ns : List (Move E C)} (h : sys.Along P c (ms ++ ns)) (hd : sys.exec c ms = some d) :
    sys.Along P c ms ∧ sys.Along P d ns := by
  induction ms generalizing c with
  | nil => exact ⟨trivial, Option.some.inj hd ▸ h⟩
  | cons m ms ih =>
      obtain ⟨c₁, h₁, h₂⟩ := exec_cons hd
      obtain ⟨hms, hns⟩ := ih (h.2 c₁ h₁) h₂
      refine ⟨⟨h.1, fun c₂ hc₂ => ?_⟩, hns⟩
      obtain rfl := Option.some.inj (h₁.symm.trans hc₂)
      exact hms

/-- An invariant of single moves holds along whole runs. -/
theorem exec_invariant {P : Config L E S X C A → Move E C → Prop}
    {I : Config L E S X C A → Prop}
    (hstep : ∀ c m d, I c → P c m → sys.step c m = some d → I d)
    {c d : Config L E S X C A} {ms : List (Move E C)} (hc : I c) (hP : sys.Along P c ms)
    (h : sys.exec c ms = some d) : I d := by
  induction ms generalizing c with
  | nil => exact Option.some.inj h ▸ hc
  | cons m ms ih =>
      obtain ⟨c₁, h₁, h₂⟩ := exec_cons h
      exact ih (hstep c m c₁ hc hP.1 h₁) (hP.2 c₁ h₁) h₂

/-- An invariant of single moves holds throughout. -/
theorem through_invariant {P : Config L E S X C A → Move E C → Prop}
    {I : Config L E S X C A → Prop}
    (hstep : ∀ c m d, I c → P c m → sys.step c m = some d → I d)
    {c : Config L E S X C A} {ms : List (Move E C)} (hc : I c) (hP : sys.Along P c ms) :
    sys.Through I c ms := by
  induction ms generalizing c with
  | nil => exact hc
  | cons m ms ih => exact ⟨hc, fun d hd => ih (hstep c m d hc hP.1 hd) (hP.2 d hd)⟩

/-- An invariant of the configuration and of the moves still to come. -/
theorem exec_remaining {I : List (Move E C) → Config L E S X C A → Prop}
    (hstep : ∀ m ms c d, I (m :: ms) c → sys.step c m = some d → I ms d)
    {c d : Config L E S X C A} {ms : List (Move E C)} (hc : I ms c)
    (h : sys.exec c ms = some d) : I [] d := by
  induction ms generalizing c with
  | nil => exact Option.some.inj h ▸ hc
  | cons m ms ih =>
      obtain ⟨c₁, h₁, h₂⟩ := exec_cons h
      exact ih (hstep m ms c c₁ hc h₁) h₂

/-- What an invariant of the configuration and of the moves still to come says of each move holds
along the run. -/
theorem along_remaining {P : Config L E S X C A → Move E C → Prop}
    {I : List (Move E C) → Config L E S X C A → Prop}
    (hstep : ∀ m ms c d, I (m :: ms) c → sys.step c m = some d → I ms d)
    (hP : ∀ m ms c, I (m :: ms) c → P c m) {c : Config L E S X C A} {ms : List (Move E C)}
    (hc : I ms c) : sys.Along P c ms := by
  induction ms generalizing c with
  | nil => trivial
  | cons m ms ih => exact ⟨hP m ms c hc, fun d hd => ih (hstep m ms c d hc hd)⟩

theorem Through.mono {P Q : Config L E S X C A → Prop} (hPQ : ∀ c, P c → Q c)
    {c : Config L E S X C A} {ms : List (Move E C)} (h : sys.Through P c ms) :
    sys.Through Q c ms := by
  induction ms generalizing c with
  | nil => exact hPQ c h
  | cons m ms ih => exact ⟨hPQ c h.1, fun d hd => ih (h.2 d hd)⟩

/-- Where an invariant of the moves that meet `P` makes them meet `Q`, a run whose moves meet `P`
is one whose moves meet `Q`. -/
theorem Along.of_invariant {P Q : Config L E S X C A → Move E C → Prop}
    {I : Config L E S X C A → Prop}
    (hstep : ∀ c m d, I c → P c m → sys.step c m = some d → I d)
    (hQ : ∀ c m d, I c → P c m → sys.step c m = some d → Q c m)
    {c d : Config L E S X C A} {ms : List (Move E C)} (hP : sys.Along P c ms) (hc : I c)
    (h : sys.exec c ms = some d) : sys.Along Q c ms := by
  induction ms generalizing c with
  | nil => trivial
  | cons m ms ih =>
      obtain ⟨c₁, h₁, h₂⟩ := exec_cons h
      refine ⟨hQ c m c₁ hc hP.1 h₁, fun c₂ hc₂ => ?_⟩
      obtain rfl := Option.some.inj (h₁.symm.trans hc₂)
      exact ih (hP.2 c₁ h₁) (hstep c m c₁ hc hP.1 h₁) h₂

/-- Where a move of the run keeps `P` exactly when it meets `Q`, the run keeps `P` throughout exactly
when all its moves meet `Q`. -/
theorem Along.through_iff {P : Config L E S X C A → Prop}
    {Q R : Config L E S X C A → Move E C → Prop}
    (hstep : ∀ c m d, R c m → P c → sys.step c m = some d → (P d ↔ Q c m))
    {c d : Config L E S X C A} {ms : List (Move E C)} (hR : sys.Along R c ms) (hP : P c)
    (h : sys.exec c ms = some d) : sys.Through P c ms ↔ sys.Along Q c ms := by
  induction ms generalizing c with
  | nil => exact ⟨fun _ => trivial, fun _ => hP⟩
  | cons m ms ih =>
      obtain ⟨c₁, h₁, hrest⟩ := exec_cons h
      have hiff := hstep c m c₁ hR.1 hP h₁
      refine ⟨fun ⟨_, ht⟩ => ?_, fun ⟨hm, hal⟩ => ?_⟩
      · have hP₁ := (ht c₁ h₁).head
        refine ⟨hiff.mp hP₁, fun c₂ h₂ => ?_⟩
        obtain rfl := Option.some.inj (h₁.symm.trans h₂)
        exact (ih (hR.2 c₁ h₁) hP₁ hrest).mp (ht c₁ h₁)
      · have hP₁ := hiff.mpr hm
        refine ⟨hP, fun c₂ h₂ => ?_⟩
        obtain rfl := Option.some.inj (h₁.symm.trans h₂)
        exact (ih (hR.2 c₁ h₁) hP₁ hrest).mpr (hal c₁ h₁)

/-- The same where an invariant says what the moves do. -/
theorem through_iff_along {P : Config L E S X C A → Prop}
    {Q : Config L E S X C A → Move E C → Prop} {I : Config L E S X C A → Prop}
    (hI : ∀ c m d, I c → sys.step c m = some d → I d)
    (hstep : ∀ c m d, I c → P c → sys.step c m = some d → (P d ↔ Q c m))
    {c d : Config L E S X C A} {ms : List (Move E C)} (hc : I c) (hP : P c)
    (h : sys.exec c ms = some d) : sys.Through P c ms ↔ sys.Along Q c ms := by
  have hinv : sys.Along (fun c _ => I c) c ms :=
    (along_of_forall (P := fun _ _ => True) fun _ _ => trivial).of_invariant
      (fun c m d hi _ hd => hI c m d hi hd) (fun _ _ _ hi _ _ => hi) hc h
  exact hinv.through_iff hstep hP h

end System

end Interleave
