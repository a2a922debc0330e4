import Fluxa.Interleave.System

/-!
# Interleave — processes that die

A run in which calls may die: a call whose process has died makes no further move, and leaves the state as its last statement left it.  Nobody can tell such a call from one that is slow, so without the deaths the run is a run of the system (**`System.exec_of_execMortal`**); they are recorded for conditions that speak of the calls still alive.
-/

namespace Interleave

variable {L E S X C A : Type}

/-- A configuration, and the numbers of the calls that have died. -/
structure Mortal (L E S X C A : Type) where
  config : Config L E S X C A
  dead : List Nat

/-- A move of the system, or a death. -/
inductive Fate (E C : Type) where
  | move (m : Move E C)
  | die (i : Nat)

/-- The call that makes the move. -/
def Move.mover? : Move E C → Option Nat
  | .call _ => none
  | .exec i _ => some i

namespace Mortal

/-- Nobody has come in or died yet. -/
def start (s : S) : Mortal L E S X C A := ⟨.start s, []⟩

end Mortal

namespace System

variable (sys : System L E S X C A)

/-- The configuration after a move, which no dead call makes, or a death. -/
def stepMortal (c : Mortal L E S X C A) : Fate E C → Option (Mortal L E S X C A)
  | .die i => some { c with dead := i :: c.dead }
  | .move m =>
    if m.mover?.any (c.dead.contains ·) then none
    else (sys.step c.config m).map fun d => { c with config := d }

/-- The configuration after a run; none when some move of it cannot be made. -/
def execMortal (c : Mortal L E S X C A) : List (Fate E C) → Option (Mortal L E S X C A)
  | [] => some c
  | m :: ms => (sys.stepMortal c m).bind fun d => execMortal d ms

/-- The condition `P` holds of every configuration that the run passes through. -/
def ThroughMortal (P : Mortal L E S X C A → Prop) :
    Mortal L E S X C A → List (Fate E C) → Prop
  | c, [] => P c
  | c, m :: ms => P c ∧ ∀ d, sys.stepMortal c m = some d → ThroughMortal P d ms

/-- The condition `P` on a configuration and what happens there holds all along the run. -/
def AlongMortal (P : Mortal L E S X C A → Fate E C → Prop) :
    Mortal L E S X C A → List (Fate E C) → Prop
  | _, [] => True
  | c, m :: ms => P c m ∧ ∀ d, sys.stepMortal c m = some d → AlongMortal P d ms

instance ThroughMortal.decidable {P : Mortal L E S X C A → Prop} [DecidablePred P] :
    ∀ (c : Mortal L E S X C A) (ms : List (Fate E C)), Decidable (sys.ThroughMortal P c ms)
  | c, [] => inferInstanceAs (Decidable (P c))
  | c, m :: ms =>
    match h : sys.stepMortal c m with
    | none => decidable_of_iff (P c) (by simp [ThroughMortal, h])
    | some d =>
      have := ThroughMortal.decidable (P := P) d ms
      decidable_of_iff (P c ∧ sys.ThroughMortal P d ms) (by simp [ThroughMortal, h])

variable {sys}

/-- Inversion of a move: the mover is alive. -/
theorem stepMortal_move {c d : Mortal L E S X C A} {m : Move E C}
    (h : sys.stepMortal c (.move m) = some d) :
    (∀ i, m.mover? = some i → i ∉ c.dead) ∧ d.dead = c.dead ∧
      sys.step c.config m = some d.config := by
  simp only [stepMortal] at h
  split at h
  · cases h
  · rename_i halive
    obtain ⟨d', hd, rfl⟩ := Option.map_eq_some_iff.mp h
    refine ⟨fun i hi => ?_, rfl, hd⟩
    simpa [hi] using halive

theorem execMortal_cons {c d : Mortal L E S X C A} {m : Fate E C} {ms : List (Fate E C)}
    (h : sys.execMortal c (m :: ms) = some d) :
    ∃ c₁, sys.stepMortal c m = some c₁ ∧ sys.execMortal c₁ ms = some d := by
  simpa only [execMortal, Option.bind_eq_some_iff] using h

theorem ThroughMortal.last {P : Mortal L E S X C A → Prop} {c d : Mortal L E S X C A}
    {ms : List (Fate E C)} (hP : sys.ThroughMortal P c ms) (h : sys.execMortal c ms = some d) :
    P d := by
  induction ms generalizing c with
  | nil => exact Option.some.inj h ▸ hP
  | cons m ms ih =>
      obtain ⟨c₁, h₁, h₂⟩ := execMortal_cons h
      exact ih (hP.2 c₁ h₁) h₂

/-- An invariant of the steps that meet `P` holds throughout the runs that do. -/
theorem throughMortal_invariant {P : Mortal L E S X C A → Fate E C → Prop}
    {I : Mortal L E S X C A → Prop}
    (hstep : ∀ c m d, I c → P c m → sys.stepMortal c m = some d → I d)
    {c : Mortal L E S X C A} {ms : List (Fate E C)} (hc : I c) (hP : sys.AlongMortal P c ms) :
    sys.ThroughMortal I c ms := by
  induction ms generalizing c with
  | nil => exact hc
  | cons m ms ih => exact ⟨hc, fun d hd => ih (hstep c m d hc hP.1 hd) (hP.2 d hd)⟩

theorem ThroughMortal.mono {P Q : Mortal L E S X C A → Prop} (hPQ : ∀ c, P c → Q c)
    {c : Mortal L E S X C A} {ms : List (Fate E C)} (h : sys.ThroughMortal P c ms) :
    sys.ThroughMortal Q c ms := by
  induction ms generalizing c with
  | nil => exact hPQ c h
  | cons m ms ih => exact ⟨hPQ c h.1, fun d hd => ih (h.2 d hd)⟩

theorem AlongMortal.and {P Q : Mortal L E S X C A → Fate E C → Prop} {c : Mortal L E S X C A}
    {ms : List (Fate E C)} (hP : sys.AlongMortal P c ms) (hQ : sys.AlongMortal Q c ms) :
    sys.AlongMortal (fun c m => P c m ∧ Q c m) c ms := by
  induction ms generalizing c with
  | nil => trivial
  | cons m ms ih => exact ⟨⟨hP.1, hQ.1⟩, fun d hd => ih (hP.2 d hd) (hQ.2 d hd)⟩

end System

/-- The moves of a run, without the deaths. -/
def movesOf : List (Fate E C) → List (Move E C)
  | [] => []
  | .move m :: ms => m :: movesOf ms
  | .die _ :: ms => movesOf ms

/-- Without the deaths, a run is a run of the system. -/
theorem System.exec_of_execMortal {sys : System L E S X C A} {c d : Mortal L E S X C A}
    {ms : List (Fate E C)} (h : sys.execMortal c ms = some d) :
    sys.exec c.config (movesOf ms) = some d.config := by
  induction ms generalizing c with
  | nil => exact congrArg (Option.map Mortal.config) h
  | cons m ms ih =>
      obtain ⟨c₁, h₁, h₂⟩ := execMortal_cons h
      cases m with
      | die i =>
          have hc : c₁.config = c.config := by
            obtain rfl := Option.some.inj h₁
            rfl
          simpa only [movesOf, hc] using ih h₂
      | move m =>
          have hm := (stepMortal_move h₁).2.2
          simp only [movesOf, System.exec, hm, Option.bind_some]
          exact ih h₂

/-- What holds along the run without the deaths holds of the moves of the run. -/
theorem System.alongMortal_of_along {sys : System L E S X C A}
    {P : Config L E S X C A → Move E C → Prop} {c : Mortal L E S X C A} {ms : List (Fate E C)}
    (h : sys.Along P c.config (movesOf ms)) :
    sys.AlongMortal (fun c m => ∀ m', m = .move m' → P c.config m') c ms := by
  induction ms generalizing c with
  | nil => trivial
  | cons m ms ih =>
      cases m with
      | die i =>
          refine ⟨fun m' hm => (by cases hm), fun d hd => ih ?_⟩
          obtain rfl := Option.some.inj hd
          exact h
      | move m =>
          refine ⟨fun m' hm => ?_, fun d hd => ih (h.2 d.config (stepMortal_move hd).2.2)⟩
          cases hm
          exact h.1

end Interleave
