import Fluxa.Interleave.System

/-!
# Interleave — monitors

A monitor takes notes during a run: `note` says what it notes of a move that is about to be made.  **`System.Watched`** says that a condition on the notes so far, the configuration and the move held at every move of a run.  What the notes say of a run is not part of its state, and no call can read them.
-/

namespace Interleave

variable {L E S X C A G : Type}

namespace System

variable (sys : System L E S X C A) (note : Config L E S X C A → Move E C → G → G)

/-- The condition `P` on the notes, the configuration and the move made there holds at every move
of the run `ms`. -/
def Watched (P : G → Config L E S X C A → Move E C → Prop) :
    G → Config L E S X C A → List (Move E C) → Prop
  | _, _, [] => True
  | g, c, m :: ms => P g c m ∧ ∀ d, sys.step c m = some d → Watched P (note c m g) d ms

/-- The notes at the end of the run `ms`. -/
def notes : G → Config L E S X C A → List (Move E C) → G
  | g, _, [] => g
  | g, c, m :: ms => (sys.step c m).elim g fun d => notes (note c m g) d ms

instance Watched.decidable {P : G → Config L E S X C A → Move E C → Prop}
    [∀ g c m, Decidable (P g c m)] :
    ∀ (g : G) (c : Config L E S X C A) (ms : List (Move E C)),
      Decidable (sys.Watched note P g c ms)
  | _, _, [] => .isTrue trivial
  | g, c, m :: ms =>
    match h : sys.step c m with
    | none => decidable_of_iff (P g c m) (by simp [Watched, h])
    | some d =>
      have := Watched.decidable (P := P) (note c m g) d ms
      decidable_of_iff (P g c m ∧ sys.Watched note P (note c m g) d ms) (by simp [Watched, h])

variable {sys note}

/-- Where an invariant of the moves that meet `P` makes them meet `Q`, a run whose moves meet `P`
is one whose moves meet `Q`. -/
theorem Watched.of_invariant {P Q : G → Config L E S X C A → Move E C → Prop}
    {I : G → Config L E S X C A → Prop}
    (hstep : ∀ g c m d, I g c → P g c m → sys.step c m = some d → I (note c m g) d)
    (hQ : ∀ g c m d, I g c → P g c m → sys.step c m = some d → Q g c m)
    {g : G} {c d : Config L E S X C A} {ms : List (Move E C)} (hP : sys.Watched note P g c ms)
    (hc : I g c) (h : sys.exec c ms = some d) : sys.Watched note Q g c ms := by
  induction ms generalizing g c with
  | nil => trivial
  | cons m ms ih =>
      obtain ⟨c₁, h₁, h₂⟩ := exec_cons h
      refine ⟨hQ g c m c₁ hc hP.1 h₁, fun c₂ hc₂ => ?_⟩
      obtain rfl := Option.some.inj (h₁.symm.trans hc₂)
      exact ih (hP.2 c₁ h₁) (hstep g c m c₁ hc hP.1 h₁) h₂

/-- An invariant of the notes and the configuration, kept by the moves that meet `P`, holds
throughout a run whose moves meet `P`. -/
theorem Watched.through {P : G → Config L E S X C A → Move E C → Prop}
    {I : G → Config L E S X C A → Prop}
    (hstep : ∀ g c m d, I g c → P g c m → sys.step c m = some d → I (note c m g) d)
    {g : G} {c : Config L E S X C A} {ms : List (Move E C)} (hP : sys.Watched note P g c ms)
    (hc : I g c) : sys.Through (fun c => ∃ g, I g c) c ms := by
  induction ms generalizing g c with
  | nil => exact ⟨g, hc⟩
  | cons m ms ih => exact ⟨⟨g, hc⟩, fun d hd => ih (hP.2 d hd) (hstep g c m d hc hP.1 hd)⟩

/-- What such an invariant says of a move holds along the run. -/
theorem Watched.along {P : G → Config L E S X C A → Move E C → Prop}
    {Q : Config L E S X C A → Move E C → Prop} {I : G → Config L E S X C A → Prop}
    (hstep : ∀ g c m d, I g c → P g c m → sys.step c m = some d → I (note c m g) d)
    (hQ : ∀ g c m, I g c → P g c m → Q c m) {g : G} {c : Config L E S X C A}
    {ms : List (Move E C)} (hP : sys.Watched note P g c ms) (hc : I g c) :
    sys.Along Q c ms := by
  induction ms generalizing g c with
  | nil => trivial
  | cons m ms ih =>
      exact ⟨hQ g c m hc hP.1, fun d hd => ih (hP.2 d hd) (hstep g c m d hc hP.1 hd)⟩

/-- What holds along a run holds of its last move. -/
theorem Watched.last {P : G → Config L E S X C A → Move E C → Prop} {g : G}
    {c d : Config L E S X C A} {ms : List (Move E C)} {m : Move E C}
    (h : sys.Watched note P g c (ms ++ [m])) (hd : sys.exec c ms = some d) :
    P (sys.notes note g c ms) d m := by
  induction ms generalizing g c with
  | nil => exact Option.some.inj hd ▸ h.1
  | cons m' ms ih =>
      obtain ⟨c₁, h₁, h₂⟩ := exec_cons hd
      simp only [notes, h₁, Option.elim_some]
      exact ih (h.2 c₁ h₁) h₂

/-- A condition that does not read the notes may be watched with one that does. -/
theorem Watched.and_along {P : G → Config L E S X C A → Move E C → Prop}
    {Q : Config L E S X C A → Move E C → Prop} {g : G} {c : Config L E S X C A}
    {ms : List (Move E C)} (hP : sys.Watched note P g c ms) (hQ : sys.Along Q c ms) :
    sys.Watched note (fun g c m => P g c m ∧ Q c m) g c ms := by
  induction ms generalizing g c with
  | nil => trivial
  | cons m ms ih => exact ⟨⟨hP.1, hQ.1⟩, fun d hd => ih (hP.2 d hd) (hQ.2 d hd)⟩

end System

end Interleave
