import Fluxa.Interleave.Couplings
import Fluxa.State.AppState

/-!
# State — statements coupled

The statements of `Fluxa.State.AppState` in two runs: coupled in general, and those that ignore a change of the state.
-/

namespace Fluxa
open Interleave

variable {A B : Type} {I : Env → Prop} {P R : AppState → AppState → Prop}
  {G : AppError → AppError → Prop} {M : A → B → Prop}

/-- Statements on the database are coupled where both are executed; the second need not wait longer
than the first. -/
theorem couples_sqlWhen {event event' : Event} {ready ready' : AppState → Bool}
    {run : Env → AppState → Except AppError A × AppState}
    {run' : Env → AppState → Except AppError B × AppState} (hG : ∀ x, G x x)
    (hPR : ∀ s s', P s s' → R s s')
    (hready : ∀ s s', P s s' → ready s = true → ready' s' = true)
    (h : ∀ e s s', I e → P s s' →
      Agree M G R (run e s).1 (run' e s').1 (run e s).2 (run' e s').2) :
    Couples I P (sqlWhen event ready run) (sqlWhen event' ready' run') (Agree M G R) := by
  refine .atomic fun e s s' he hs hr => ⟨hready s s' hs hr, ?_⟩
  cases hf : e.fault with
  | none => exact h e s s' he hs
  | failed => exact ⟨hG _, hPR s s' hs⟩
  | lost => exact ⟨hG _, (h e s s' he hs).states⟩

theorem couples_sql {event event' : Event}
    {run : Env → AppState → Except AppError A × AppState}
    {run' : Env → AppState → Except AppError B × AppState} (hG : ∀ x, G x x)
    (hPR : ∀ s s', P s s' → R s s')
    (h : ∀ e s s', I e → P s s' →
      Agree M G R (run e s).1 (run' e s').1 (run e s).2 (run' e s').2) :
    Couples I P (sql event run) (sql event' run') (Agree M G R) :=
  couples_sqlWhen hG hPR (fun _ _ _ _ => rfl) h

theorem couples_select {run : Env → AppState → A} {run' : Env → AppState → B}
    (hG : ∀ x, G x x) (h : ∀ e s s', I e → R s s' → M (run e s) (run' e s')) :
    Couples I R (select run) (select run') (Agree M G R) :=
  couples_sql hG (fun _ _ hs => hs) fun e s s' he hs => ⟨h e s s' he hs, hs⟩

/-! ### Statements that ignore a change -/

variable {f : AppState → AppState}

theorem ignores_sqlWhen {event : Event} {ready : AppState → Bool}
    {run : Env → AppState → Except AppError A × AppState} (hready : ∀ s, ready (f s) = ready s)
    (h : ∀ e s, run e (f s) = ((run e s).1, f (run e s).2)) :
    Ignores f (sqlWhen event ready run) := by
  refine .atomic hready fun e s => ?_
  cases he : e.fault with
  | none => exact h e s
  | failed => rfl
  | lost => exact congrArg (fun x => (Except.error (databaseError e.detail), x.2)) (h e s)

theorem ignores_sql {event : Event} {run : Env → AppState → Except AppError A × AppState}
    (h : ∀ e s, run e (f s) = ((run e s).1, f (run e s).2)) : Ignores f (sql event run) :=
  ignores_sqlWhen (fun _ => rfl) h

theorem ignores_select {run : Env → AppState → A} (h : ∀ e s, run e (f s) = run e s) :
    Ignores f (select run) :=
  ignores_sql fun e s => by rw [h]

theorem ignores_redis {event : Event} {run : Env → AppState → A × AppState}
    (h : ∀ e s, run e (f s) = ((run e s).1, f (run e s).2)) : Ignores f (redisAs event run) := by
  refine .atomic (fun _ => rfl) fun e s => ?_
  cases he : e.fault with
  | none => exact congrArg (fun x => (Except.ok x.1, x.2)) (h e s)
  | failed => rfl
  | lost => exact congrArg (fun x => (Except.error (redisError e.detail), x.2)) (h e s)

theorem ignores_utcNow : Ignores f utcNow := .atomic (fun _ => rfl) fun _ _ => rfl

end Fluxa
