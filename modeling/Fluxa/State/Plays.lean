import Fluxa.Interleave.Trace
import Fluxa.State.AppState

/-!
# State — statements played alone

What the statements of `Fluxa.State.AppState` do when a program is played with nobody interfering.
-/

namespace Fluxa
open Interleave

namespace Plays

variable {A : Type} {es : List Env} {s s' : AppState} {r : Except AppError A}

/-- A statement on the database is executed, or it fails and changes nothing. -/
theorem play_sql {event : Event} {run : Env → AppState → Except AppError A × AppState}
    (h : play (sql event run) es s = some (r, s')) :
    ∃ e, es = [e] ∧ ((s' = s ∧ ∃ x, r = .error x) ∨
      (s' = (run e s).2 ∧ ∀ a, r = .ok a → (run e s).1 = .ok a)) := by
  obtain ⟨e, rfl, -, hrun⟩ := play_atomic h
  refine ⟨e, rfl, ?_⟩
  cases hf : e.fault with
  | none =>
      rw [hf] at hrun
      exact .inr ⟨(congrArg Prod.snd hrun).symm, fun a ha => (congrArg Prod.fst hrun).trans ha⟩
  | failed =>
      rw [hf] at hrun
      obtain ⟨rfl, rfl⟩ := Prod.mk.inj hrun
      exact .inl ⟨rfl, _, rfl⟩
  | lost =>
      rw [hf] at hrun
      obtain ⟨rfl, rfl⟩ := Prod.mk.inj hrun
      exact .inr ⟨rfl, fun a ha => by cases ha⟩

theorem play_select {run : Env → AppState → A} (h : play (select run) es s = some (r, s')) :
    s' = s ∧ ∃ e, es = [e] ∧ ∀ a, r = .ok a → a = run e s := by
  obtain ⟨e, rfl, ⟨rfl, x, rfl⟩ | ⟨rfl, hr⟩⟩ := play_sql h
  · exact ⟨rfl, e, rfl, fun a ha => by cases ha⟩
  · exact ⟨rfl, e, rfl, fun a ha => (Except.ok.inj (hr a ha)).symm⟩

theorem play_utcNow {r : Except AppError Time} (h : play utcNow es s = some (r, s')) :
    s' = s ∧ ∃ e, es = [e] ∧ r = .ok e.now := by
  obtain ⟨e, rfl, -, hrun⟩ := play_atomic h
  obtain ⟨rfl, rfl⟩ := Prod.mk.inj hrun
  exact ⟨rfl, e, rfl, rfl⟩

theorem play_newUuid {r : Except AppError Uuid} (h : play newUuid es s = some (r, s')) :
    s'.db = s.db ∧ ∃ id, r = .ok id := by
  obtain ⟨e, rfl, -, hrun⟩ := play_atomic h
  obtain ⟨rfl, rfl⟩ := Prod.mk.inj hrun
  exact ⟨rfl, e.uuid, rfl⟩

/-- No statement fails, or loses its result. -/
def Clean (es : List Env) : Prop := ∀ e ∈ es, e.fault = .none

theorem Clean.append {es es' : List Env} (h : Clean (es ++ es')) : Clean es ∧ Clean es' :=
  ⟨fun e he => h e (List.mem_append_left _ he), fun e he => h e (List.mem_append_right _ he)⟩

/-- A statement on the database that does not fail is executed. -/
theorem play_sqlWhen {event : Event} {ready : AppState → Bool}
    {run : Env → AppState → Except AppError A × AppState} (hc : Clean es)
    (h : play (sqlWhen event ready run) es s = some (r, s')) :
    ∃ e, es = [e] ∧ ready s = true ∧ run e s = (r, s') := by
  obtain ⟨e, rfl, hready, hrun⟩ := play_atomic h
  rw [hc e (List.mem_singleton_self e)] at hrun
  exact ⟨e, rfl, hready, hrun⟩

theorem play_clean_select {run : Env → AppState → A} (hc : Clean es)
    (h : play (select run) es s = some (r, s')) : s' = s ∧ ∃ e, es = [e] ∧ r = .ok (run e s) := by
  obtain ⟨e, rfl, -, hrun⟩ := play_sqlWhen hc h
  obtain ⟨rfl, rfl⟩ := Prod.mk.inj hrun
  exact ⟨rfl, e, rfl, rfl⟩

end Plays

end Fluxa
