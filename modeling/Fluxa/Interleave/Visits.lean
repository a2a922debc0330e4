import Fluxa.Interleave.Contract

/-!
# Interleave — visits

What one call of a run has seen: the input and the state of each statement that it has executed (`System.visits`), and the states that the run as a whole passes (`System.Passes`).  **`calls_exec`**: what is left of a call is its program after these; **`visits_pairwise`**: what each step of a run does to the state, if it is a transitive relation, relates the states seen earlier to those seen later.
-/

namespace Interleave

variable {L E S X C A : Type}

/-- What is left of a program after its statements have run on these inputs in these states; none
when it has ended before. -/
def Prog.after : Prog L E S X A → List (E × S) → Option (Prog L E S X A)
  | p, [] => some p
  | .stmt _ _ _ next, (e, s) :: rest => (next e s).after rest
  | .done _, _ :: _ => none

@[simp] theorem Prog.after_nil {p : Prog L E S X A} : p.after [] = some p := by
  cases p <;> rfl

namespace System

variable (sys : System L E S X C A)

/-- The inputs and the states of the statements that call `i` executes in the run. -/
def visits (i : Nat) : Config L E S X C A → List (Move E C) → List (E × S)
  | _, [] => []
  | c, m :: ms =>
    match sys.step c m with
    | none => []
    | some d =>
      match m with
      | .exec j e => if j = i then (e, c.st) :: visits i d ms else visits i d ms
      | .call _ => visits i d ms

/-- The run passes through the state. -/
def Passes (c : Config L E S X C A) (ms : List (Move E C)) (s : S) : Prop :=
  ∃ ms₁ ms₂ d, ms = ms₁ ++ ms₂ ∧ sys.exec c ms₁ = some d ∧ d.st = s

instance decidableAfterStep {P : Config L E S X C A → Prop} [DecidablePred P]
    (c : Config L E S X C A) (m : Move E C) : Decidable (∀ d, sys.step c m = some d → P d) :=
  inferInstanceAs (Decidable (∀ d ∈ sys.step c m, P d))

instance Through.decidable {P : Config L E S X C A → Prop} [∀ c, Decidable (P c)] :
    ∀ (c : Config L E S X C A) (ms : List (Move E C)), Decidable (sys.Through P c ms)
  | c, [] => inferInstanceAs (Decidable (P c))
  | c, m :: ms =>
    match h : sys.step c m with
    | none => decidable_of_iff (P c) (by simp [Through, h])
    | some d =>
      have := Through.decidable (P := P) d ms
      decidable_of_iff (P c ∧ sys.Through P d ms) (by simp [Through, h])

variable {sys}

/-- Each statement of a run runs in a state that the run passes. -/
theorem along_passes {c : Config L E S X C A} {ms : List (Move E C)} :
    sys.Along (fun d _ => sys.Passes c ms d.st) c ms := by
  induction ms generalizing c with
  | nil => trivial
  | cons m ms ih =>
      refine ⟨⟨[], m :: ms, c, rfl, rfl, rfl⟩, fun d hd => ih.mono fun e _ he => ?_⟩
      obtain ⟨ms₁, ms₂, e', rfl, he', hst⟩ := he
      refine ⟨m :: ms₁, ms₂, e', rfl, ?_, hst⟩
      rw [exec, hd]
      exact he'

theorem visits_cons {i : Nat} {c d : Config L E S X C A} {m : Move E C} {ms : List (Move E C)}
    (h : sys.step c m = some d) :
    sys.visits i c (m :: ms) =
      (match m with
        | .exec j e => if j = i then [(e, c.st)] else []
        | .call _ => []) ++ sys.visits i d ms := by
  rw [visits, h]
  cases m with
  | call k => rfl
  | exec j e =>
      dsimp only
      split <;> rfl

/-- A call under way goes on as its program does after what it sees. -/
theorem calls_exec_of {i : Nat} {c d : Config L E S X C A} {ms : List (Move E C)} {k : C}
    {p : Prog L E S X A} (hc : c.calls[i]? = some (k, p)) (h : sys.exec c ms = some d) :
    ∃ q, p.after (sys.visits i c ms) = some q ∧ d.calls[i]? = some (k, q) := by
  induction ms generalizing c p with
  | nil => exact ⟨p, Prog.after_nil, Option.some.inj h ▸ hc⟩
  | cons m ms ih =>
      obtain ⟨c₁, h₁, h₂⟩ := exec_cons h
      rw [visits_cons h₁]
      cases m with
      | call k' =>
          obtain rfl := step_call h₁
          refine ih ?_ h₂
          rw [List.getElem?_append_left (List.getElem?_eq_some_iff.mp hc).1]
          exact hc
      | exec j e =>
          obtain ⟨k', l, ready, eff, next, hj, -, -, rfl⟩ := step_exec h₁
          by_cases hji : j = i
          · subst hji
            obtain ⟨rfl, rfl⟩ := Prod.mk.inj (Option.some.inj (hc.symm.trans hj))
            simp only [if_true]
            exact ih (List.getElem?_set_self (List.getElem?_eq_some_iff.mp hj).1) h₂
          · simp only [if_neg hji]
            exact ih ((List.getElem?_set_ne hji).trans hc) h₂

/-- A call that has come in since goes on as its program does after what it sees. -/
theorem calls_exec {i : Nat} {c d : Config L E S X C A} {ms : List (Move E C)} {k : C}
    {q : Prog L E S X A} (hc : c.calls[i]? = none) (h : sys.exec c ms = some d)
    (hd : d.calls[i]? = some (k, q)) : (sys.body k).after (sys.visits i c ms) = some q := by
  induction ms generalizing c with
  | nil =>
      rw [Option.some.inj h, hd] at hc
      cases hc
  | cons m ms ih =>
      obtain ⟨c₁, h₁, h₂⟩ := exec_cons h
      rw [visits_cons h₁]
      cases m with
      | call k' =>
          obtain rfl := step_call h₁
          have hlen := List.getElem?_eq_none_iff.mp hc
          by_cases hi : i = c.calls.length
          · obtain ⟨q', hq', hd'⟩ := calls_exec_of (i := i) (k := k') (p := sys.body k')
              (by rw [hi]; exact List.getElem?_concat_length) h₂
            rw [hd] at hd'
            obtain ⟨rfl, rfl⟩ := Prod.mk.inj (Option.some.inj hd')
            exact hq'
          · refine ih (List.getElem?_eq_none_iff.mpr ?_) h₂
            rw [List.length_append, List.length_singleton]
            omega
      | exec j e =>
          obtain ⟨k', l, ready, eff, next, hj, -, -, rfl⟩ := step_exec h₁
          have hji : j ≠ i := fun hji => by
            rw [hji, hc] at hj
            cases hj
          simp only [if_neg hji]
          exact ih ((List.getElem?_set_ne hji).trans hc) h₂

/-- What the steps of a run do to the state relates its start to all that is seen later. -/
theorem rel_of_mem_visits {R : S → S → Prop} (hrefl : ∀ s, R s s)
    (htrans : ∀ {a b c}, R a b → R b c → R a c) {i : Nat} {c : Config L E S X C A}
    {ms : List (Move E C)}
    (h : sys.Along (fun c m => ∀ d, sys.step c m = some d → R c.st d.st) c ms) {v : E × S}
    (hv : v ∈ sys.visits i c ms) : R c.st v.2 := by
  induction ms generalizing c with
  | nil => cases hv
  | cons m ms ih =>
      cases hs : sys.step c m with
      | none =>
          rw [visits, hs] at hv
          cases hv
      | some d =>
          rw [visits_cons hs, List.mem_append] at hv
          rcases hv with hv | hv
          · cases m with
            | call k => cases hv
            | exec j e =>
                dsimp only at hv
                split at hv
                · rw [List.mem_singleton.mp hv]
                  exact hrefl _
                · cases hv
          · exact htrans (h.1 d hs) (ih (h.2 d hs) hv)

theorem visits_pairwise {R : S → S → Prop} (hrefl : ∀ s, R s s)
    (htrans : ∀ {a b c}, R a b → R b c → R a c) {i : Nat} {c : Config L E S X C A}
    {ms : List (Move E C)}
    (h : sys.Along (fun c m => ∀ d, sys.step c m = some d → R c.st d.st) c ms) :
    (sys.visits i c ms).Pairwise fun v w => R v.2 w.2 := by
  induction ms generalizing c with
  | nil => exact .nil
  | cons m ms ih =>
      cases hs : sys.step c m with
      | none =>
          rw [visits, hs]
          exact .nil
      | some d =>
          rw [visits_cons hs]
          have hrest := ih (h.2 d hs)
          cases m with
          | call k => exact hrest
          | exec j e =>
              dsimp only
              split
              · exact List.pairwise_cons.mpr ⟨fun w hw =>
                  htrans (h.1 d hs) (rel_of_mem_visits hrefl htrans (h.2 d hs) hw), hrest⟩
              · exact hrest

end System

end Interleave
