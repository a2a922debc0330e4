import Fluxa.Interleave.Trace

/-!
# Interleave — executions that are cut off

Whoever executes a program may die between two of its statements, and somebody executes it again from the beginning.  **`cutOff`** computes the state that an execution leaves when it is cut off, nobody interfering; **`cutOffs`**, the state that several executions leave, one after the other.
-/

namespace Interleave

variable {L E S X A B : Type}

/-- The state after the program has gone as far as the inputs `es` take it: somewhere between two
statements, or at its end. -/
def cutOff : Prog L E S X A → List E → S → Option S
  | _, [], s => some s
  | .stmt _ ready eff next, e :: es, s =>
    if ready s then cutOff (next e s) es (eff e s) else none
  | .done _, _ :: _, _ => none

/-- The state after one execution for each list of inputs. -/
def cutOffs (p : Prog L E S X A) : List (List E) → S → Option S
  | [], s => some s
  | es :: ess, s => (cutOff p es s).bind (cutOffs p ess)

theorem cutOff_nil (p : Prog L E S X A) (s : S) : cutOff p [] s = some s := by
  cases p <;> rfl

theorem cutOff_done {r : Except X A} {es : List E} {s s' : S}
    (h : cutOff (.done r : Prog L E S X A) es s = some s') : s' = s := by
  cases es with
  | nil =>
      cases h
      rfl
  | cons e es => cases h

/-- An execution may be cut off when it has ended. -/
theorem cutOff_of_play {p : Prog L E S X A} {es : List E} {s s' : S} {r : Except X A}
    (h : play p es s = some (r, s')) : cutOff p es s = some s' := by
  induction p generalizing es s with
  | done r₀ =>
      obtain ⟨rfl, -, rfl⟩ := play_done h
      rfl
  | stmt l ready eff next ih =>
      cases es with
      | nil => cases h
      | cons e es =>
          simp only [play] at h
          split at h
          · rw [cutOff, if_pos ‹ready s = true›]
            exact ih e s h
          · cases h

/-- A single statement has not run, or it has. -/
theorem cutOff_atomic {l : L} {ready : S → Bool} {run : E → S → Except X A × S} {es : List E}
    {s s' : S} (h : cutOff (Prog.atomic l ready run) es s = some s') :
    s' = s ∨ ∃ r, play (Prog.atomic l ready run) es s = some (r, s') := by
  cases es with
  | nil =>
      cases h
      exact .inl rfl
  | cons e es =>
      right
      unfold Prog.atomic at h ⊢
      unfold cutOff at h
      split at h
      · rename_i hready
        cases es with
        | nil =>
            cases h
            exact ⟨_, if_pos hready⟩
        | cons e' es => cases h
      · cases h

/-- A sequence is cut off within its first part, or plays it to a value and is cut off within the
second. -/
theorem cutOff_bind {p : Prog L E S X A} {f : A → Prog L E S X B} {es : List E} {s s' : S}
    (h : cutOff (p.bind f) es s = some s') :
    cutOff p es s = some s' ∨ ∃ a es₁ es₂ t, es = es₁ ++ es₂ ∧ play p es₁ s = some (.ok a, t) ∧
      cutOff (f a) es₂ t = some s' := by
  induction p generalizing es s with
  | done r =>
      cases r with
      | ok a => exact .inr ⟨a, [], es, s, rfl, rfl, h⟩
      | error x =>
          left
          cases es with
          | nil =>
              cases h
              rfl
          | cons e es => cases h
  | stmt l ready eff next ih =>
      cases es with
      | nil =>
          cases h
          exact .inl rfl
      | cons e es =>
          simp only [Prog.bind, cutOff] at h
          split at h
          · rename_i hready
            rcases ih e s h with hp | ⟨a, es₁, es₂, t, rfl, h₁, h₂⟩
            · left
              rwa [cutOff, if_pos hready]
            · refine .inr ⟨a, e :: es₁, es₂, t, rfl, ?_, h₂⟩
              rwa [play, if_pos hready]
          · cases h

/-- A program whose statements make changes `R` makes one as far as it goes. -/
theorem Contract.Safe.cutOff {R : S → S → Prop} (hrefl : ∀ s, R s s)
    (htrans : ∀ {a b c}, R a b → R b c → R a c) {i : Nat} {p : Prog L E S X A}
    (hp : (Contract.frame R : Contract L E S).Safe i p) {es : List E} {s s' : S}
    (h : Interleave.cutOff p es s = some s') : R s s' := by
  replace hp := hp s trivial trivial
  induction p generalizing es s with
  | done r =>
      obtain rfl := cutOff_done h
      exact hrefl _
  | stmt l ready eff next ih =>
      cases es with
      | nil =>
          cases h
          exact hrefl _
      | cons e es =>
          simp only [Interleave.cutOff] at h
          split at h
          · obtain ⟨hg, hn⟩ := Contract.sat_stmt.mp hp s e .refl trivial ‹ready s = true› trivial
            exact htrans hg (ih e s h hn)
          · cases h

/-- What each execution keeps, as long as its inputs satisfy `P`, several keep. -/
theorem cutOffs_invariant {p : Prog L E S X A} {P : E → Prop} {I : S → Prop}
    (hstep : ∀ es s s', I s → (∀ e ∈ es, P e) → cutOff p es s = some s' → I s')
    {ess : List (List E)} (hess : ∀ es ∈ ess, ∀ e ∈ es, P e) {s s' : S} (hs : I s)
    (h : cutOffs p ess s = some s') : I s' := by
  induction ess generalizing s with
  | nil =>
      obtain rfl := Option.some.inj h
      exact hs
  | cons es ess ih =>
      obtain ⟨t, ht, h⟩ := Option.bind_eq_some_iff.mp h
      refine ih (fun es' hes' => hess es' (List.mem_cons_of_mem _ hes')) ?_ h
      exact hstep es s t hs (hess es List.mem_cons_self) ht

/-- Executions that have not begun. -/
theorem cutOffs_replicate (p : Prog L E S X A) (n : Nat) (s : S) :
    cutOffs p (List.replicate n []) s = some s := by
  induction n with
  | zero => rfl
  | succ n ih => rw [List.replicate_succ, cutOffs, cutOff_nil, Option.bind_some, ih]

end Interleave
