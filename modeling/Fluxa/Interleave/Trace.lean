import Fluxa.Interleave.Contract

/-!
# Interleave — traces

What a single program does on the inputs that its statements receive, one after the other, while the others change the state only as a relation `R` allows.  **`Ends`** says that the program ends so; **`play`** computes the end when nobody interferes.
-/

namespace Interleave

variable {L E S X A B : Type} {R : S → S → Prop}

/-- Started in `s`, with the inputs `es` and with changes `R` before each statement, the program
ends with the result `r` in the state `s'`. -/
def Ends (R : S → S → Prop) :
    Prog L E S X A → List E → S → Except X A → S → Prop
  | .done r, [], s, r', s' => r' = r ∧ s' = s
  | .stmt _ ready eff next, e :: es, s, r', s' =>
    ∃ t, R s t ∧ ready t = true ∧ Ends R (next e t) es (eff e t) r' s'
  | _, _, _, _, _ => False

/-- The end of the program on the inputs `es` when nobody interferes. -/
def play : Prog L E S X A → List E → S → Option (Except X A × S)
  | .done r, [], s => some (r, s)
  | .stmt _ ready eff next, e :: es, s =>
    if ready s then play (next e s) es (eff e s) else none
  | _, _, _ => none

/-- A sequence plays its second part from where the first has ended. -/
theorem play_bind {p : Prog L E S X A} {f : A → Prog L E S X B} {es es' : List E} {s t : S}
    {a : A} (h : play p es s = some (.ok a, t)) :
    play (p.bind f) (es ++ es') s = play (f a) es' t := by
  induction p generalizing es s with
  | done r =>
      cases es with
      | nil =>
          cases h
          rfl
      | cons e es => cases h
  | stmt l ready eff next ih =>
      cases es with
      | nil => cases h
      | cons e es =>
          simp only [play] at h
          split at h
          · simp only [Prog.bind, List.cons_append, play, if_pos ‹ready s = true›]
            exact ih e s h
          · cases h

theorem play_done {r r' : Except X A} {es : List E} {s s' : S}
    (h : play (.done r : Prog L E S X A) es s = some (r', s')) : es = [] ∧ r' = r ∧ s' = s := by
  cases es with
  | nil =>
      cases h
      exact ⟨rfl, rfl, rfl⟩
  | cons e es => cases h

/-- A single statement takes one input. -/
theorem play_atomic {l : L} {ready : S → Bool} {run : E → S → Except X A × S} {es : List E}
    {s s' : S} {r : Except X A} (h : play (Prog.atomic l ready run) es s = some (r, s')) :
    ∃ e, es = [e] ∧ ready s = true ∧ run e s = (r, s') := by
  cases es with
  | nil => cases h
  | cons e es =>
      unfold Prog.atomic play at h
      split at h
      · obtain ⟨rfl, rfl, rfl⟩ := play_done h
        exact ⟨e, rfl, ‹_›, rfl⟩
      · cases h

/-- A sequence plays its first part to an error, or to a value and then its second part. -/
theorem play_bind_cases {p : Prog L E S X A} {f : A → Prog L E S X B} {es : List E} {s s' : S}
    {r : Except X B} (h : play (p.bind f) es s = some (r, s')) :
    (∃ x, r = .error x ∧ play p es s = some (.error x, s')) ∨
      ∃ a es₁ es₂ t, es = es₁ ++ es₂ ∧ play p es₁ s = some (.ok a, t) ∧
        play (f a) es₂ t = some (r, s') := by
  induction p generalizing es s with
  | done r₀ =>
      cases r₀ with
      | ok a => exact .inr ⟨a, [], es, s, rfl, rfl, h⟩
      | error x =>
          obtain ⟨rfl, rfl, rfl⟩ := play_done h
          exact .inl ⟨x, rfl, rfl⟩
  | stmt l ready eff next ih =>
      cases es with
      | nil => cases h
      | cons e es =>
          simp only [Prog.bind, play] at h
          split at h
          · rename_i hready
            rcases ih e s h with ⟨x, hr, hp⟩ | ⟨a, es₁, es₂, t, rfl, h₁, h₂⟩
            · refine .inl ⟨x, hr, ?_⟩
              rwa [play, if_pos hready]
            · refine .inr ⟨a, e :: es₁, es₂, t, rfl, ?_, h₂⟩
              rwa [play, if_pos hready]
          · cases h

/-- A sequence that plays to a value plays its first part to one. -/
theorem play_bind_ok {p : Prog L E S X A} {f : A → Prog L E S X B} {es : List E} {s s' : S}
    {b : B} (h : play (p.bind f) es s = some (.ok b, s')) :
    ∃ a es₁ es₂ t, es = es₁ ++ es₂ ∧ play p es₁ s = some (.ok a, t) ∧
      play (f a) es₂ t = some (.ok b, s') := by
  rcases play_bind_cases h with ⟨x, hr, -⟩ | h
  · cases hr
  · exact h

/-- An attempt plays what it attempts, and hands the result on. -/
theorem play_attempt {p : Prog L E S X A} {es : List E} {s s' : S} {r : Except X (Except X A)}
    (h : play p.attempt es s = some (r, s')) :
    ∃ r₀, r = .ok r₀ ∧ play p es s = some (r₀, s') := by
  induction p generalizing es s with
  | done r₀ =>
      obtain ⟨rfl, rfl, rfl⟩ := play_done h
      exact ⟨r₀, rfl, rfl⟩
  | stmt l ready eff next ih =>
      cases es with
      | nil => cases h
      | cons e es =>
          simp only [Prog.attempt, play] at h
          split at h
          · rename_i hready
            obtain ⟨r₀, hr, hp⟩ := ih e s h
            exact ⟨r₀, hr, by rwa [play, if_pos hready]⟩
          · cases h

/-- No statement of the program has to wait. -/
def Unblocked : Prog L E S X A → Prop
  | .done _ => True
  | .stmt _ ready _ next => (∀ s, ready s = true) ∧ ∀ e s, Unblocked (next e s)

theorem unblocked_atomic {l : L} {run : E → S → Except X A × S} :
    Unblocked (Prog.atomic l (fun _ => true) run) :=
  ⟨fun _ => rfl, fun _ _ => trivial⟩

theorem Unblocked.bind {p : Prog L E S X A} {f : A → Prog L E S X B} (hp : Unblocked p)
    (hf : ∀ a, Unblocked (f a)) : Unblocked (p.bind f) := by
  induction p with
  | done r =>
      cases r with
      | ok a => exact hf a
      | error x => trivial
  | stmt l ready eff next ih => exact ⟨hp.1, fun e s => ih e s (hp.2 e s)⟩

theorem Unblocked.attempt {p : Prog L E S X A} (hp : Unblocked p) : Unblocked p.attempt := by
  induction p with
  | done r => trivial
  | stmt l ready eff next ih => exact ⟨hp.1, fun e s => ih e s (hp.2 e s)⟩

/-- A program that need not wait ends, whatever inputs come in. -/
theorem Unblocked.exists_play {p : Prog L E S X A} (hp : Unblocked p) (es : Nat → E) (s : S) :
    ∃ n r s', play p ((List.range n).map es) s = some (r, s') := by
  induction p generalizing es s with
  | done r => exact ⟨0, r, s, rfl⟩
  | stmt l ready eff next ih =>
      obtain ⟨n, r, s', h⟩ := ih (es 0) s (hp.2 (es 0) s) (fun n => es (n + 1)) (eff (es 0) s)
      refine ⟨n + 1, r, s', ?_⟩
      rw [List.range_succ_eq_map, List.map_cons, List.map_map]
      simp only [play, hp.1 s, if_true]
      exact h

theorem ends_of_play (hR : ∀ s, R s s) {p : Prog L E S X A} {es : List E} {s s' : S}
    {r : Except X A} (h : play p es s = some (r, s')) : Ends R p es s r s' := by
  induction p generalizing es s with
  | done r₀ =>
      cases es with
      | nil =>
          cases h
          exact ⟨rfl, rfl⟩
      | cons e es => cases h
  | stmt l ready eff next ih =>
      cases es with
      | nil => cases h
      | cons e es =>
          simp only [play] at h
          split at h
          · exact ⟨s, hR s, ‹_›, ih e s h⟩
          · cases h

theorem Ends.done {r r' : Except X A} {es : List E} {s s' : S}
    (h : Ends R (.done r : Prog L E S X A) es s r' s') : es = [] ∧ r' = r ∧ s' = s := by
  cases es with
  | nil => exact ⟨rfl, h⟩
  | cons e es => exact h.elim

/-- The statement of an atomic program has run on the one input, in a state that the others have
left. -/
theorem Ends.atomic {l : L} {ready : S → Bool} {run : E → S → Except X A × S} {es : List E}
    {s s' : S} {r : Except X A} (h : Ends R (Prog.atomic l ready run) es s r s') :
    ∃ e t, es = [e] ∧ R s t ∧ ready t = true ∧ r = (run e t).1 ∧ s' = (run e t).2 := by
  cases es with
  | nil => exact h.elim
  | cons e es =>
      obtain ⟨t, hR, hy, h⟩ := h
      obtain ⟨rfl, hr, hs⟩ := h.done
      exact ⟨e, t, rfl, hR, hy, hr, hs⟩

/-- What the others do first may as well be done before the program starts. -/
theorem Ends.after (htrans : ∀ {a b c}, R a b → R b c → R a c) {p : Prog L E S X A} {e : E}
    {es : List E} {s t s' : S} {r : Except X A} (h : Ends R p (e :: es) t r s') (hR : R s t) :
    Ends R p (e :: es) s r s' := by
  cases p with
  | done r₀ => exact h.elim
  | stmt l ready eff next =>
      obtain ⟨u, hu, h⟩ := h
      exact ⟨u, htrans hR hu, h⟩

theorem Ends.ensure {b : Bool} {x : X} {es : List E} {s s' : S} {u : Unit}
    (h : Ends R (Prog.ensure b x : Prog L E S X Unit) es s (.ok u) s') : b = true := by
  unfold Prog.ensure at h
  split at h
  · assumption
  · obtain ⟨-, hr, -⟩ := h.done
    cases hr

/-- A sequence that ends with a value has ended its first part with one. -/
theorem Ends.bind_ok {p : Prog L E S X A} {f : A → Prog L E S X B} {es : List E} {s s' : S}
    {b : B} (h : Ends R (p.bind f) es s (.ok b) s') :
    ∃ a es₁ es₂ t, es = es₁ ++ es₂ ∧ Ends R p es₁ s (.ok a) t ∧ Ends R (f a) es₂ t (.ok b) s' := by
  induction p generalizing es s with
  | done r =>
      cases r with
      | ok a => exact ⟨a, [], es, s, rfl, ⟨rfl, rfl⟩, h⟩
      | error x =>
          obtain ⟨-, hr, -⟩ := Ends.done h
          cases hr
  | stmt l ready eff next ih =>
      cases es with
      | nil => exact h.elim
      | cons e es =>
          obtain ⟨t, hR, hy, h⟩ := h
          obtain ⟨a, es₁, es₂, t', rfl, h₁, h₂⟩ := ih e t h
          exact ⟨a, e :: es₁, es₂, t', rfl, ⟨t, hR, hy, h₁⟩, h₂⟩

theorem Ends.attempt {p : Prog L E S X A} {es : List E} {s s' : S} {r : Except X (Except X A)}
    (h : Ends R p.attempt es s r s') : ∃ r₀, r = .ok r₀ ∧ Ends R p es s r₀ s' := by
  induction p generalizing es s with
  | done r₀ =>
      obtain ⟨rfl, rfl, rfl⟩ := Ends.done h
      exact ⟨r₀, rfl, rfl, rfl⟩
  | stmt l ready eff next ih =>
      cases es with
      | nil => exact h.elim
      | cons e es =>
          obtain ⟨t, hR, hy, h⟩ := h
          obtain ⟨r₀, hr, h'⟩ := ih e t h
          exact ⟨r₀, hr, t, hR, hy, h'⟩

/-- The program executes `n` statements before it ends. -/
def Takes : Nat → Prog L E S X A → Prop
  | 0, .done _ => True
  | n + 1, .stmt _ _ _ next => ∀ e s, Takes n (next e s)
  | _, _ => False

theorem Takes.attempt {n : Nat} {p : Prog L E S X A} (hp : Takes n p) : Takes n p.attempt := by
  induction p generalizing n with
  | done r => cases n with
    | zero => trivial
    | succ n => exact hp.elim
  | stmt l ready eff next ih => cases n with
    | zero => exact hp.elim
    | succ n => exact fun e s => ih e s (hp e s)

theorem Takes.length {n : Nat} {p : Prog L E S X A} (hp : Takes n p) {es : List E} {s s' : S}
    {r : Except X A} (h : Ends R p es s r s') : es.length = n := by
  induction p generalizing n es s with
  | done r₀ =>
      obtain ⟨rfl, -, -⟩ := h.done
      cases n with
      | zero => rfl
      | succ n => exact hp.elim
  | stmt l ready eff next ih =>
      cases es with
      | nil => exact h.elim
      | cons e es =>
          obtain ⟨t, -, -, h⟩ := h
          cases n with
          | zero => exact hp.elim
          | succ n => exact congrArg (· + 1) (ih e t (hp e t) h)

/-- The contract that allows everybody the changes `R`. -/
def Contract.frame (R : S → S → Prop) : Contract L E S where
  inv _ := True
  guar _ _ _ := R
  adm _ _ _ _ := True
  guar_inv _ _ := trivial

/-- A program whose own statements are changes `R` makes, with the others', such a change. -/
theorem Contract.Safe.ends (hrefl : ∀ s, R s s) (htrans : ∀ {a b c}, R a b → R b c → R a c)
    {i : Nat} {p : Prog L E S X A} (hp : (Contract.frame R : Contract L E S).Safe i p)
    {es : List E} {s s' : S} {r : Except X A} (h : Ends R p es s r s') : R s s' := by
  replace hp := hp s trivial trivial
  induction p generalizing es s with
  | done r₀ =>
      obtain ⟨-, -, rfl⟩ := h.done
      exact hrefl _
  | stmt l ready eff next ih =>
      cases es with
      | nil => exact h.elim
      | cons e es =>
          obtain ⟨t, ht, hy, h⟩ := h
          have hrely : (Contract.frame R : Contract L E S).rely i s t :=
            .single ⟨trivial, i + 1, l, e, Nat.succ_ne_self i, ht⟩
          obtain ⟨hg, hn⟩ := Contract.sat_stmt.mp hp t e hrely trivial hy trivial
          exact htrans ht (htrans hg (ih e t h hn))

end Interleave
