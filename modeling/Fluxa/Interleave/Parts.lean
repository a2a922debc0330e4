import Fluxa.Interleave.Named

/-!
# Interleave — parts

A state that falls into parts, and calls of which each belongs to one part.  **`Parts.Follows`** says that a program does on the whole state what it does in its own part alone, with the same result, and leaves the other parts as they are.

**A run falls into parts with the state** (`Parts.exec_part`).  Leave out, of any run, the statements of all calls but those of one part.  What remains is a run in that part alone; its calls end with the results that they had, and the part is what it was.  So nothing that the calls of one part ask, and no order of their statements, is seen in another (`Parts.exec_apart`).

The other way, a call executes on the whole state what it executes in its part when the other parts hold nothing that it could wait for (`Parts.Seen.exec_whole`).
-/

namespace Interleave

variable {τ L E S X C A A' B B' : Type}

/-- A way of taking a state apart. -/
structure Parts (τ L E S : Type) where
  /-- What holds of the whole state between any two statements. -/
  inv : S → Prop
  /-- The second state is what belongs to `b` in the first. -/
  part : τ → S → S → Prop
  /-- A condition on the statements executed: the call's number, the label, the input, and the
  states before and after. -/
  cond : Nat → L → E → S → S → Prop
  /-- Nothing is held in the part that a statement of another part could wait for. -/
  calm : S → Prop
  /-- There is always something that belongs to `b`. -/
  total : ∀ b s, inv s → ∃ v, part b s v

/-- Both results are values, in `M`, or both are the same error. -/
def SameResult (M : A → B → Prop) : Except X A → Except X B → Prop
  | .ok a, .ok b => M a b
  | .error x, .error y => x = y
  | _, _ => False

theorem sameResult_eq {r r' : Except X A} (h : SameResult (fun a a' => a' = a) r r') : r' = r := by
  cases r with
  | ok a =>
      cases r' with
      | ok a' => exact congrArg Except.ok h
      | error y => exact h.elim
  | error x =>
      cases r' with
      | ok a' => exact h.elim
      | error y => exact congrArg Except.error h.symm

theorem SameResult.mono {M N : A → B → Prop} {r : Except X A} {r' : Except X B}
    (h : SameResult M r r') (hMN : ∀ a b, M a b → N a b) : SameResult N r r' := by
  cases r with
  | ok a =>
      cases r' with
      | ok b => exact hMN a b h
      | error y => exact h.elim
  | error x =>
      cases r' with
      | ok b => exact h.elim
      | error y => exact h

namespace Parts

variable (K : Parts τ L E S)

/-- A statement of part `b` takes the whole state from `s` to `s'` and the part from `v` to `v'`. -/
structure Step (b : τ) (s s' v v' : S) : Prop where
  inv : K.inv s'
  own : K.part b s' v'
  others : ∀ b', b' ≠ b → ∀ w, K.part b' s w → K.part b' s' w

/-- The parts other than `b` are calm. -/
def Alone (b : τ) (s : S) : Prop := ∀ b', b' ≠ b → ∃ w, K.part b' s w ∧ K.calm w

/-- In the part a statement waits for nothing that it does not wait for on the whole state, and on
the whole state for nothing else unless another part holds it. -/
def Waits (b : τ) (ready ready' : S → Bool) : Prop :=
  ∀ s v, K.inv s → K.part b s v → (ready s = true → ready' v = true) ∧
    (K.Alone b s → ready' v = true → ready s = true)

/-- Each statement of `p`, on the whole state, is one of `q` in the part `b`, and they end with
results in `M`. -/
def Follows (b : τ) (i : Nat) (M : A → B → Prop) : Prog L E S X A → Prog L E S X B → Prop
  | .done r, q => ∃ r', q = .done r' ∧ SameResult M r r'
  | .stmt l ready eff next, q => ∃ ready' eff' next', q = .stmt l ready' eff' next' ∧
      K.Waits b ready ready' ∧ ∀ e s v, K.inv s → K.part b s v → ready s = true →
        K.cond i l e s (eff e s) → K.Step b s (eff e s) v (eff' e v) ∧
          Follows b i M (next e s) (next' e v)

variable {K} {b : τ} {i : Nat} {s v : S} {M : A → A' → Prop} {N : B → B' → Prop}
  {p : Prog L E S X A} {q : Prog L E S X A'}

theorem Step.refl (hs : K.inv s) (hv : K.part b s v) : K.Step b s s v v :=
  ⟨hs, hv, fun _ _ _ hw => hw⟩

theorem Waits.of_eq {ready ready' : S → Bool} (h : ∀ s v, K.part b s v → ready' v = ready s) :
    K.Waits b ready ready' :=
  fun s v _ hv => ⟨fun hy => (h s v hv).trans hy, fun _ hy => (h s v hv).symm.trans hy⟩

theorem Waits.free : K.Waits b (fun _ => true) fun _ => true := .of_eq fun _ _ _ => rfl

namespace Follows

theorem done {r : Except X A} {r' : Except X A'} (h : SameResult M r r') :
    K.Follows b i M (.done r : Prog L E S X A) (.done r') :=
  ⟨r', rfl, h⟩

theorem mono {M' : A → A' → Prop} (h : K.Follows b i M p q) (hM : ∀ a a', M a a' → M' a a') :
    K.Follows b i M' p q := by
  induction p generalizing q with
  | done r =>
      obtain ⟨r', rfl, hr⟩ := h
      exact ⟨r', rfl, hr.mono hM⟩
  | stmt l ready eff next ih =>
      obtain ⟨ready', eff', next', rfl, hready, h⟩ := h
      refine ⟨ready', eff', next', rfl, hready, fun e s v hs hv hy hc => ?_⟩
      obtain ⟨hstep, hnext⟩ := h e s v hs hv hy hc
      exact ⟨hstep, ih e s hnext⟩

/-- The second programs may use what is known of the values. -/
theorem bind {f : A → Prog L E S X B} {g : A' → Prog L E S X B'} (h : K.Follows b i M p q)
    (hf : ∀ a a', M a a' → K.Follows b i N (f a) (g a')) :
    K.Follows b i N (p.bind f) (q.bind g) := by
  induction p generalizing q with
  | done r =>
      obtain ⟨r', rfl, hr⟩ := h
      cases r with
      | ok a =>
          cases r' with
          | ok a' => exact hf a a' hr
          | error y => exact hr.elim
      | error x =>
          cases r' with
          | ok a' => exact hr.elim
          | error y => exact done hr
  | stmt l ready eff next ih =>
      obtain ⟨ready', eff', next', rfl, hready, h⟩ := h
      refine ⟨ready', eff', fun e v => (next' e v).bind g, rfl, hready, fun e s v hs hv hy hc => ?_⟩
      obtain ⟨hstep, hnext⟩ := h e s v hs hv hy hc
      exact ⟨hstep, ih e s hnext⟩

theorem attempt (h : K.Follows b i M p q) :
    K.Follows b i (SameResult M) p.attempt q.attempt := by
  induction p generalizing q with
  | done r =>
      obtain ⟨r', rfl, hr⟩ := h
      exact done hr
  | stmt l ready eff next ih =>
      obtain ⟨ready', eff', next', rfl, hready, h⟩ := h
      refine ⟨ready', eff', fun e v => (next' e v).attempt, rfl, hready, fun e s v hs hv hy hc => ?_⟩
      obtain ⟨hstep, hnext⟩ := h e s v hs hv hy hc
      exact ⟨hstep, ih e s hnext⟩

theorem atomic {l : L} {ready ready' : S → Bool} {run : E → S → Except X A × S}
    {run' : E → S → Except X A' × S} (hready : K.Waits b ready ready')
    (h : ∀ e s v, K.inv s → K.part b s v → ready s = true → K.cond i l e s (run e s).2 →
      K.Step b s (run e s).2 v (run' e v).2 ∧ SameResult M (run e s).1 (run' e v).1) :
    K.Follows b i M (Prog.atomic l ready run) (Prog.atomic l ready' run') := by
  refine ⟨ready', fun e v => (run' e v).2, fun e v => .done (run' e v).1, rfl, hready,
    fun e s v hs hv hy hc => ?_⟩
  obtain ⟨hstep, hr⟩ := h e s v hs hv hy hc
  exact ⟨hstep, done hr⟩

theorem lift {r : Except X A} :
    K.Follows b i (fun a a' => a' = a) (Prog.lift r : Prog L E S X A) (Prog.lift r) := by
  refine done ?_
  cases r with
  | ok a => rfl
  | error x => rfl

theorem ensure {c : Bool} {x : X} :
    K.Follows b i (fun _ _ => c = true) (Prog.ensure c x : Prog L E S X Unit)
      (Prog.ensure c x) := by
  unfold Prog.ensure
  split
  · rename_i hc
    exact done hc
  · exact done rfl

theorem okOr {o : Option A} {x : X} :
    K.Follows b i (fun a a' => a' = a ∧ o = some a) (Prog.okOr o x : Prog L E S X A)
      (Prog.okOr o x) := by
  cases o with
  | none => exact done rfl
  | some a => exact done ⟨rfl, rfl⟩

theorem fail {x : X} : K.Follows b i M (Prog.fail x : Prog L E S X A) (Prog.fail x) := done rfl

end Follows

/-! ### Runs -/

variable {sys : System L E S X C A} (home : C → τ) (idle : C)

/-- What is left of a run after the calls `ks` when no call but those of part `b` executes
statements: of the other calls, only that they come in. -/
def seenBy [DecidableEq τ] (b : τ) : List C → List (Move E C) → List (Move E C)
  | _, [] => []
  | ks, .call k :: ms => .call (if home k = b then k else idle) :: seenBy b (ks ++ [k]) ms
  | ks, .exec i e :: ms =>
    if (ks[i]?).any fun k => home k = b then .exec i e :: seenBy b ks ms else seenBy b ks ms

variable (K) in
/-- The second configuration is what the first is in part `b`. -/
structure Seen (b : τ) (c d : Config L E S X C A) : Prop where
  inv : K.inv c.st
  part : K.part b c.st d.st
  length : d.calls.length = c.calls.length
  /-- A call of the part does there what it does on the whole state. -/
  own : ∀ i k p, c.calls[i]? = some (k, p) → home k = b →
    ∃ q, d.calls[i]? = some (k, q) ∧ K.Follows b i (fun a a' => a' = a) p q
  /-- The others do something in parts of their own, and here nothing. -/
  others : ∀ i k p, c.calls[i]? = some (k, p) → home k ≠ b →
    (d.calls[i]?).map Prod.fst = some idle ∧ ∃ q, K.Follows (home k) i (fun a a' : A => a' = a) p q

variable {home idle} {c c' d : Config L E S X C A} {m : Move E C} {ms : List (Move E C)}

theorem seen_start {s v : S} (hs : K.inv s) (hv : K.part b s v) :
    K.Seen home idle b (.start s : Config L E S X C A) (.start v) :=
  ⟨hs, hv, rfl, fun i k p h => by simp [Config.start] at h,
    fun i k p h => by simp [Config.start] at h⟩

/-- A call comes in. -/
theorem Seen.call (h : K.Seen home idle b c d) {k k' : C} {p q : Prog L E S X A}
    (hp : K.Follows (home k) c.calls.length (fun a a' => a' = a) p p)
    (hq : home k = b → k' = k ∧ q = p) (hidle : home k ≠ b → k' = idle) :
    K.Seen home idle b { c with calls := c.calls ++ [(k, p)] }
      { d with calls := d.calls ++ [(k', q)] } := by
  refine ⟨h.inv, h.part, ?_, fun i k₀ p₀ hi hk => ?_, fun i k₀ p₀ hi hk => ?_⟩
  · rw [List.length_append, List.length_append, h.length]
    rfl
  · rcases Nat.lt_trichotomy i c.calls.length with hlt | rfl | hgt
    · rw [List.getElem?_append_left hlt] at hi
      rw [List.getElem?_append_left (h.length ▸ hlt)]
      exact h.own i k₀ p₀ hi hk
    · rw [List.getElem?_concat_length] at hi
      obtain ⟨rfl, rfl⟩ := Prod.mk.inj (Option.some.inj hi)
      obtain ⟨rfl, rfl⟩ := hq hk
      rw [← h.length, List.getElem?_concat_length]
      exact ⟨_, rfl, h.length ▸ hk ▸ hp⟩
    · rw [List.getElem?_eq_none (by rw [List.length_append]; exact hgt)] at hi
      cases hi
  · rcases Nat.lt_trichotomy i c.calls.length with hlt | rfl | hgt
    · rw [List.getElem?_append_left hlt] at hi
      rw [List.getElem?_append_left (h.length ▸ hlt)]
      exact h.others i k₀ p₀ hi hk
    · rw [List.getElem?_concat_length] at hi
      obtain ⟨rfl, rfl⟩ := Prod.mk.inj (Option.some.inj hi)
      rw [← h.length, List.getElem?_concat_length]
      exact ⟨congrArg some (hidle hk), _, h.length ▸ hp⟩
    · rw [List.getElem?_eq_none (by rw [List.length_append]; exact hgt)] at hi
      cases hi

section

variable {k : C} {l : L} {e : E} {ready : S → Bool} {eff : E → S → S}
  {next : E → S → Prog L E S X A}

/-- A call of the part executes a statement: so it does in the part. -/
theorem Seen.exec_own (h : K.Seen home idle b c d)
    (hadm : ∀ i l e s v, K.part b s v → sys.adm i l e s = true → sys.adm i l e v = true)
    (hci : c.calls[i]? = some (k, .stmt l ready eff next)) (hk : home k = b)
    (hready : ready c.st = true) (ha : sys.adm i l e c.st = true)
    (hc : K.cond i l e c.st (eff e c.st)) :
    ∃ d', sys.step d (.exec i e) = some d' ∧
      K.Seen home idle b ⟨eff e c.st, c.calls.set i (k, next e c.st)⟩ d' := by
  obtain ⟨q, hdi, ready', eff', next', rfl, hwaits, hstmt⟩ := h.own i k _ hci hk
  obtain ⟨hstep, hnext⟩ := hstmt e c.st d.st h.inv h.part hready hc
  have hready' : ready' d.st = true := (hwaits c.st d.st h.inv h.part).1 hready
  have hi : i < c.calls.length := (List.getElem?_eq_some_iff.mp hci).1
  have hi' : i < d.calls.length := h.length ▸ hi
  refine ⟨⟨eff' e d.st, d.calls.set i (k, next' e d.st)⟩, ?_, hstep.inv, hstep.own, ?_,
    fun j k₀ p₀ hj hk₀ => ?_, fun j k₀ p₀ hj hk₀ => ?_⟩
  · simp only [System.step, hdi, hready', hadm i l e _ _ h.part ha, Bool.and_self, if_true]
  · rw [List.length_set, List.length_set, h.length]
  · by_cases hji : i = j
    · subst hji
      rw [List.getElem?_set_self hi] at hj
      obtain ⟨rfl, rfl⟩ := Prod.mk.inj (Option.some.inj hj)
      exact ⟨_, List.getElem?_set_self hi', hnext⟩
    · rw [List.getElem?_set_ne hji] at hj ⊢
      exact h.own j k₀ p₀ hj hk₀
  · have hji : i ≠ j := by
      rintro rfl
      rw [List.getElem?_set_self hi] at hj
      obtain ⟨rfl, -⟩ := Prod.mk.inj (Option.some.inj hj)
      exact hk₀ hk
    rw [List.getElem?_set_ne hji] at hj ⊢
    exact h.others j k₀ p₀ hj hk₀

/-- A call of another part executes a statement: nothing happens in this one. -/
theorem Seen.exec_other (h : K.Seen home idle b c d)
    (hci : c.calls[i]? = some (k, .stmt l ready eff next)) (hk : home k ≠ b)
    (hready : ready c.st = true) (hc : K.cond i l e c.st (eff e c.st)) :
    K.Seen home idle b ⟨eff e c.st, c.calls.set i (k, next e c.st)⟩ d := by
  obtain ⟨hidle, q, ready', eff', next', rfl, -, hstmt⟩ := h.others i k _ hci hk
  obtain ⟨w, hw⟩ := K.total (home k) c.st h.inv
  obtain ⟨hstep, hnext⟩ := hstmt e c.st w h.inv hw hready hc
  have hi : i < c.calls.length := (List.getElem?_eq_some_iff.mp hci).1
  refine ⟨hstep.inv, hstep.others b hk.symm _ h.part, ?_, fun j k₀ p₀ hj hk₀ => ?_,
    fun j k₀ p₀ hj hk₀ => ?_⟩
  · rw [List.length_set, h.length]
  · have hji : i ≠ j := by
      rintro rfl
      rw [List.getElem?_set_self hi] at hj
      obtain ⟨rfl, -⟩ := Prod.mk.inj (Option.some.inj hj)
      exact hk hk₀
    rw [List.getElem?_set_ne hji] at hj
    exact h.own j k₀ p₀ hj hk₀
  · by_cases hji : i = j
    · subst hji
      rw [List.getElem?_set_self hi] at hj
      obtain ⟨rfl, rfl⟩ := Prod.mk.inj (Option.some.inj hj)
      exact ⟨hidle, _, hnext⟩
    · rw [List.getElem?_set_ne hji] at hj
      exact h.others j k₀ p₀ hj hk₀

end

/-- What a call has ended with on the whole state, it has ended with in its part. -/
theorem Seen.result (h : K.Seen home idle b c d) {k : C} {p : Prog L E S X A}
    (hi : c.calls[i]? = some (k, p)) (hk : home k = b) : d.result? i = c.result? i := by
  obtain ⟨q, hq, hfollows⟩ := h.own i k p hi hk
  unfold Config.result?
  rw [hi, hq]
  cases p with
  | done r =>
      obtain ⟨r', rfl, hr⟩ := hfollows
      exact congrArg some (sameResult_eq hr)
  | stmt l ready eff next =>
      obtain ⟨ready', eff', next', rfl, -⟩ := hfollows
      rfl

/-- What a call executes next in its part, it can execute on the whole state if the other parts are
calm. -/
theorem Seen.exec_whole (h : K.Seen home idle b c d) {i : Nat} {e : E} {k : C} {p : Prog L E S X A}
    {d' : Config L E S X C A} (hci : c.calls[i]? = some (k, p)) (hk : home k = b)
    (halone : K.Alone b c.st) (hadm : ∀ l, c.label? i = some l → sys.adm i l e c.st = true)
    (hd : sys.step d (.exec i e) = some d') : ∃ c', sys.step c (.exec i e) = some c' := by
  obtain ⟨q, hdi, hfollows⟩ := h.own i k p hci hk
  obtain ⟨k', l', ready', eff', next', hdi', hready', -, -⟩ := System.step_exec hd
  obtain ⟨rfl, rfl⟩ := Prod.mk.inj (Option.some.inj (hdi.symm.trans hdi'))
  cases p with
  | done r =>
      obtain ⟨r', hr, -⟩ := hfollows
      cases hr
  | stmt l ready eff next =>
      obtain ⟨ready'', eff'', next'', hq, hwaits, -⟩ := hfollows
      obtain ⟨rfl, rfl, rfl, rfl⟩ := Prog.stmt.inj hq
      have hready : ready c.st = true := (hwaits c.st d.st h.inv h.part).2 halone hready'
      have hadm' : sys.adm i l' e c.st = true := hadm l' (by simp [Config.label?, hci])
      exact ⟨_, by simp only [System.step, hci, hready, hadm', Bool.and_self, if_true]; rfl⟩

/-- **A run, seen in one part, is a run there.** -/
theorem exec_part [DecidableEq τ] {name : Nat → Option C}
    (hbody : ∀ i k, name i = some k →
      K.Follows (home k) i (fun a a' => a' = a) (sys.body k) (sys.body k))
    (hadm : ∀ i l e s v, K.part b s v → sys.adm i l e s = true → sys.adm i l e v = true)
    (hseen : K.Seen home idle b c d)
    (hcond : sys.Along (fun c m => ∀ c', sys.step c m = some c' →
      c.Meets (fun i l e s => K.cond i l e s c'.st) m) c ms)
    (h : sys.exec c ms = some c') (hname : c'.Named name) :
    ∃ d', sys.exec d (seenBy home idle b (c.calls.map Prod.fst) ms) = some d' ∧
      K.Seen home idle b c' d' := by
  induction ms generalizing c d with
  | nil =>
      obtain rfl := Option.some.inj h
      exact ⟨d, rfl, hseen⟩
  | cons m ms ih =>
      obtain ⟨c₁, h₁, h₂⟩ := System.exec_cons h
      cases m with
      | call k =>
          obtain rfl := System.step_call h₁
          have hk : name c.calls.length = some k :=
            System.named_of_exec h₂ hname _ k _ List.getElem?_concat_length
          -- The part runs the call itself where it is at home, and the idle one elsewhere.
          have hown : home k = b → (if home k = b then k else idle) = k ∧
              sys.body (if home k = b then k else idle) = sys.body k := fun hk => by
            rw [if_pos hk]
            exact ⟨rfl, rfl⟩
          have hseen₁ := hseen.call (hbody _ k hk) hown fun hk => if_neg hk
          obtain ⟨d', hd', hlast⟩ := ih hseen₁ (hcond.2 _ h₁) h₂
          refine ⟨d', ?_, hlast⟩
          rw [List.map_append] at hd'
          exact hd'
      | exec j e =>
          obtain ⟨k, l, ready, eff, next, hcj, hready, ha, rfl⟩ := System.step_exec h₁
          have hc := hcond.1 _ h₁ j e rfl l (by simp [Config.label?, hcj])
          have hj : (c.calls.map Prod.fst)[j]? = some k := by rw [List.getElem?_map, hcj]; rfl
          have hcalls : (c.calls.set j (k, next e c.st)).map Prod.fst = c.calls.map Prod.fst := by
            obtain ⟨hlt, hget⟩ := List.getElem?_eq_some_iff.mp hj
            rw [List.map_set]
            exact (congrArg (List.set _ j) hget.symm).trans (List.set_getElem_self hlt)
          by_cases hk : home k = b
          · obtain ⟨d₁, hd₁, hseen₁⟩ := hseen.exec_own hadm hcj hk hready ha hc
            obtain ⟨d', hd', hlast⟩ := ih hseen₁ (hcond.2 _ h₁) h₂
            refine ⟨d', ?_, hlast⟩
            rw [hcalls] at hd'
            rw [seenBy, hj, Option.any_some, if_pos (decide_eq_true hk), System.exec, hd₁]
            exact hd'
          -- A statement of another part's call is no step of this one.
          · obtain ⟨d', hd', hlast⟩ := ih (hseen.exec_other hcj hk hready hc) (hcond.2 _ h₁) h₂
            refine ⟨d', ?_, hlast⟩
            rw [hcalls] at hd'
            rw [seenBy, hj, Option.any_some, if_neg (by simpa using hk)]
            exact hd'

/-- **What happens in the other parts is not seen.**  Two runs, from states that agree on a part,
in which its calls execute the same statements with the same inputs: the part is the same at the
end, and its calls have the same results. -/
theorem exec_apart [DecidableEq τ] {K' : Parts τ L E S} {c₁ c₂ d : Config L E S X C A}
    {ms₁ ms₂ : List (Move E C)} (hidle : home idle ≠ b)
    (h₁ : ∃ d', sys.exec d (seenBy home idle b [] ms₁) = some d' ∧ K.Seen home idle b c₁ d')
    (h₂ : ∃ d', sys.exec d (seenBy home idle b [] ms₂) = some d' ∧ K'.Seen home idle b c₂ d')
    (hms : seenBy home idle b [] ms₁ = seenBy home idle b [] ms₂) :
    (∃ v, K.part b c₁.st v ∧ K'.part b c₂.st v) ∧ ∀ i k p, c₁.calls[i]? = some (k, p) →
      home k = b → c₂.result? i = c₁.result? i := by
  obtain ⟨d₁, hd₁, hs₁⟩ := h₁
  obtain ⟨d₂, hd₂, hs₂⟩ := h₂
  rw [hms] at hd₁
  obtain rfl := Option.some.inj (hd₁.symm.trans hd₂)
  refine ⟨⟨_, hs₁.part, hs₂.part⟩, fun i k p hi hk => ?_⟩
  obtain ⟨q, hdi, -⟩ := hs₁.own i k p hi hk
  have hlt : i < c₂.calls.length := by
    rw [← hs₂.length]
    exact (List.getElem?_eq_some_iff.mp hdi).1
  obtain ⟨⟨k₂, p₂⟩, hi₂⟩ : ∃ x, c₂.calls[i]? = some x := ⟨_, List.getElem?_eq_getElem hlt⟩
  by_cases hk₂ : home k₂ = b
  · exact (hs₂.result hi₂ hk₂).symm.trans (hs₁.result hi hk)
  · have hfst := (hs₂.others i k₂ p₂ hi₂ hk₂).1
    rw [hdi] at hfst
    exact absurd (Option.some.inj hfst ▸ hk) hidle

/-! ### A call on its own -/

/-- The call `k` comes in and executes statements on the inputs `es`. -/
def single (k : C) (es : List E) : List (Move E C) := .call k :: es.map (.exec 0)

theorem seenBy_single [DecidableEq τ] {k : C} {es : List E} :
    seenBy home idle b [] (single k es) = if home k = b then single k es else [.call idle] := by
  have hrest : ∀ es : List E, seenBy home idle b [k] (es.map (.exec 0)) =
      if home k = b then es.map (.exec 0) else [] := by
    intro es
    induction es with
    | nil => exact (ite_self _).symm
    | cons e es ih =>
        rw [List.map_cons, seenBy, ih]
        by_cases hk : home k = b
        · simp [hk]
        · simp [hk]
  rw [single, seenBy, List.nil_append, hrest]
  split <;> rfl

/-- The call that has come in is call 0. -/
theorem calls_single {k : C} {es : List E} {s : S} (h : sys.exec (.start s) (single k es) = some c) :
    ∃ p, c.calls[0]? = some (k, p) := by
  obtain ⟨c₁, h₁, h₂⟩ := System.exec_cons h
  obtain rfl := System.step_call h₁
  have hname : c.names 0 = some k := System.named_of_exec h₂ c.named_names 0 k _ rfl
  obtain ⟨⟨k', p⟩, hp, rfl⟩ := Option.map_eq_some_iff.mp hname
  exact ⟨p, hp⟩

-- From here on the rules are used, and elaboration need not evaluate programs.
attribute [irreducible] Follows

end Parts

end Interleave
