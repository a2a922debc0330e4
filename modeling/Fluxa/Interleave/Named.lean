import Fluxa.Interleave.Contract

/-!
# Interleave — contracts that know the calls

A contract speaks of the number of a call.  Where what a call may do depends on what it is a call of, the contract is one for the calls of a given run: `name i` is call number `i`, and a run whose calls are those of `name` is sound as soon as each of these keeps to the contract.

**`Contract.holding`** asks besides that each statement of a call run where a fact about the call holds.  A fact that only the last statement of a call ends holds before the step with which the call ends (**`Contract.finishNamed`**).
-/

namespace Interleave

variable {L E S X C A : Type}

/-- The calls that have come in are those of `name`. -/
def Config.Named (name : Nat → Option C) (c : Config L E S X C A) : Prop :=
  ∀ i k p, c.calls[i]? = some (k, p) → name i = some k

/-- The calls that have come in. -/
def Config.names (c : Config L E S X C A) (i : Nat) : Option C := (c.calls[i]?).map (·.1)

theorem Config.named_names (c : Config L E S X C A) : c.Named c.names := by
  intro i k p h
  rw [names, h]
  rfl

namespace System

variable {sys : System L E S X C A} {name : Nat → Option C} {c d : Config L E S X C A}

/-- The calls of a configuration stay what they are. -/
theorem named_of_step {m : Move E C} (h : sys.step c m = some d) (hd : d.Named name) :
    c.Named name := by
  intro i k p hi
  have hlt : i < c.calls.length := (List.getElem?_eq_some_iff.mp hi).1
  cases m with
  | call k' =>
      obtain rfl := step_call h
      refine hd i k p ?_
      rw [List.getElem?_append_left hlt]
      exact hi
  | exec j e =>
      obtain ⟨k', l, ready, eff, next, hj, -, -, rfl⟩ := step_exec h
      by_cases hji : j = i
      · subst hji
        obtain ⟨rfl, -⟩ := Prod.mk.inj (Option.some.inj (hi.symm.trans hj))
        exact hd j k _ (List.getElem?_set_self hlt)
      · exact hd i k p ((List.getElem?_set_ne hji).trans hi)

theorem named_of_exec {ms : List (Move E C)} (h : sys.exec c ms = some d) (hd : d.Named name) :
    c.Named name := by
  induction ms generalizing c with
  | nil => exact Option.some.inj h ▸ hd
  | cons m ms ih =>
      obtain ⟨c₁, h₁, h₂⟩ := exec_cons h
      exact named_of_step h₁ (ih h₂)

/-- A run has the calls of its end throughout. -/
theorem along_named {ms : List (Move E C)} (h : sys.exec c ms = some d) (hd : d.Named name) :
    sys.Along (fun c m => ∀ c', sys.step c m = some c' → c'.Named name) c ms := by
  induction ms generalizing c with
  | nil => trivial
  | cons m ms ih =>
      obtain ⟨c₁, h₁, h₂⟩ := exec_cons h
      refine ⟨fun c₂ hc₂ => ?_, fun c₂ hc₂ => ?_⟩
      · obtain rfl := Option.some.inj (h₁.symm.trans hc₂)
        exact named_of_exec h₂ hd
      · obtain rfl := Option.some.inj (h₁.symm.trans hc₂)
        exact ih h₂

/-- What each step of a run does, it does with all that follow it. -/
theorem along_last {R : S → S → Prop} (hrefl : ∀ s, R s s)
    (htrans : ∀ s t u, R s t → R t u → R s u) {ms : List (Move E C)}
    (h : sys.exec c ms = some d)
    (hsteps : sys.Along (fun c m => ∀ c', sys.step c m = some c' → R c.st c'.st) c ms) :
    R c.st d.st ∧
      sys.Along (fun c m => ∀ c', sys.step c m = some c' → R c'.st d.st) c ms := by
  induction ms generalizing c with
  | nil =>
      obtain rfl := Option.some.inj h
      exact ⟨hrefl _, trivial⟩
  | cons m ms ih =>
      obtain ⟨c₁, h₁, h₂⟩ := exec_cons h
      obtain ⟨hlast, hrest⟩ := ih h₂ (hsteps.2 c₁ h₁)
      refine ⟨htrans _ _ _ (hsteps.1 c₁ h₁) hlast, fun c₂ hc₂ => ?_, fun c₂ hc₂ => ?_⟩
      · obtain rfl := Option.some.inj (h₁.symm.trans hc₂)
        exact hlast
      · obtain rfl := Option.some.inj (h₁.symm.trans hc₂)
        exact hrest

end System

namespace Contract

variable {K : Contract L E S} {sys : System L E S X C A} {name : Nat → Option C}
  {pre : Nat → S → Prop} {post : Nat → C → Except X A → S → Prop}
  {cond : Nat → L → E → S → Prop} (hpre : ∀ i, K.Stable i (pre i))
  (hbody : ∀ i k, name i = some k → K.Triple i (pre i) (sys.body k) (post i k))
  (hadm : ∀ i l e s, sys.adm i l e s = true → cond i l e s → K.adm i l e s)
include hpre hbody hadm

theorem keepsNamed_step {c d : Config L E S X C A} {m : Move E C}
    (hc : KeepsFrom K pre post c) (hm : c.Meets cond m) (hd : sys.step c m = some d)
    (hn : d.Named name) : KeepsFrom K pre post d := by
  refine keepsFrom_step_of hpre (fun k he => hbody _ k ?_) hadm hc hm hd
  subst he
  obtain rfl := System.step_call hd
  exact hn _ k _ List.getElem?_concat_length

variable {s : S} (hs : K.inv s) (hfirst : ∀ i, pre i s) {c : Config L E S X C A}
  {ms : List (Move E C)} (hcond : sys.Along (fun d m => d.Meets cond m) (.start s) ms)
  (h : sys.exec (.start s) ms = some c) (hc : c.Named name)
include hs hfirst hcond h hc

/-- Soundness: if each call of the run keeps to the contract on its own, the run does. -/
theorem soundNamed : KeepsFrom K pre post c :=
  System.exec_invariant (I := KeepsFrom K pre post)
    (fun _ _ d hk hm hd => keepsNamed_step hpre hbody hadm hk hm.1 hd (hm.2 d hd))
    (keepsFrom_start hs hfirst) (hcond.and (System.along_named h hc)) h

/-- The calls keep to the contract in every state of the run. -/
theorem throughNamed : sys.Through (KeepsFrom K pre post) (.start s) ms :=
  System.through_invariant
    (fun _ _ d hk hm hd => keepsNamed_step hpre hbody hadm hk hm.1 hd (hm.2 d hd))
    (keepsFrom_start hs hfirst) (hcond.and (System.along_named h hc))

/-- Every statement of the run is one that the contract allows, where its invariant holds. -/
theorem alongNamed : sys.Along (fun d m => ∀ d', sys.step d m = some d' →
    d.Meets (fun i l e s => K.inv s ∧ K.guar i l e s d'.st) m) (.start s) ms := by
  refine (hcond.and (System.along_named h hc)).of_invariant (I := KeepsFrom K pre post)
    (fun _ _ d hk hm hd => keepsNamed_step hpre hbody hadm hk hm.1 hd (hm.2 d hd))
    (fun c m d hk hm hd d' hd' => ?_) (keepsFrom_start hs hfirst) h
  rintro i e rfl l hl
  exact ⟨hk.1.1, hk.1.guar_of_meets hadm hm.1 hd' hl⟩

omit hcond h hc in
/-- With its last statement a call does what the contract allows, and ends as it should. -/
theorem finishNamed {d : Config L E S X C A} {i : Nat} {e : E} {k : C} {r : Except X A}
    (hcond : sys.Along (fun d m => d.Meets cond m) (.start s) (ms ++ [.exec i e]))
    (h : sys.exec (.start s) ms = some c) (hd : sys.step c (.exec i e) = some d)
    (hn : d.Named name) (hr : d.calls[i]? = some (k, .done r)) :
    (∃ l, K.guar i l e c.st d.st) ∧ post i k r d.st := by
  have hrun : sys.exec (.start s) (ms ++ [.exec i e]) = some d := by
    rw [System.exec_append, h]
    simp only [Option.bind_some, System.exec, hd]
  have hk := soundNamed hpre hbody hadm hs hfirst hcond hrun hn
  obtain ⟨l, hl, -⟩ := label_of_step hd
  have hg := ((alongNamed hpre hbody hadm hs hfirst hcond hrun hn).last h d hd i e rfl l hl).2
  exact ⟨⟨l, hg⟩, sat_done.mp (hk.1.2 i k _ hr) d.st .refl hk.1.1⟩

omit hpre hbody hadm hs hfirst hcond h hc

/-! ### Statements that run where a fact holds -/

/-- The contract under which each statement of call `i` runs where `F i` holds. -/
def holding (K : Contract L E S) (F : Nat → S → Prop) : Contract L E S where
  inv := K.inv
  guar i l e s s' := K.guar i l e s s' ∧ F i s
  adm := K.adm
  guar_inv hi hg := K.guar_inv hi hg.1

theorem rely_of_holding {F : Nat → S → Prop} {i : Nat} {s s' : S}
    (h : (K.holding F).rely i s s') : K.rely i s s' := by
  induction h with
  | refl => exact .refl
  | tail _ hbc ih =>
      obtain ⟨hi, j, l, e, hj, hg⟩ := hbc
      exact ih.tail ⟨hi, j, l, e, hj, hg.1⟩

/-- A program that makes only changes `W`, which keep the fact, runs where the fact holds. -/
theorem Triple.holding {F : Nat → S → Prop} {i : Nat} {W : L → E → S → S → Prop} {P : S → Prop}
    {p : Prog L E S X A} {Q : Except X A → S → Prop} (hF : (K.within i W).Lasting (F i))
    (h : (K.within i W).Triple i P p Q) :
    (K.holding F).Triple i (fun s => P s ∧ F i s) p fun r s => Q r s ∧ F i s := by
  rintro s hi ⟨hP, hFs⟩
  replace h := h s hi hP
  clear hP hi
  induction p generalizing s with
  | done r =>
      refine sat_done.mpr fun t ht hi => ?_
      have hr := (rely_within (W := W)).mpr (rely_of_holding ht)
      exact ⟨sat_done.mp h t hr hi, (hF.stable i).rely hr hFs⟩
  | stmt l ready eff next ih =>
      refine sat_stmt.mpr fun t e ht hi hy ha => ?_
      have hr := (rely_within (W := W)).mpr (rely_of_holding ht)
      obtain ⟨hg, hn⟩ := sat_stmt.mp h t e hr hi hy ha
      have hFt := (hF.stable i).rely hr hFs
      exact ⟨⟨hg.1, hFt⟩, ih e t _ (hF i l e t _ hi hFt hg) hn⟩

end Contract

end Interleave
