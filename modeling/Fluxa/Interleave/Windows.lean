import Fluxa.Interleave.Contract
import Fluxa.Interleave.Monitor

/-!
# Interleave — windows

A call that looks before it writes relies, when it writes, on what it has seen.  From its look on its *window* is open; another call that changes what the look was at disturbs it.  A **`Watch`** says which statements of a call are looks, which changes disturb the others, and which changes are made in reliance on a look.  The run is **`Scheduled`** if no call makes such a change in a window that has been disturbed: a condition on the order of the statements alone.

Between its look and its write a call may then count on the others not to disturb it (**`Contract.calm`**).  **`Contract.scheduled_through`** puts this together: if every call keeps to the contract as long as it is not disturbed, from its start and from each of its looks, then a scheduled run does, whatever the calls do in disturbed windows that is not in reliance on a look.
-/

namespace Interleave

variable {L E S X C A B : Type}

/-- The looks of a call, by the numbers of its statements, the changes that disturb what the others
have seen, and the changes that rely on a look. -/
structure Watch (S : Type) where
  looks : Nat → Bool
  disturbs : S → S → Bool
  relies : S → S → Bool

/-- What is noted of a call: how many statements it has executed, and whether another call has
disturbed it since its last look, or its start. -/
structure Window where
  executed : Nat
  disturbed : Bool

namespace Watch

variable (W : Watch S) (sys : System L E S X C A)

/-- The notes of a call that has just come in. -/
def fresh : Window := ⟨0, false⟩

/-- The notes after call `j` has changed `s` to `s'`. -/
def after (s s' : S) (j : Nat) (g : Nat → Window) : Nat → Window := fun i =>
  if i = j then ⟨(g i).executed + 1, (g i).disturbed && !W.looks ((g i).executed + 1)⟩
  else ⟨(g i).executed, (g i).disturbed || W.disturbs s s'⟩

/-- The notes after a move. -/
def note (c : Config L E S X C A) : Move E C → (Nat → Window) → Nat → Window
  | .call _, g => fun i => if i = c.calls.length then fresh else g i
  | .exec j e, g => (sys.step c (.exec j e)).elim g fun d => W.after c.st d.st j g

/-- A change in reliance on a look is made in a window that nobody has disturbed. -/
def Undisturbed (g : Nat → Window) (c : Config L E S X C A) : Move E C → Prop
  | .call _ => True
  | .exec j e => ∀ d, sys.step c (.exec j e) = some d → W.relies c.st d.st = true →
      (g j).disturbed = false

instance (g : Nat → Window) (c : Config L E S X C A) :
    ∀ m : Move E C, Decidable (W.Undisturbed sys g c m)
  | .call _ => .isTrue trivial
  | .exec j e =>
    match h : sys.step c (.exec j e) with
    | none => .isTrue fun d hd => by
        rw [h] at hd
        cases hd
    | some d => decidable_of_iff (W.relies c.st d.st = true → (g j).disturbed = false)
        ⟨fun hr d' hd => by
          rw [h] at hd
          cases hd
          exact hr, fun hu => hu d h⟩

/-- The changes of the run that rely on a look are made in windows that nobody has disturbed. -/
def Scheduled (c : Config L E S X C A) (ms : List (Move E C)) : Prop :=
  sys.Watched (W.note sys) (W.Undisturbed sys) (fun _ => fresh) c ms

instance (c : Config L E S X C A) (ms : List (Move E C)) : Decidable (W.Scheduled sys c ms) :=
  inferInstanceAs (Decidable (sys.Watched _ _ _ c ms))

end Watch

namespace Contract

variable {K J : Contract L E S} {W : Watch S} {i : Nat}

/-- The contract under which nobody disturbs call `i`. -/
def calm (K : Contract L E S) (W : Watch S) (i : Nat) : Contract L E S where
  inv := K.inv
  guar j l e s s' := K.guar j l e s s' ∧ (j ≠ i → W.disturbs s s' = false)
  adm := K.adm
  guar_inv hi hg := K.guar_inv hi hg.1

/-- What nobody makes false is not made false where nobody disturbs. -/
theorem Stable.calm {j : Nat} {P : S → Prop} (h : K.Stable i P) : (K.calm W j).Stable i P :=
  fun s s' k l e hi hs hk hg => h s s' k l e hi hs hk hg.1

theorem Lasting.calm {j : Nat} {P : S → Prop} (h : K.Lasting P) : (K.calm W j).Lasting P :=
  fun k l e s s' hi hs hg => h k l e s s' hi hs hg.1

/-- What only a disturbance makes false is stable where nobody disturbs. -/
theorem stable_calm {P : S → Prop} (h : ∀ s s' j l e, K.inv s → P s → K.guar j l e s s' →
    W.disturbs s s' = false → P s') : (K.calm W i).Stable i P :=
  fun s s' j l e hi hs hj hg => h s s' j l e hi hs hg.1 (hg.2 hj)

/-- A program whose own changes keep to one contract keeps to another in which these changes are
allowed and the others' changes are among those of the first. -/
theorem Sat.transfer {p : Prog L E S X A} {Q : Except X A → S → Prop} {s : S}
    (h : J.Sat i p Q s) (hinv : ∀ s, K.inv s → J.inv s)
    (hadm : ∀ l e s, K.adm i l e s → J.adm i l e s)
    (hothers : ∀ j l e s s', j ≠ i → K.inv s → K.guar j l e s s' → J.guar j l e s s')
    (hown : ∀ l e s s', K.inv s → K.adm i l e s → J.guar i l e s s' → K.guar i l e s s') :
    K.Sat i p Q s := by
  have hother : K.Other i ≤ J.Other i := fun a b ⟨ha, j, l, e, hj, hg⟩ =>
    ⟨hinv a ha, j, l, e, hj, hothers j l e a b hj ha hg⟩
  have hrely : ∀ {s t}, K.rely i s t → J.rely i s t := fun {s t} =>
    Relation.ReflTransGen.mono hother s t
  induction p generalizing s with
  | done r => exact sat_done.mpr fun t ht hi => sat_done.mp h t (hrely ht) (hinv t hi)
  | stmt l ready eff next ih =>
      refine sat_stmt.mpr fun t e ht hi hy ha => ?_
      obtain ⟨hg, hn⟩ := sat_stmt.mp h t e (hrely ht) (hinv t hi) hy (hadm l e t ha)
      exact ⟨hown l e t _ hi ha hg, ih e t hn⟩

theorem Triple.transfer {P : S → Prop} {p : Prog L E S X A} {Q : Except X A → S → Prop}
    (h : J.Triple i P p Q) (hinv : ∀ s, K.inv s → J.inv s)
    (hadm : ∀ l e s, K.adm i l e s → J.adm i l e s)
    (hothers : ∀ j l e s s', j ≠ i → K.inv s → K.guar j l e s s' → J.guar j l e s s')
    (hown : ∀ l e s s', K.inv s → K.adm i l e s → J.guar i l e s s' → K.guar i l e s s') :
    K.Triple i P p Q :=
  fun s hi hs => (h s (hinv s hi) hs).transfer hinv hadm hothers hown

/-- A program that keeps to the contract keeps to it where nobody disturbs. -/
theorem Sat.calm {p : Prog L E S X A} {Q : Except X A → S → Prop} {s : S}
    (h : K.Sat i p Q s) : (K.calm W i).Sat i p Q s :=
  h.transfer (fun _ hi => hi) (fun _ _ _ ha => ha) (fun _ _ _ _ _ _ _ hg => hg.1)
    fun _ _ _ _ _ _ hg => ⟨hg, fun hne => absurd rfl hne⟩

theorem Triple.calm {P : S → Prop} {p : Prog L E S X A} {Q : Except X A → S → Prop}
    (h : K.Triple i P p Q) : (K.calm W i).Triple i P p Q :=
  fun s hi hs => (h s hi hs).calm

/-- The contract that allows everything. -/
def anything : Contract L E S where
  inv _ := True
  guar _ _ _ _ _ := True
  adm _ _ _ _ := True
  guar_inv _ _ := trivial

theorem anything_safe {p : Prog L E S X A} : (anything : Contract L E S).Safe i p := by
  intro s hi _
  clear hi
  induction p generalizing s with
  | done r => exact sat_done.mpr fun _ _ _ => trivial
  | stmt l ready eff next ih => exact sat_stmt.mpr fun t e _ _ _ _ => ⟨trivial, ih e t _⟩

/-! ### After a look -/

/-- After each look that is still to come the program, which has executed `n` statements, keeps to
the contract as long as nobody disturbs it. -/
def FromLooks (K : Contract L E S) (W : Watch S) (i : Nat) : Nat → Prog L E S X A → S → Prop
  | _, .done _, _ => True
  | n, .stmt l ready eff next, s => ∀ t e, K.rely i s t → K.inv t → ready t = true →
      K.adm i l e t → K.inv (eff e t) →
      (W.looks (n + 1) = true → (K.calm W i).Sat i (next e t) (fun _ _ => True) (eff e t)) ∧
      FromLooks K W i (n + 1) (next e t) (eff e t)

theorem FromLooks.rely {n : Nat} {p : Prog L E S X A} {s s' : S} (h : K.FromLooks W i n p s)
    (hr : K.rely i s s') : K.FromLooks W i n p s' := by
  cases p with
  | done r => trivial
  | stmt l ready eff next => exact fun t e ht => h t e (hr.trans ht)

/-- A program that keeps to the contract anyhow. -/
theorem Sat.fromLooks {n : Nat} {p : Prog L E S X A} {Q : Except X A → S → Prop} {s : S}
    (h : K.Sat i p Q s) : K.FromLooks W i n p s := by
  induction p generalizing n s with
  | done r => trivial
  | stmt l ready eff next ih =>
      intro t e ht hi hy ha _
      obtain ⟨-, hn⟩ := sat_stmt.mp h t e ht hi hy ha
      exact ⟨fun _ => hn.calm.conseq fun _ _ _ _ => trivial, ih e t hn⟩

/-- No look is to come. -/
theorem fromLooks_of_none {n : Nat} (hn : ∀ m, n < m → W.looks m = false) {p : Prog L E S X A}
    {s : S} : K.FromLooks W i n p s := by
  induction p generalizing n s with
  | done r => trivial
  | stmt l ready eff next ih =>
      refine fun t e _ _ _ _ _ => ⟨fun h => ?_, ih e t fun m hm => hn m (Nat.lt_of_succ_lt hm)⟩
      rw [hn (n + 1) (Nat.lt_succ_self n)] at h
      cases h

/-- The next statement is the last look, if one at all. -/
theorem fromLooks_of_triple {n : Nat} {P : S → Prop} {p : Prog L E S X A} {s : S}
    (hn : ∀ m, n + 1 < m → W.looks m = false) (hP : K.Stable i P)
    (hp : (K.calm W i).Triple i P p fun _ _ => True) (hs : P s) : K.FromLooks W i n p s := by
  cases p with
  | done r => trivial
  | stmt l ready eff next =>
      refine fun t e ht hi hy ha _ => ⟨fun _ => ?_, fromLooks_of_none hn⟩
      exact (sat_stmt.mp (hp t hi (hP.rely ht hs)) t e .refl hi hy ha).2

/-- The next statement is the last look, if one at all, and what follows it needs nothing. -/
theorem fromLooks_of_rest {n : Nat} {l : L} {ready : S → Bool} {run : E → S → Except X A × S}
    {f : A → Prog L E S X B} {s : S} (hn : ∀ m, n + 1 < m → W.looks m = false)
    (hf : ∀ a, (K.calm W i).Safe i (f a)) :
    K.FromLooks W i n ((Prog.atomic l ready run).bind f) s := by
  refine fun t e _ _ _ _ hi' => ⟨fun _ => ?_, fromLooks_of_none hn⟩
  have hrest : (K.calm W i).Safe i ((Prog.done (run e t).1).bind f) := .bind .done hf
  exact hrest (run e t).2 hi' trivial

/-- The next statement is a look, if one at all, and so may be what follows it. -/
theorem fromLooks_bind {n : Nat} {l : L} {ready : S → Bool} {run : E → S → Except X A × S}
    {f : A → Prog L E S X B} {P : S → Prop} {Q : A → S → Prop} {s : S} (hP : K.Stable i P)
    (hcalm : (K.calm W i).Triple i P ((Prog.atomic l ready run).bind f) fun _ _ => True)
    (hp : K.Triple i P (Prog.atomic l ready run) (onOk Q))
    (hf : ∀ a t, Q a t → K.FromLooks W i (n + 1) (f a) t) (hs : P s) :
    K.FromLooks W i n ((Prog.atomic l ready run).bind f) s := by
  refine fun t e ht hi hy ha _ => ⟨fun _ => ?_, ?_⟩
  · exact (sat_stmt.mp (hcalm t hi (hP.rely ht hs)) t e .refl hi hy ha).2
  · obtain ⟨-, hq⟩ := Triple.of_atomic hp hi (hP.rely ht hs) hy ha
    cases hr : (run e t).1 with
    | error x =>
        simp only [hr, Prog.bind]
        trivial
    | ok a =>
        simp only [hr, Prog.bind, onOk_ok] at hq ⊢
        exact hf a _ hq

/-- What comes at the end and needs nothing does not matter. -/
theorem FromLooks.bind {n : Nat} {p : Prog L E S X A} {f : A → Prog L E S X B} {s : S}
    (h : K.FromLooks W i n p s) (hcalm : ∀ a, (K.calm W i).Safe i (f a))
    (hf : ∀ a m t, K.FromLooks W i m (f a) t) : K.FromLooks W i n (p.bind f) s := by
  induction p generalizing n s with
  | done r => cases r with
    | ok a => exact hf a n s
    | error x => trivial
  | stmt l ready eff next ih =>
      intro t e ht hi hy ha hi'
      obtain ⟨hlook, hn⟩ := h t e ht hi hy ha hi'
      exact ⟨fun hl => Sat.bind hi' (hlook hl) (fun a u hu _ => hcalm a u hu trivial)
        fun _ _ _ _ => trivial, ih e t hn⟩

/-! ### Scheduled runs -/

/-- In configuration `c`, of which `g` is noted, every call keeps to `J` anyhow; it keeps to `K`
if it has not been disturbed, and from each of its looks on. -/
structure KeepsWatch (K J : Contract L E S) (W : Watch S) (g : Nat → Window)
    (c : Config L E S X C A) : Prop where
  inv : K.inv c.st
  base : Keeps J (fun _ _ _ _ => True) c
  looks : ∀ i k p, c.calls[i]? = some (k, p) → K.FromLooks W i (g i).executed p c.st
  calm : ∀ i k p, c.calls[i]? = some (k, p) → (g i).disturbed = false →
    (K.calm W i).Sat i p (fun _ _ => True) c.st

theorem keepsWatch_start {s : S} (hs : K.inv s) (hsJ : J.inv s) :
    KeepsWatch K J W (fun _ => Watch.fresh) (.start s : Config L E S X C A) :=
  ⟨hs, keeps_start hsJ, fun _ _ _ h => by simp [Config.start] at h,
    fun _ _ _ h => by simp [Config.start] at h⟩

section Scheduled

variable {sys : System L E S X C A} {P : Nat → L → E → S → Prop}
  (hbase : ∀ i k, J.Safe i (sys.body k))
  (hcalm : ∀ i k, (K.calm W i).Safe i (sys.body k))
  (hlooks : ∀ i k s, K.inv s → K.FromLooks W i 0 (sys.body k) s)
  (hadmJ : ∀ i l e s, sys.adm i l e s = true → J.adm i l e s)
  (hadm : ∀ i l e s, sys.adm i l e s = true → P i l e s → K.adm i l e s)
  (hrest : ∀ i l e s s', K.inv s → K.adm i l e s → J.guar i l e s s' → W.relies s s' = false →
    K.guar i l e s s')
include hbase hcalm hlooks hadmJ hadm hrest

omit hbase hcalm hlooks in
/-- A statement that meets the schedule is one that the contract allows. -/
theorem KeepsWatch.guar {g : Nat → Window} {c d : Config L E S X C A} {j : Nat} {e : E}
    (hc : KeepsWatch K J W g c) (hW : W.Undisturbed sys g c (.exec j e))
    (hm : c.Meets P (.exec j e)) (hd : sys.step c (.exec j e) = some d) {l : L}
    (hl : c.label? j = some l) : K.guar j l e c.st d.st := by
  have hrelies := hW d hd
  obtain ⟨k, l', ready, eff, next, hcj, hy, hya, rfl⟩ := System.step_exec hd
  obtain rfl : l' = l := by simpa [Config.label?, hcj] using hl
  have ha : K.adm j l' e c.st := hadm j l' e c.st hya (hm j e rfl l' hl)
  cases hdist : (g j).disturbed with
  | false => exact (sat_stmt.mp (hc.calm j k _ hcj hdist) c.st e .refl hc.inv hy ha).1.1
  | true =>
      -- The statement is not one that relies on the look.
      have hg : J.guar j l' e c.st (eff e c.st) :=
        (sat_stmt.mp (hc.base.2 j k _ hcj) c.st e .refl hc.base.1 hy (hadmJ j l' e c.st hya)).1
      refine hrest j l' e c.st _ hc.inv ha hg ?_
      rw [← Bool.not_eq_true]
      exact fun hr => absurd (hdist.symm.trans (hrelies hr)) (by simp)

theorem keepsWatch_step {g : Nat → Window} {c d : Config L E S X C A} {m : Move E C}
    (hc : KeepsWatch K J W g c) (hW : W.Undisturbed sys g c m) (hm : c.Meets P m)
    (hd : sys.step c m = some d) : KeepsWatch K J W (W.note sys c m g) d := by
  have hbased : Keeps J (fun _ _ _ _ => True) d := keeps_step_all hbase hadmJ hc.base hd
  cases m with
  | call k =>
      obtain rfl := System.step_call hd
      -- A call that comes in has looked at nothing yet; the calls before it stay where they are.
      have old : ∀ {i k' p}, (c.calls ++ [(k, sys.body k)])[i]? = some (k', p) →
          (i ≠ c.calls.length ∧ c.calls[i]? = some (k', p)) ∨
            i = c.calls.length ∧ p = sys.body k := by
        intro i k' p hi
        rw [List.getElem?_append] at hi
        split at hi
        · exact .inl ⟨Nat.ne_of_lt ‹_›, hi⟩
        · rw [List.getElem?_singleton] at hi
          split at hi
          · cases hi
            exact .inr ⟨by omega, rfl⟩
          · cases hi
      refine ⟨hc.inv, hbased, fun i k' p hi => ?_, fun i k' p hi hdist => ?_⟩
      · rcases old hi with ⟨hne, hi⟩ | ⟨rfl, rfl⟩
        · simpa [Watch.note, hne] using hc.looks i k' p hi
        · simpa [Watch.note, Watch.fresh] using hlooks _ k c.st hc.inv
      · rcases old hi with ⟨hne, hi⟩ | ⟨rfl, rfl⟩
        · exact hc.calm i k' p hi (by simpa [Watch.note, hne] using hdist)
        · exact hcalm _ k c.st hc.inv trivial
  | exec j e =>
      have hnote : W.note sys c (.exec j e) g = W.after c.st d.st j g := by
        simp only [Watch.note, hd, Option.elim_some]
      obtain ⟨l, hl, -⟩ := label_of_step hd
      have hg : K.guar j l e c.st d.st :=
        hc.guar hadmJ hadm hrest hW hm hd hl
      rw [hnote]
      obtain ⟨k, l', ready, eff, next, hcj, hy, hya, rfl⟩ := System.step_exec hd
      obtain rfl : l' = l := by simpa [Config.label?, hcj] using hl
      have ha : K.adm j l' e c.st := hadm j l' e c.st hya (hm j e rfl l' hl)
      have hi' : K.inv (eff e c.st) := K.guar_inv hc.inv hg
      have hlt : j < c.calls.length := (List.getElem?_eq_some_iff.mp hcj).1
      obtain ⟨hlook, hnext⟩ := hc.looks j k _ hcj c.st e .refl hc.inv hy ha hi'
      refine ⟨hi', hbased, fun i k' p hi => ?_, fun i k' p hi hdist => ?_⟩
      · by_cases hij : i = j
        · subst hij
          rw [List.getElem?_set_self hlt] at hi
          cases hi
          simpa [Watch.after] using hnext
        · rw [List.getElem?_set_ne (Ne.symm hij)] at hi
          have hr : K.rely i c.st (eff e c.st) :=
            .single ⟨hc.inv, j, l', e, Ne.symm hij, hg⟩
          simpa [Watch.after, hij] using (hc.looks i k' p hi).rely hr
      · by_cases hij : i = j
        · subst hij
          rw [List.getElem?_set_self hlt] at hi
          cases hi
          -- Either the call was not disturbed before, or it has just looked.
          simp only [Watch.after, if_true, Bool.and_eq_false_iff, Bool.not_eq_false'] at hdist
          rcases hdist with hdist | hlooks
          · exact (sat_stmt.mp (hc.calm i k _ hcj hdist) c.st e .refl hc.inv hy ha).2
          · exact hlook hlooks
        · rw [List.getElem?_set_ne (Ne.symm hij)] at hi
          simp only [Watch.after, if_neg hij, Bool.or_eq_false_iff] at hdist
          exact (hc.calm i k' p hi hdist.1).rely
            (.single ⟨hc.inv, j, l', e, Ne.symm hij, hg, fun _ => hdist.2⟩)

/-- The invariant holds throughout a scheduled run. -/
theorem scheduled_through {s : S} {ms : List (Move E C)} (hs : K.inv s) (hsJ : J.inv s)
    (hW : W.Scheduled sys (.start s) ms)
    (hcond : sys.Along (fun d m => d.Meets P m) (.start s) ms) :
    sys.Through (fun d => K.inv d.st) (.start s) ms :=
  System.Through.mono (fun _ ⟨_, hd⟩ => hd.inv) <| System.Watched.through
    (I := fun g c => KeepsWatch K J W g c)
    (fun _ _ _ _ hc hP hd => keepsWatch_step hbase hcalm hlooks hadmJ hadm hrest hc hP.1 hP.2 hd)
    (System.Watched.and_along hW hcond) (keepsWatch_start hs hsJ)

/-- Every statement of a scheduled run is one that the contract allows where the invariant holds. -/
theorem scheduled_along {s : S} {ms : List (Move E C)} (hs : K.inv s) (hsJ : J.inv s)
    (hW : W.Scheduled sys (.start s) ms)
    (hcond : sys.Along (fun d m => d.Meets P m) (.start s) ms) :
    sys.Along (fun d m => ∀ d', sys.step d m = some d' →
      d.Meets (fun i l e s => K.inv s ∧ K.guar i l e s d'.st) m) (.start s) ms := by
  refine System.Watched.along (I := fun g c => KeepsWatch K J W g c)
    (fun _ _ _ _ hc hP hd => keepsWatch_step hbase hcalm hlooks hadmJ hadm hrest hc hP.1 hP.2 hd)
    (fun g c m hc hP d hd => ?_) (System.Watched.and_along hW hcond) (keepsWatch_start hs hsJ)
  rintro j e rfl l hl
  exact ⟨hc.inv, hc.guar hadmJ hadm hrest hP.1 hP.2 hd hl⟩

end Scheduled

end Contract

end Interleave
