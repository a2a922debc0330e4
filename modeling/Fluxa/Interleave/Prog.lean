import Mathlib.Data.List.Basic
import Mathlib.Logic.Relation

/-!
# Interleave — programs of atomic statements

A program is a tree of statements.  Each statement runs atomically on a shared state: it waits until `ready`, reads an *environment* input (whatever the outside world supplies to that one statement: the clock, a fresh identifier, an injected failure) and the state, changes the state by `eff`, and continues with a program that may depend on both.  A program ends with a value or with an error, and an error skips what follows.

Between two statements of one program any number of statements of others may run; **`Fluxa.Interleave.System`** gives the interleavings and **`Fluxa.Interleave.Contract`** the rules for reasoning about them.
-/

namespace Interleave

/-- A program over states `S`: statements labelled by `L`, inputs from `E`, errors in `X`,
result in `A`. -/
inductive Prog (L E S X A : Type) : Type where
  /-- The program has ended. -/
  | done (r : Except X A) : Prog L E S X A
  /-- One atomic statement, and what follows it. -/
  | stmt (label : L) (ready : S → Bool) (eff : E → S → S)
      (next : E → S → Prog L E S X A) : Prog L E S X A

namespace Prog

variable {L E S X A B C : Type}

/-- Run `p`, and on a value go on with `f`; an error ends the whole. -/
def bind : Prog L E S X A → (A → Prog L E S X B) → Prog L E S X B
  | .done (.ok a), f => f a
  | .done (.error x), _ => .done (.error x)
  | .stmt l ready eff next, f => .stmt l ready eff fun e s => (next e s).bind f

instance : Monad (Prog L E S X) where
  pure a := .done (.ok a)
  bind := bind

/-- End with the error `x`. -/
def fail (x : X) : Prog L E S X A := .done (.error x)

/-- End with the result `r`. -/
def lift (r : Except X A) : Prog L E S X A := .done r

/-- Run `p` and hand its result on as a value, so that an error does not end the program. -/
def attempt : Prog L E S X A → Prog L E S X (Except X A)
  | .done r => .done (.ok r)
  | .stmt l ready eff next => .stmt l ready eff fun e s => (next e s).attempt

/-- A single statement which computes its result and its effect together. -/
def atomic (l : L) (ready : S → Bool) (run : E → S → Except X A × S) : Prog L E S X A :=
  .stmt l ready (fun e s => (run e s).2) fun e s => .done (run e s).1

/-- A program that waits for ever: what a bounded copy of a loop ends in where the loop would go
on. -/
def blocked (l : L) (x : X) : Prog L E S X A :=
  .stmt l (fun _ => false) (fun _ s => s) fun _ _ => .done (.error x)

/-- `fail x` unless `b`. -/
def ensure (b : Bool) (x : X) : Prog L E S X Unit :=
  if b then .done (.ok ()) else .done (.error x)

/-- The value of `o`, or the error `x` when it has none. -/
def okOr (o : Option A) (x : X) : Prog L E S X A :=
  match o with
  | some a => .done (.ok a)
  | none => .done (.error x)

/-- The program has ended. -/
def ended : Prog L E S X A → Bool
  | .done _ => true
  | .stmt .. => false

theorem eq_done_of_ended {p : Prog L E S X A} (h : p.ended = true) : ∃ r, p = .done r := by
  cases p with
  | done r => exact ⟨r, rfl⟩
  | stmt => cases h

@[simp] theorem pure_eq (a : A) : (pure a : Prog L E S X A) = .done (.ok a) := rfl

@[simp] theorem bind_eq (p : Prog L E S X A) (f : A → Prog L E S X B) : p >>= f = p.bind f := rfl

@[simp] theorem done_ok_bind (a : A) (f : A → Prog L E S X B) :
    (Prog.done (.ok a) : Prog L E S X A).bind f = f a := rfl

@[simp] theorem done_error_bind (x : X) (f : A → Prog L E S X B) :
    (Prog.done (.error x) : Prog L E S X A).bind f = .done (.error x) := rfl

theorem bind_assoc (p : Prog L E S X A) (f : A → Prog L E S X B) (g : B → Prog L E S X C) :
    (p.bind f).bind g = p.bind fun a => (f a).bind g := by
  induction p with
  | done r => cases r with
    | ok a => rfl
    | error x => rfl
  | stmt l ready eff next ih =>
      simp only [bind]
      congr
      funext e s
      exact ih e s

@[simp] theorem fail_bind (x : X) (f : A → Prog L E S X B) :
    (fail x : Prog L E S X A).bind f = fail x := rfl

end Prog

end Interleave
