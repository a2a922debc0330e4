import Fluxa.Relational.Table

/-!
# Relational — outboxes

An outbox is a table of messages that are to be delivered outside.  Workers claim messages that are due, send them, and write down the outcome; a message that is not delivered becomes due again until its attempts are used up.  **`OutboxColumns`** has the columns that an outbox needs, whatever else its rows contain (**`OutboxRow`**), and a **`Trail`** of what has been done with the message, for statements about it.
-/

namespace Relational

/-- The states of a message. -/
inductive OutboxStatus where
  | pending
  | delivered
  | deadLetter
deriving DecidableEq, Repr

/-- What has been done with a message since it was put in, or put back to be delivered again.
Claims are named by numbers, each of which is used once. -/
structure Trail where
  /-- The claims on the message, the newest first. -/
  claims : List Nat
  /-- The claims under which the message has been sent, the newest first. -/
  sends : List Nat
  /-- The claim whose outcome has been written, if one has since the newest claim. -/
  ended : Option Nat
deriving DecidableEq, Repr

/-- Nothing has been done yet. -/
def Trail.empty : Trail := ⟨[], [], none⟩

/-- The columns of an outbox.  `trail` is no column: it is recorded for statements about the
message. -/
structure OutboxColumns (κ : Type) where
  id : κ
  status : OutboxStatus
  attempts : Nat
  maxAttempts : Nat
  scheduledAt : Nat
  deliveredAt : Option Nat
  lastError : Option String
  trail : Trail

namespace OutboxColumns

variable {κ : Type}

/-- A message that is put in at time `now`. -/
def new (id : κ) (maxAttempts now : Nat) : OutboxColumns κ :=
  { id, status := .pending, attempts := 0, maxAttempts, scheduledAt := now, deliveredAt := none,
    lastError := none, trail := .empty }

/-- The message is pending and due. -/
def due (now : Nat) (c : OutboxColumns κ) : Bool := c.status = .pending && c.scheduledAt ≤ now

/-- Claim `k` takes the message, which is due again at `next`. -/
def claimed (k next : Nat) (c : OutboxColumns κ) : OutboxColumns κ :=
  { c with
    attempts := c.attempts + 1
    scheduledAt := next
    trail := { c.trail with claims := k :: c.trail.claims, ended := none } }

/-- The message is sent under claim `k`. -/
def sent (k : Nat) (c : OutboxColumns κ) : OutboxColumns κ :=
  { c with trail := { c.trail with sends := k :: c.trail.sends } }

/-- The success of claim `k`. -/
def delivered (k now : Nat) (c : OutboxColumns κ) : OutboxColumns κ :=
  { c with
    status := .delivered, deliveredAt := some now, lastError := none
    trail := { c.trail with ended := some k } }

/-- The failure of claim `k`. -/
def failed (k : Nat) (status : OutboxStatus) (next : Nat) (message : String)
    (c : OutboxColumns κ) : OutboxColumns κ :=
  { c with
    status, scheduledAt := next, lastError := some message
    trail := { c.trail with ended := some k } }

/-- The message is put back, with all its attempts. -/
def redelivered (now : Nat) (c : OutboxColumns κ) : OutboxColumns κ :=
  { c with
    status := .pending, attempts := 0, scheduledAt := now, deliveredAt := none, lastError := none
    trail := .empty }

/-- The number of the newest claim. -/
def claim (c : OutboxColumns κ) : Nat := c.trail.claims.headD 0

end OutboxColumns

/-- Rows that have the columns of an outbox. -/
class OutboxRow (R : Type) (κ : outParam Type) where
  columns : R → OutboxColumns κ
  modify : (OutboxColumns κ → OutboxColumns κ) → R → R
  columns_modify : ∀ f r, columns (modify f r) = f (columns r)

namespace OutboxRow

variable {R κ : Type} [OutboxRow R κ]

/-- The primary key. -/
def key (r : R) : κ := (columns r).id

/-- A change of columns that keeps the key. -/
structure KeepsId (f : OutboxColumns κ → OutboxColumns κ) : Prop where
  id_eq : ∀ c, (f c).id = c.id

theorem KeepsId.modify {f : OutboxColumns κ → OutboxColumns κ} (h : KeepsId f) :
    Table.KeepsKey (key (R := R)) (OutboxRow.modify f) :=
  ⟨fun r => by rw [key, columns_modify, h.id_eq, key]⟩

/-- Change the columns of the rows that satisfy `p`. -/
def change (t : Table R key) (p : R → Bool) (f : OutboxColumns κ → OutboxColumns κ)
    (hf : KeepsId f) : Table R key :=
  t.update p (modify f) hf.modify

/-- A row after a change. -/
theorem mem_change {t : Table R key} {p : R → Bool} {f : OutboxColumns κ → OutboxColumns κ}
    {hf : KeepsId f} {r : R} (h : r ∈ change t p f hf) :
    (∃ r₀ ∈ t, p r₀ = true ∧ r = modify f r₀) ∨ r ∈ t ∧ p r = false := by
  rw [change, Table.mem_update] at h
  obtain ⟨r₀, h₀, rfl⟩ := h
  cases hp : p r₀ with
  | true => exact .inl ⟨r₀, h₀, hp, by simp⟩
  | false => exact .inr ⟨by simpa using h₀, by simpa using hp⟩

theorem mem_change_of_false {t : Table R key} {p : R → Bool}
    {f : OutboxColumns κ → OutboxColumns κ} {hf : KeepsId f} {r : R} (h : r ∈ t)
    (hp : p r = false) : r ∈ change t p f hf :=
  Table.mem_update_of_false h hp hf.modify

end OutboxRow

end Relational
