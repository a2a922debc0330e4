import Mathlib.Data.List.Basic

/-!
# Texts — CSV

A reader for the format of RFC 4180: records end with CR LF, the last one possibly with the text; fields are separated by commas; a field is plain, without quotes, commas, CR and LF, or stands between quotes, with each quote in it doubled.  The reader is a state machine that takes one character at a time; a text that is not in the format it refuses.

**`read_records`**: the reader finds the records that a text is made of, whichever of its fields the writer has quoted.
-/

namespace Csv

/-- Where in a text a reader is. -/
inductive Place where
  /-- At the beginning of a record. -/
  | record
  /-- After a comma. -/
  | field
  /-- In a plain field. -/
  | plain
  /-- Between quotes. -/
  | quoted
  /-- After a quote that closes the field, unless another one follows. -/
  | closing
  /-- After CR, which LF has to follow. -/
  | ending
deriving DecidableEq, Repr

/-- A reader: where it is, what it has read of the field and of the record, and the records before
that. -/
structure Reader where
  place : Place
  text : List Char
  fields : List (List Char)
  records : List (List (List Char))
deriving DecidableEq, Repr

/-- The characters for which a field has to be quoted. -/
def isSpecial (c : Char) : Bool := c = '"' || c = ',' || c = '\n' || c = '\r'

namespace Reader

def start : Reader := ⟨.record, [], [], []⟩

/-- The next character belongs to the field. -/
def push (r : Reader) (place : Place) (c : Char) : Reader :=
  { r with place, text := r.text ++ [c] }

/-- The field has ended, with a comma. -/
def nextField (r : Reader) : Reader :=
  { r with place := .field, text := [], fields := r.fields ++ [r.text] }

/-- The record has ended. -/
def nextRecord (r : Reader) : Reader :=
  ⟨.record, [], [], r.records ++ [r.fields ++ [r.text]]⟩

/-- The character ends a field, or it is none that may follow one. -/
def endField (r : Reader) (c : Char) : Option Reader :=
  if c = ',' then some r.nextField
  else if c = '\r' then some { r with place := .ending }
  else none

/-- The reader after the next character. -/
def step (r : Reader) (c : Char) : Option Reader :=
  match r.place with
  | .record | .field =>
    if c = '"' then some { r with place := .quoted }
    else if isSpecial c then r.endField c
    else some (r.push .plain c)
  | .plain => if isSpecial c then r.endField c else some (r.push .plain c)
  | .quoted => if c = '"' then some { r with place := .closing } else some (r.push .quoted c)
  | .closing => if c = '"' then some (r.push .quoted c) else r.endField c
  | .ending => if c = '\n' then some r.nextRecord else none

/-- The reader after a text. -/
def steps : Reader → List Char → Option Reader
  | r, [] => some r
  | r, c :: cs => (r.step c).bind fun r => steps r cs

/-- The records of the text, which ends here. -/
def finish (r : Reader) : Option (List (List (List Char))) :=
  match r.place with
  | .record => some r.records
  | .field | .plain | .closing => some (r.records ++ [r.fields ++ [r.text]])
  | .quoted | .ending => none

end Reader

/-- The records of a text. -/
def read (text : List Char) : Option (List (List (List Char))) :=
  (Reader.start.steps text).bind Reader.finish

/-- The text stands for the field: it is the field, or the quoted field. -/
def Writes (text field : List Char) : Prop :=
  (∀ c ∈ field, isSpecial c = false) ∧ text = field ∨
    text = '"' :: field.flatMap (fun c => if c = '"' then ['"', '"'] else [c]) ++ ['"']

/-- The text of a record, from the texts of its fields. -/
def line (texts : List (List Char)) : List Char := [','].intercalate texts ++ ['\r', '\n']

namespace Reader

variable {r : Reader} {text field : List Char}

theorem steps_append {cs ds : List Char} :
    r.steps (cs ++ ds) = (r.steps cs).bind fun r => r.steps ds := by
  induction cs generalizing r with
  | nil => rfl
  | cons c cs ih =>
      simp only [List.cons_append, steps, Option.bind_assoc]
      congr 1
      funext r
      exact ih

/-- The reader is where a field begins. -/
def Fresh (r : Reader) : Prop := (r.place = .record ∨ r.place = .field) ∧ r.text = []

/-- The reader has read `field`, and the field may end here. -/
structure HasRead (r₀ : Reader) (field : List Char) (r : Reader) : Prop where
  text : r.text = field
  fields : r.fields = r₀.fields
  records : r.records = r₀.records
  comma : r.step ',' = some r.nextField
  cr : r.step '\r' = some { r with place := .ending }

theorem hasRead_plain {r₀ : Reader} (hp : r.place = .plain) (ht : r.text = field)
    (hf : r.fields = r₀.fields) (hr : r.records = r₀.records) : HasRead r₀ field r := by
  refine ⟨ht, hf, hr, ?_, ?_⟩
  · simp [step, hp, endField, isSpecial]
  · simp [step, hp, endField, isSpecial]

/-- Plain characters are read into a plain field. -/
theorem steps_plain (hp : r.place = .plain) (hfield : ∀ c ∈ field, isSpecial c = false) :
    r.steps field = some { r with text := r.text ++ field } := by
  induction field generalizing r with
  | nil => simp [steps]
  | cons c cs ih =>
      obtain ⟨hc, hcs⟩ := List.forall_mem_cons.mp hfield
      have hstep : r.step c = some (r.push .plain c) := by simp [step, hp, hc]
      rw [steps, hstep, Option.bind_some, ih rfl hcs]
      simp [push, ← hp]

/-- Between quotes, a field with its quotes doubled is read up to its end. -/
theorem steps_quoted (hp : r.place = .quoted) :
    r.steps (field.flatMap fun c => if c = '"' then ['"', '"'] else [c]) =
      some { r with text := r.text ++ field } := by
  induction field generalizing r with
  | nil => simp [steps]
  | cons c cs ih =>
      have hchar : r.steps (if c = '"' then ['"', '"'] else [c]) = some (r.push .quoted c) := by
        by_cases hc : c = '"'
        · subst hc
          simp [steps, step, hp, push]
        · simp [steps, step, hp, hc]
      rw [List.flatMap_cons, steps_append, hchar, Option.bind_some, ih rfl]
      simp [push, ← hp]

/-- The text of a field is read as the field. -/
theorem steps_writes (hr : r.Fresh) (h : Writes text field) :
    ∃ r', r.steps text = some r' ∧ HasRead r field r' := by
  obtain ⟨hplace, htext⟩ := hr
  rcases h with ⟨hplain, rfl⟩ | rfl
  · cases text with
    | nil =>
        refine ⟨r, rfl, htext, rfl, rfl, ?_, ?_⟩
        · rcases hplace with hp | hp <;> simp [step, hp, endField, isSpecial]
        · rcases hplace with hp | hp <;> simp [step, hp, endField, isSpecial]
    | cons c cs =>
        obtain ⟨hc, hcs⟩ := List.forall_mem_cons.mp hplain
        have hquote : c ≠ '"' := by
          rintro rfl
          simp [isSpecial] at hc
        have hstep : r.step c = some (r.push .plain c) := by
          rcases hplace with hp | hp <;> simp [step, hp, hc, hquote]
        refine ⟨_, by rw [steps, hstep, Option.bind_some, steps_plain rfl hcs], ?_⟩
        exact hasRead_plain rfl (by simp [push, htext]) rfl rfl
  · have hopen : r.step '"' = some { r with place := .quoted } := by
      rcases hplace with hp | hp <;> simp [step, hp]
    refine ⟨{ r with place := .closing, text := r.text ++ field }, ?_, by simp [htext], rfl, rfl,
      ?_, ?_⟩
    · rw [List.cons_append, steps, hopen, Option.bind_some, steps_append, steps_quoted rfl]
      simp [steps, step]
    · simp [step, endField]
    · simp [step, endField]

/-- A line is read as one more record. -/
theorem steps_line {texts fields : List (List Char)} (hr : r.Fresh) (hne : texts ≠ [])
    (h : List.Forall₂ Writes texts fields) :
    r.steps (line texts) =
      some ⟨.record, [], [], r.records ++ [r.fields ++ fields]⟩ := by
  induction h generalizing r with
  | nil => exact absurd rfl hne
  | @cons text field texts fields hw hrest ih =>
      obtain ⟨r', hsteps, hread⟩ := steps_writes hr hw
      cases hrest with
      | nil =>
          have hline : line [text] = text ++ ['\r', '\n'] := by simp [line, List.intercalate]
          rw [hline, steps_append, hsteps, Option.bind_some, steps, hread.cr, Option.bind_some]
          simp [steps, step, nextRecord, hread.text, hread.fields, hread.records]
      | @cons text' field' texts fields hw' hrest =>
          have hline : line (text :: text' :: texts) = text ++ ',' :: line (text' :: texts) := by
            simp [line, List.intercalate, List.intersperse]
          rw [hline, steps_append, hsteps, Option.bind_some, steps, hread.comma, Option.bind_some,
            ih ⟨.inr rfl, rfl⟩ (by simp)]
          simp [nextField, hread.text, hread.fields, hread.records]

/-- Lines are read as records. -/
theorem steps_lines {lines records : List (List (List Char))} (hr : r.Fresh) (hf : r.fields = [])
    (hne : ∀ texts ∈ lines, texts ≠ [])
    (h : List.Forall₂ (List.Forall₂ Writes) lines records) :
    ∃ r', r.steps (lines.flatMap line) = some r' ∧ r'.records = r.records ++ records ∧
      (r.place = .record → r'.place = .record) := by
  induction h generalizing r with
  | nil => exact ⟨r, rfl, by simp, id⟩
  | @cons texts fields lines records hline hrest ih =>
      obtain ⟨hne₁, hne₂⟩ := List.forall_mem_cons.mp hne
      obtain ⟨r', hsteps, hrecords, hplace⟩ :=
        ih (r := ⟨.record, [], [], r.records ++ [r.fields ++ fields]⟩) ⟨.inl rfl, rfl⟩ rfl hne₂
      refine ⟨r', ?_, ?_, fun _ => hplace rfl⟩
      · rw [List.flatMap_cons, steps_append, steps_line hr hne₁ hline, Option.bind_some, hsteps]
      · rw [hrecords]
        simp [hf]

end Reader

/-- A text made of lines is read as the records whose fields the lines stand for. -/
theorem read_records {lines records : List (List (List Char))}
    (hne : ∀ texts ∈ lines, texts ≠ [])
    (h : List.Forall₂ (List.Forall₂ Writes) lines records) :
    read (lines.flatMap line) = some records := by
  obtain ⟨r, hsteps, hrecords, hplace⟩ :=
    Reader.steps_lines (r := Reader.start) ⟨.inl rfl, rfl⟩ rfl hne h
  rw [read, hsteps, Option.bind_some, Reader.finish, hplace rfl]
  exact congrArg some hrecords

end Csv
