import Fluxa.Http.Tasks

/-!
# Http — the body of a patch

The JSON body of the request that updates a task, as `serde` decodes it to `TaskPatchPayload`, and the handler behind its extractor.

**`distinguishes`**: a nullable field that is omitted, that is null and that has a value are decoded to different things.
-/

namespace Fluxa
open Interleave

namespace Http

/-- The value that a body gives for the field with the place in the declaration and the name.  A
structure is decoded from an array as well. -/
def given (body : Value) (place : Nat) (name : String) : Option Value :=
  match body with
  | .arr values => values[place]?
  | body => body.field? name

/-- `#[serde(default, deserialize_with = "double_option")]`. -/
def doubleOption {α : Type} (parse : String → Option α) :
    Option Value → Option (Option (Option α))
  | some value => (Jobs.decodeOption parse value).map some
  | none => some none

/-- The fields of `TaskPatchPayload`. -/
def patchFields : List String :=
  ["project_id", "title", "description", "status", "priority", "assignee_id", "due_at"]

/-- A body that can be a `TaskPatchPayload`: an object with no field of it twice, or an array with a
value for each field up to the last one that has no default. -/
def patchShaped : Value → Bool
  | .obj fields => decide ((fields.map (·.1)).filter patchFields.contains).Nodup
  | .arr values => 5 ≤ values.length && values.length ≤ patchFields.length
  | _ => false

/-- `Json<TaskPatchPayload>`. -/
def TaskPatchPayload.decode (app : App) (body : Value) : Option TaskPatchPayload := do
  if !patchShaped body then none
  let projectId ← doubleOption app.lib.parseUuid (given body 0 "project_id")
  let title ← Jobs.decodeOption some ((given body 1 "title").getD .null)
  let description ← doubleOption some (given body 2 "description")
  let status ← Jobs.decodeOption some ((given body 3 "status").getD .null)
  let priority ← Jobs.decodeOption some ((given body 4 "priority").getD .null)
  let assigneeId ← doubleOption app.lib.parseUuid (given body 5 "assignee_id")
  let dueAt ← doubleOption app.lib.parseTime (given body 6 "due_at")
  return { projectId, title, description, status, priority, assigneeId, dueAt }

/-- The handler `update_task` with its extractor, whose rejection is no answer. -/
def patchTask (app : App) (user : AuthenticatedUser) (taskId : Uuid) (body : Value) :
    Service (Option Value) :=
  match TaskPatchPayload.decode app body with
  | some payload => do
    let answer ← updateTask app user taskId payload
    return some answer
  | none => return none

/-! ### What is decoded -/

section

variable {α : Type} {parse : String → Option α} {v : Value} {o : Option Value}

theorem decodeOption_none : Jobs.decodeOption parse v = some none ↔ v = .null := by
  cases v <;> simp [Jobs.decodeOption]

theorem decodeOption_some {a : α} :
    Jobs.decodeOption parse v = some (some a) ↔ ∃ text, v = .str text ∧ parse text = some a := by
  cases v <;> simp [Jobs.decodeOption, Jobs.decodeStr]

theorem doubleOption_omitted : doubleOption parse o = some none ↔ o = none := by
  cases o <;> simp [doubleOption]

theorem doubleOption_null : doubleOption parse o = some (some none) ↔ o = some .null := by
  cases o with
  | none => simp [doubleOption]
  | some v => simp [doubleOption, decodeOption_none]

theorem doubleOption_value {a : α} : doubleOption parse o = some (some (some a)) ↔
    ∃ text, o = some (.str text) ∧ parse text = some a := by
  cases o with
  | none => simp [doubleOption]
  | some v => simp [doubleOption, decodeOption_some]

/-- The three ways of giving a nullable field are told apart. -/
structure Distinguishes (parse : String → Option α) (given : Option Value)
    (decoded : Option (Option α)) : Prop where
  omitted : decoded = none ↔ given = none
  null : decoded = some none ↔ given = some .null
  value : ∀ a, decoded = some (some a) ↔ ∃ text, given = some (.str text) ∧ parse text = some a

theorem distinguishes {decoded : Option (Option α)} (h : doubleOption parse o = some decoded) :
    Distinguishes parse o decoded := by
  refine ⟨?_, ?_, fun a => ?_⟩
  · rw [← @doubleOption_omitted α parse o, h, Option.some_inj]
  · rw [← @doubleOption_null α parse o, h, Option.some_inj]
  · rw [← doubleOption_value, h, Option.some_inj]

end

/-- What a body that can be decoded is decoded to. -/
structure Decoded (app : App) (body : Value) (payload : TaskPatchPayload) : Prop where
  projectId : doubleOption app.lib.parseUuid (given body 0 "project_id") = some payload.projectId
  title : Jobs.decodeOption some ((given body 1 "title").getD .null) = some payload.title
  description : doubleOption some (given body 2 "description") = some payload.description
  status : Jobs.decodeOption some ((given body 3 "status").getD .null) = some payload.status
  priority : Jobs.decodeOption some ((given body 4 "priority").getD .null) = some payload.priority
  assigneeId : doubleOption app.lib.parseUuid (given body 5 "assignee_id") = some payload.assigneeId
  dueAt : doubleOption app.lib.parseTime (given body 6 "due_at") = some payload.dueAt

theorem decoded {app : App} {body : Value} {payload : TaskPatchPayload}
    (h : TaskPatchPayload.decode app body = some payload) : Decoded app body payload := by
  rw [TaskPatchPayload.decode] at h
  split at h
  · exact nomatch h
  · simp only [Option.pure_def, Option.bind_eq_bind, Option.bind_eq_some_iff] at h
    obtain ⟨projectId, h₀, title, h₁, description, h₂, status, h₃, priority, h₄, assigneeId, h₅,
      dueAt, h₆, hpayload⟩ := h
    cases hpayload
    exact ⟨h₀, h₁, h₂, h₃, h₄, h₅, h₆⟩

/-- The input of a payload that is valid. -/
structure Validated (payload : TaskPatchPayload) (input : UpdateTaskInput) : Prop where
  title : input.title.any isBlank = false
  status : (normalizeOptionalChoice payload.status).mapM validateTaskStatus = .ok input.status
  priority : (normalizeOptionalChoice payload.priority).mapM validateTaskPriority =
    .ok input.priority
  others : input = { input with
    projectId := payload.projectId
    title := payload.title
    description := payload.description
    assigneeId := payload.assigneeId
    dueAt := payload.dueAt }

theorem validated {payload : TaskPatchPayload} {input : UpdateTaskInput}
    (h : payload.toInput = .ok input) : Validated payload input := by
  simp only [TaskPatchPayload.toInput] at h
  cases hstatus : (normalizeOptionalChoice payload.status).mapM validateTaskStatus with
  | error x =>
      rw [hstatus] at h
      exact nomatch h
  | ok status =>
      rw [hstatus] at h
      cases hpriority : (normalizeOptionalChoice payload.priority).mapM validateTaskPriority with
      | error x =>
          rw [hpriority] at h
          exact nomatch h
      | ok priority =>
          rw [hpriority] at h
          change UpdateTaskInput.validate _ = _ at h
          rw [UpdateTaskInput.validate] at h
          split at h
          · exact nomatch h
          · rename_i htitle
            cases h
            exact ⟨Bool.eq_false_iff.mpr htitle, hstatus, hpriority, rfl⟩

end Http

end Fluxa
