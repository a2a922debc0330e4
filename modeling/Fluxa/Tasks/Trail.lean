import Fluxa.State.Json
import Fluxa.Tasks.Patches

/-!
# Tasks — the audit trail of updates

Whether the audit rows that `update_task` writes tell what the updates did.

**`audit_trail_distinguishes`**: for two inputs with different effects the rows have different payloads unless the inputs differ only in nullable fields that one of them leaves out and the other sets to null.  The payload has null for both.
-/

namespace Fluxa
open Interleave Relational Db

/-- The operation accepts the input: it is valid, and some field is present. -/
def UpdateTaskInput.Accepted (input : UpdateTaskInput) : Prop :=
  input.validate = .ok input ∧ input.changes = true

namespace Trail

open Plays

/-- Some run of the operation records the payload for the input. -/
def Records (app : App) (input : UpdateTaskInput) (payload : Value) : Prop :=
  ∃ tenantId taskId actorId es s r s' entry,
    play (Db.updateTask app tenantId taskId actorId input) es s = some (r, s') ∧
      s'.db.taskAudit.rows = s.db.taskAudit.rows ++ [entry] ∧
      entry.eventType = "task_updated" ∧ entry.payload = payload

/-- The task without its time of update. -/
def undated (t : TaskRecord) : TaskRecord := { t with updatedAt := 0 }

/-- Applied to some task, the inputs make different tasks, apart from the time of update. -/
def Differ (a b : UpdateTaskInput) : Prop :=
  ∃ t actorId now now', undated (applyUpdate a actorId now t) ≠ undated (applyUpdate b actorId now' t)

/-- One of the fields is left out, and the other one is null. -/
def Confused {α : Type} (x y : Option (Option α)) : Prop :=
  (x = none ∧ y = some none) ∨ (x = some none ∧ y = none)

/-- The inputs are different, but only in fields that one leaves out and the other sets to null. -/
structure OnlyCleared (a b : UpdateTaskInput) : Prop where
  projectId : a.projectId = b.projectId ∨ Confused a.projectId b.projectId
  title : a.title = b.title
  description : a.description = b.description ∨ Confused a.description b.description
  status : a.status = b.status
  priority : a.priority = b.priority
  assigneeId : a.assigneeId = b.assigneeId ∨ Confused a.assigneeId b.assigneeId
  dueAt : a.dueAt = b.dueAt ∨ Confused a.dueAt b.dueAt
  ne : a ≠ b

/-! ### Payloads -/

section

variable {α : Type} {x y : Option (Option α)}

theorem join_eq_iff : x.join = y.join ↔ x = y ∨ Confused x y := by
  rcases x with _ | _ | x <;> rcases y with _ | _ | y <;> simp [Confused]

theorem ofOption_injective : Function.Injective Value.ofOption := by
  rintro (_ | x) (_ | y) h
  · rfl
  · exact nomatch h
  · exact nomatch h
  · cases h
    rfl

end

variable {app : App} {a b : UpdateTaskInput}

/-- The payload says what is present, but not what is cleared. -/
theorem updatedPayload_eq_iff (huuid : Function.Injective app.lib.uuidString)
    (htime : Function.Injective app.lib.jsonTime) :
    updatedPayload app a = updatedPayload app b ↔
      a.projectId.join = b.projectId.join ∧ a.title = b.title ∧
        a.description.join = b.description.join ∧ a.status = b.status ∧
        a.priority = b.priority ∧ a.assigneeId.join = b.assigneeId.join ∧
        a.dueAt.join = b.dueAt.join := by
  have hstatus : Function.Injective TaskStatus.asStr := by
    intro x y h
    cases x <;> cases y <;> first | rfl | exact absurd h (by decide)
  have hpriority : Function.Injective TaskPriority.asStr := by
    intro x y h
    cases x <;> cases y <;> first | rfl | exact absurd h (by decide)
  simp only [updatedPayload, idValue, timeValue, Value.obj.injEq, List.cons.injEq, Prod.mk.injEq,
    true_and, and_true, ofOption_injective.eq_iff, (Option.map_injective huuid).eq_iff,
    (Option.map_injective htime).eq_iff, (Option.map_injective hstatus).eq_iff,
    (Option.map_injective hpriority).eq_iff]

/-- Inputs with one payload are equal or differ in cleared fields only. -/
theorem onlyCleared_of_payload (huuid : Function.Injective app.lib.uuidString)
    (htime : Function.Injective app.lib.jsonTime)
    (h : updatedPayload app a = updatedPayload app b) (hne : a ≠ b) : OnlyCleared a b := by
  obtain ⟨h₀, h₁, h₂, h₃, h₄, h₅, h₆⟩ := (updatedPayload_eq_iff huuid htime).mp h
  exact ⟨join_eq_iff.mp h₀, h₁, join_eq_iff.mp h₂, h₃, h₄, join_eq_iff.mp h₅, join_eq_iff.mp h₆, hne⟩

theorem OnlyCleared.payload (h : OnlyCleared a b) (huuid : Function.Injective app.lib.uuidString)
    (htime : Function.Injective app.lib.jsonTime) : updatedPayload app a = updatedPayload app b :=
  (updatedPayload_eq_iff huuid htime).mpr ⟨join_eq_iff.mpr h.projectId, h.title,
    join_eq_iff.mpr h.description, h.status, h.priority, join_eq_iff.mpr h.assigneeId,
    join_eq_iff.mpr h.dueAt⟩

/-! ### Effects -/

theorem Differ.ne (h : Differ a b) : a ≠ b := by
  rintro rfl
  obtain ⟨t, actorId, now, now', hne⟩ := h
  exact hne rfl

/-- A nullable column shows whether it has been cleared. -/
theorem differ_of_confused {α : Type} {field : UpdateTaskInput → Option (Option α)}
    {column : TaskRecord → Option α} {t : TaskRecord}
    (happly : ∀ input, column (undated (applyUpdate input 0 0 t)) = (field input).getD (column t))
    (hfilled : column t ≠ none) (h : Confused (field a) (field b)) : Differ a b := by
  refine ⟨t, 0, 0, 0, fun heq => ?_⟩
  have hcolumn := congrArg column heq
  rw [happly, happly] at hcolumn
  rcases h with ⟨ha, hb⟩ | ⟨ha, hb⟩
  · rw [ha, hb] at hcolumn
    exact hfilled hcolumn
  · rw [ha, hb] at hcolumn
    exact hfilled hcolumn.symm

/-- A task all of whose nullable columns have a value. -/
def filled : TaskRecord := ⟨100, 1, some 0, "a", some "", .open, .medium, some 0, some 0, 0, 0, 0, 0⟩

/-- Where a field is cleared and left out, the effects on some task differ. -/
theorem OnlyCleared.differ (h : OnlyCleared a b) : Differ a b := by
  rcases h.projectId with h₀ | h₀
  · rcases h.description with h₂ | h₂
    · rcases h.assigneeId with h₅ | h₅
      · rcases h.dueAt with h₆ | h₆
        · refine absurd ?_ h.ne
          cases a
          cases b
          rw [UpdateTaskInput.mk.injEq]
          exact ⟨h₀, h.title, h₂, h.status, h.priority, h₅, h₆⟩
        · exact @differ_of_confused _ _ _ (·.dueAt) (·.dueAt) filled (fun _ => rfl) nofun h₆
      · exact @differ_of_confused _ _ _ (·.assigneeId) (·.assigneeId) filled (fun _ => rfl) nofun h₅
    · exact @differ_of_confused _ _ _ (·.description) (·.description) filled (fun _ => rfl) nofun h₂
  · exact @differ_of_confused _ _ _ (·.projectId) (·.projectId) filled (fun _ => rfl) nofun h₀

/-! ### Runs -/

variable {input : UpdateTaskInput} {payload : Value} {tenantId taskId actorId : Uuid}
  {es : List Env} {s s' : AppState}

/-- Whether it succeeds, fails or loses its result, the transaction writes no audit row or one with
the given payload. -/
theorem play_changeTask {guard : TaskRecord → Bool} {f : TaskRecord → TaskRecord}
    {hf : Table.KeepsKey TaskRecord.id f} {missing eventType : String}
    {payload : TaskRecord → Value} {auditId : Uuid} {auditAt : Time} {r : Except AppError TaskRecord}
    (h : play (changeTask tenantId taskId actorId guard f hf missing eventType payload auditId
      auditAt) es s = some (r, s')) :
    s'.db.taskAudit = s.db.taskAudit ∨ ∃ t entry,
      s'.db.taskAudit.rows = s.db.taskAudit.rows ++ [entry] ∧ entry.payload = payload (f t) := by
  obtain ⟨e, -, ⟨rfl, -⟩ | ⟨rfl, -⟩⟩ := play_sql h
  · exact .inl rfl
  · dsimp only
    split
    · exact .inl rfl
    · rename_i t htask
      split
      · exact .inl rfl
      · split
        · rename_i taskAudit haudit
          exact .inr ⟨t, _, Table.rows_insert haudit, rfl⟩
        · exact .inl rfl

theorem play_updateTask {r : Except AppError TaskRecord}
    (h : play (Db.updateTask app tenantId taskId actorId input) es s = some (r, s')) :
    s'.db.taskAudit = s.db.taskAudit ∨ ∃ entry,
      s'.db.taskAudit.rows = s.db.taskAudit.rows ++ [entry] ∧
        entry.payload = updatedPayload app input := by
  cases hchanges : input.changes with
  | false =>
      rw [Db.updateTask, hchanges] at h
      obtain ⟨-, rfl, rfl⟩ := play_done h
      exact .inl rfl
  | true =>
      rw [Db.updateTask, hchanges] at h
      change play (utcNow.bind _) es s = _ at h
      rcases play_bind_cases h with ⟨x, -, hx⟩ | ⟨now, es₁, es₂, s₁, rfl, h₁, h₂⟩
      · obtain ⟨-, _, -, hx⟩ := play_utcNow hx
        cases hx
      obtain ⟨rfl, -⟩ := play_utcNow h₁
      rcases play_bind_cases h₂ with ⟨x, -, hx⟩ | ⟨auditId, es₃, es₄, s₂, rfl, h₃, h₄⟩
      · obtain ⟨-, _, hx⟩ := play_newUuid hx
        cases hx
      obtain ⟨hdb, -⟩ := play_newUuid h₃
      rw [← hdb]
      rcases play_changeTask h₄ with hsame | ⟨_, entry, hrows, hpayload⟩
      · exact .inl hsame
      · exact .inr ⟨entry, hrows, hpayload⟩

/-- What a run records is the payload of its input. -/
theorem Records.eq (h : Records app input payload) : payload = updatedPayload app input := by
  obtain ⟨tenantId, taskId, actorId, es, s, r, s', entry, hplay, hrows, -, rfl⟩ := h
  rcases play_updateTask hplay with hsame | ⟨entry', hrows', hpayload⟩
  · rw [hsame] at hrows
    exact absurd (List.self_eq_append_right.mp hrows) (List.cons_ne_nil _ _)
  · rw [hrows] at hrows'
    cases List.append_cancel_left hrows'
    exact hpayload

/-- A database with the task and what an input refers to. -/
def referring (input : UpdateTaskInput) : AppState :=
  { (default : AppState) with
    db := { (default : Database) with
      users := match input.assigneeId.join with
        | some id => ⟨[⟨id, "a@b.c", "hash", none, none, 0⟩], List.nodup_singleton _⟩
        | none => default
      projects := match input.projectId.join with
        | some id => ⟨[⟨id, 1, "p", none, 10, 10, 0, 0, none⟩], List.nodup_singleton _⟩
        | none => default
      tasks := ⟨[⟨100, 1, none, "a", none, .open, .medium, none, none, 0, 0, 0, 0⟩],
        List.nodup_singleton _⟩ } }

theorem taskReferences_referring {now : Time} :
    taskReferences (referring input) (applyUpdate input 0 now
      ⟨100, 1, none, "a", none, .open, .medium, none, none, 0, 0, 0, 0⟩) = true := by
  obtain ⟨projectId, title, description, status, priority, assigneeId, dueAt⟩ := input
  rcases projectId with _ | _ | p <;> rcases assigneeId with _ | _ | u <;>
    simp [taskReferences, applyUpdate, referring, Table.find?]

/-- Each accepted input is recorded by some run. -/
theorem exists_records (h : input.changes = true) :
    Records app input (updatedPayload app input) := by
  obtain ⟨n, r, s', hplay⟩ := (@Patches.unblocked_updateTask app input 0 1 100).exists_play
    (fun _ => default) (referring input)
  have hclean : Clean ((List.range n).map fun _ => (default : Env)) := by
    intro e he
    obtain ⟨_, -, rfl⟩ := List.mem_map.mp he
    rfl
  rcases Patches.play_updateTask hclean hplay with
    ⟨x, -, -, hwhy⟩ | ⟨-, t, now, entry, -, -, hwritten, hpayload⟩
  · rcases hwhy with hchanges | hnone | ⟨t, now, htask, hreferences⟩ | ⟨e, -, htaken⟩
    · rw [h] at hchanges
      exact nomatch hchanges
    · exact nomatch hnone
    · cases htask
      rw [taskReferences_referring] at hreferences
      exact nomatch hreferences
    · exact nomatch htaken
  · exact ⟨1, 100, 0, _, _, _, _, entry, hplay, hwritten.audit, hwritten.event, hpayload⟩

end Trail

open Trail in
/-- Two accepted inputs with different effects have different payloads in the audit trail, whatever
runs have recorded them, if and only if they do not differ merely in nullable fields that one leaves
out and the other sets to null. -/
theorem audit_trail_distinguishes (app : App) (huuid : Function.Injective app.lib.uuidString)
    (htime : Function.Injective app.lib.jsonTime) (a b : UpdateTaskInput) (ha : a.Accepted)
    (hb : b.Accepted) :
    (Differ a b → ∀ p q, Records app a p → Records app b q → p ≠ q) ↔ ¬ OnlyCleared a b := by
  constructor
  · intro h hcleared
    exact h hcleared.differ _ _ (exists_records ha.2) (exists_records hb.2)
      (hcleared.payload huuid htime)
  · intro h hdiffer p q hp hq hpq
    rw [hp.eq, hq.eq] at hpq
    exact h (onlyCleared_of_payload huuid htime hpq hdiffer.ne)

/-- The task is done. -/
def finished : UpdateTaskInput := ⟨none, none, none, some .done, none, none, none⟩

/-- The task is done, and its description is cleared. -/
def finishedAndCleared : UpdateTaskInput := ⟨none, none, some none, some .done, none, none, none⟩

theorem default_texts_injective : Function.Injective (default : App).lib.uuidString ∧
    Function.Injective (default : App).lib.jsonTime :=
  ⟨fun _ _ h => Json.repr_inj (congrArg String.toList h),
    fun _ _ h => Json.repr_inj (congrArg String.toList h)⟩

open Trail in
/-- The description of a task with one is kept or lost, and the audit trail says the same of both. -/
theorem audit_trail_confuses :
    finished.Accepted ∧ finishedAndCleared.Accepted ∧ Differ finished finishedAndCleared ∧
      ∃ payload, Records default finished payload ∧ Records default finishedAndCleared payload :=
  ⟨⟨rfl, rfl⟩, ⟨rfl, rfl⟩, ⟨filled, 0, 0, 0, by decide⟩, _, exists_records rfl,
    @exists_records default finishedAndCleared rfl⟩

open Trail in
theorem audit_trail_distinguishes_finished :
    (Differ finished finishedAndCleared → ∀ p q, Records default finished p →
      Records default finishedAndCleared q → p ≠ q) ↔
        ¬ OnlyCleared finished finishedAndCleared :=
  audit_trail_distinguishes default default_texts_injective.1 default_texts_injective.2 finished
    finishedAndCleared ⟨rfl, rfl⟩ ⟨rfl, rfl⟩

end Fluxa
