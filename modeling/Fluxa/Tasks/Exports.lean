import Fluxa.Interleave.Visits
import Fluxa.Services.Quiet
import Fluxa.Tasks.Pages

/-!
# Tasks — exports

The chunk queries of an export among the operations on tasks, each of which moves the tasks that it updates to the front of the listing.

**`export_under_updates`**: an export has no task twice; of the tasks that match at each of its queries it misses exactly those that an update has moved, between two queries, from behind the last row read to before it.  **`export_misses_updated`** is a run in which that happens.
-/

namespace Fluxa
open Interleave Relational Db Contract

/-- The operations of the claim: the loop of an export, and the operations on tasks. -/
inductive TaskCall where
  | export (tenantId : Uuid) (filters : TaskFilters) (rounds : Nat)
  | createTask (tenantId actorId : Uuid) (input : CreateTaskInput)
  | updateTask (tenantId taskId actorId : Uuid) (input : UpdateTaskInput)
  | bulkUpdateTaskStatus (tenantId actorId : Uuid) (taskIds : List Uuid) (status : TaskStatus)
  | archiveTask (tenantId taskId actorId : Uuid)
  | restoreTask (tenantId taskId actorId : Uuid)

/-- Exports and operations on tasks, one statement at a time. -/
def exportSystem (app : App) : System Event Env AppState AppError TaskCall (List TaskRecord) where
  body
    | .export tenantId filters rounds => Jobs.exportLoop app tenantId filters rounds none []
    | .createTask tenantId actorId input => do
      return [← Tasks.createTask app tenantId actorId input]
    | .updateTask tenantId taskId actorId input => do
      return [← Tasks.updateTask app tenantId taskId actorId input]
    | .bulkUpdateTaskStatus tenantId actorId taskIds status =>
      Tasks.bulkUpdateTaskStatus app tenantId actorId taskIds status
    | .archiveTask tenantId taskId actorId => do
      Tasks.archiveTask app tenantId taskId actorId
      return []
    | .restoreTask tenantId taskId actorId => do
      return [← Tasks.restoreTask app tenantId taskId actorId]
  adm := admissible

/-- A task that has changed has a later `updated_at`. -/
def Advances (s s' : AppState) : Prop :=
  ∀ a ∈ s.db.tasks, ∀ b ∈ s'.db.tasks, b.id = a.id → b = a ∨ a.updatedAt < b.updatedAt

namespace Exports

/-! ### Tasks stay, and move to the front -/

/-- No task is lost. -/
def Persist (s s' : AppState) : Prop := ∀ a ∈ s.db.tasks, ∃ b ∈ s'.db.tasks, b.id = a.id

/-- No task is lost, and none moves to the back. -/
def Grows (s s' : AppState) : Prop :=
  ∀ a ∈ s.db.tasks, ∃ b ∈ s'.db.tasks, b.id = a.id ∧ Tasks.taskKey a ≤ Tasks.taskKey b

section Order

variable {s s' s'' : AppState}

theorem Persist.refl (s : AppState) : Persist s s := fun a ha => ⟨a, ha, rfl⟩

theorem Persist.of_tasks (h : s'.db.tasks = s.db.tasks) : Persist s s' :=
  fun a ha => ⟨a, h ▸ ha, rfl⟩

theorem Grows.refl (s : AppState) : Grows s s := fun a ha => ⟨a, ha, rfl, le_rfl⟩

theorem Grows.trans (h : Grows s s') (h' : Grows s' s'') : Grows s s'' := by
  intro a ha
  obtain ⟨b, hb, hab, hle⟩ := h a ha
  obtain ⟨c, hc, hbc, hle'⟩ := h' b hb
  exact ⟨c, hc, hbc.trans hab, hle.trans hle'⟩

theorem Persist.grows (h : Persist s s') (ha : Advances s s') : Grows s s' := by
  intro a ha'
  obtain ⟨b, hb, hab⟩ := h a ha'
  refine ⟨b, hb, hab, ?_⟩
  rcases ha a ha' b hb hab with rfl | hlt
  · exact le_rfl
  · exact le_of_lt (Prod.Lex.toLex_lt_toLex.mpr (.inl hlt))

/-- Between the matching tasks of two states, keys only grow. -/
theorem Grows.later {app : App} {tenantId : Uuid} {filters : TaskFilters} (h : Grows s s') :
    Relational.Later Tasks.taskKey TaskRecord.id (Tasks.matching app tenantId filters s)
      (Tasks.matching app tenantId filters s') := by
  intro a ha b hb hab
  obtain ⟨b', hb', hab', hle⟩ := h a (Table.mem_select.mp ha).1
  rwa [Table.eq_of_key hb' (Table.mem_select.mp hb).1 (hab'.trans hab)] at hle

end Order

/-! ### The operations lose no task -/

/-- The contract: no statement loses a task. -/
def taskContract : Contract Event Env AppState where
  inv _ := True
  guar _ _ _ := Persist
  adm _ _ _ _ := True
  guar_inv _ _ := trivial

theorem taskContract_tolerant : Tolerant taskContract where
  stay _ _ _ s _ _ := .refl s
  bystander _ _ _ _ _ h := .of_tasks h.tasks
  issue _ _ _ _ _ := .of_tasks rfl

section Calls

variable {app : App} {i : Nat} {tenantId taskId actorId : Uuid}

theorem newUuids_safe {ids : List Uuid} : taskContract.Safe i (newUuids ids) := by
  induction ids with
  | nil => exact .done
  | cons id ids ih =>
      exact .bind (newUuid_safe taskContract_tolerant) fun _ => .bind ih fun _ => .done

theorem createTask_safe {input : CreateTaskInput} :
    taskContract.Safe i (Db.createTask app tenantId actorId input) := by
  refine .bind (utcNow_safe taskContract_tolerant) fun now => ?_
  refine .bind (newUuid_safe taskContract_tolerant) fun id => ?_
  refine .bind (newUuid_safe taskContract_tolerant) fun auditId => ?_
  refine sql_safe taskContract_tolerant fun s e _ _ _ => ?_
  dsimp only
  split
  · exact .refl s
  · split
    · rename_i ht _
      exact fun a ha => ⟨a, ((Table.insert_eq_some ht).2 a).mpr (.inl ha), rfl⟩
    · exact .refl s

theorem changeTask_safe {guard : TaskRecord → Bool} {f : TaskRecord → TaskRecord}
    {hf : Table.KeepsKey TaskRecord.id f} {missing eventType : String}
    {payload : TaskRecord → Value} {auditId : Uuid} {auditAt : Time} :
    taskContract.Safe i (changeTask tenantId taskId actorId guard f hf missing eventType payload
      auditId auditAt) := by
  refine sql_safe taskContract_tolerant fun s e _ _ _ => ?_
  dsimp only
  split
  · exact .refl s
  · split
    · exact .refl s
    · split
      · exact fun a ha => Table.exists_mem_update ha _ _ hf
      · exact .refl s

theorem bulkUpdate_safe {taskIds : List Uuid} {status : TaskStatus} :
    taskContract.Safe i (Db.bulkUpdateTaskStatus tenantId actorId taskIds status) := by
  refine .bind (utcNow_safe taskContract_tolerant) fun now => .bind newUuids_safe fun ids => ?_
  refine sql_safe taskContract_tolerant fun s e _ _ _ => ?_
  dsimp only
  split
  · exact .refl s
  · split
    · exact fun a ha => Table.exists_mem_update ha _ (withStatus status actorId now) ⟨fun _ => rfl⟩
    · exact .refl s

/-- What an operation does after its change: the bump and a webhook. -/
theorem bumpAndEmit_safe {A : Type} {eventType : String} {task : TaskRecord} {p : Service A}
    (hp : taskContract.Safe i p) :
    taskContract.Safe i ((Cache.bumpTenantCacheVersion tenantId).bind fun _ =>
      (emitTaskWebhook app tenantId eventType task).bind fun _ => p) :=
  .bind (bumpTenantCacheVersion_safe taskContract_tolerant) fun _ =>
    .bind (emitTaskWebhook_safe taskContract_tolerant.lenient) fun _ => hp

theorem taskCall_safe (k : TaskCall) : taskContract.Safe i ((exportSystem app).body k) := by
  have utc : taskContract.Safe i utcNow := utcNow_safe taskContract_tolerant
  have uuid : taskContract.Safe i newUuid := newUuid_safe taskContract_tolerant
  have bump : ∀ tenantId, taskContract.Safe i (Cache.bumpTenantCacheVersion tenantId) :=
    fun _ => bumpTenantCacheVersion_safe taskContract_tolerant
  cases k with
  | «export» => exact exportLoop_safe taskContract_tolerant
  | createTask =>
      refine .bind (.bind (ensureProject_safe taskContract_tolerant.lenient) fun _ => ?_) fun _ => .done
      exact .bind createTask_safe fun _ => bumpAndEmit_safe .done
  | updateTask =>
      refine .bind (.bind (ensureProject_safe taskContract_tolerant.lenient) fun _ => .bind (.bind .ensure fun _ => ?_)
        fun _ => bumpAndEmit_safe .done) fun _ => .done
      exact .bind utc fun _ => .bind uuid fun _ => changeTask_safe
  | bulkUpdateTaskStatus =>
      refine .bind .done fun _ => .bind bulkUpdate_safe fun _ => .bind (bump _) fun _ => ?_
      exact .bind (emitAll_safe fun _ =>
        emitTaskWebhook_safe taskContract_tolerant.lenient) fun _ => .done
  | archiveTask =>
      refine .bind (.bind (.bind utc fun _ => .bind uuid fun _ => .bind utc fun _ =>
        changeTask_safe) fun _ => ?_) fun _ => .done
      exact .bind (bump _) fun _ => emitTaskWebhook_safe taskContract_tolerant.lenient
  | restoreTask =>
      refine .bind (.bind (.bind utc fun _ => .bind uuid fun _ => .bind utc fun _ =>
        changeTask_safe) fun _ => ?_) fun _ => .done
      exact bumpAndEmit_safe .done

end Calls

/-! ### What an export collects -/

section Collected

variable {app : App} {tenantId : Uuid} {filters : TaskFilters}

/-- The tasks that match at the statements of a call. -/
def snapshots (app : App) (tenantId : Uuid) (filters : TaskFilters) (vs : List (Env × AppState)) :
    List (List TaskRecord) :=
  vs.map fun v => Tasks.matching app tenantId filters v.2

theorem after_error {vs : List (Env × AppState)} {x : AppError} {all : List TaskRecord} :
    (Prog.done (.error x) : Service (List TaskRecord)).after vs ≠ some (.done (.ok all)) := by
  cases vs with
  | nil => simp
  | cons v vs => simp [Prog.after]

/-- A finished export has collected a walk through the tasks that its chunk queries found. -/
theorem exportLoop_after {rounds : Nat} {cursor : Option Cursor} {collected all : List TaskRecord}
    {vs : List (Env × AppState)}
    (h : (Jobs.exportLoop app tenantId filters rounds cursor collected).after vs =
      some (.done (.ok all))) :
    all = collected ++ walk Tasks.taskKey Jobs.exportChunkSize (cursor.map Tasks.cursorKey)
        (snapshots app tenantId filters vs) ∧
      Complete Tasks.taskKey Jobs.exportChunkSize (cursor.map Tasks.cursorKey)
        (snapshots app tenantId filters vs) := by
  induction rounds generalizing cursor collected vs with
  | zero =>
      cases vs with
      | nil => cases h
      | cons v vs => exact absurd h after_error
  | succ rounds ih =>
      cases vs with
      | nil => cases h
      | cons v vs =>
          obtain ⟨e, s⟩ := v
          have hchunk : (orderedMatches app s tenantId filters cursor).take Jobs.exportChunkSize =
              page Tasks.taskKey Jobs.exportChunkSize (cursor.map Tasks.cursorKey)
                (Tasks.matching app tenantId filters s) := by
            rw [Tasks.orderedMatches_eq]
            rfl
          cases hf : e.fault with
          | failed =>
              simp only [Jobs.exportLoop, Tasks.exportTasks_eq, select, sql, sqlWhen, Prog.atomic,
                Prog.bind_eq, Prog.bind, Prog.after, hf] at h
              exact absurd h after_error
          | lost =>
              simp only [Jobs.exportLoop, Tasks.exportTasks_eq, select, sql, sqlWhen, Prog.atomic,
                Prog.bind_eq, Prog.bind, Prog.after, hf] at h
              exact absurd h after_error
          | none =>
              simp only [Jobs.exportLoop, Tasks.exportTasks_eq, select, sql, sqlWhen, Prog.atomic,
                Prog.bind_eq, Prog.bind, Prog.after, hf, hchunk] at h
              split at h
              -- A full chunk is not the last: the walk goes on behind its last row.
              · rename_i hfull
                obtain ⟨hall, hcomplete⟩ := ih h
                rw [Tasks.lastCursor_key] at hall hcomplete
                refine ⟨by rw [hall, List.append_assoc]; rfl, ?_⟩
                cases vs with
                | nil => exact hcomplete.elim
                | cons v vs => exact ⟨hfull, hcomplete⟩
              -- A chunk that is not full ends the loop, and the walk with it.
              · rename_i hshort
                cases vs with
                | nil =>
                    cases h
                    exact ⟨by simp [snapshots, walk], hshort⟩
                | cons v vs => cases h

theorem snapshots_distinct {vs : List (Env × AppState)} {rows : List TaskRecord}
    (h : rows ∈ snapshots app tenantId filters vs) : Distinct TaskRecord.id rows := by
  obtain ⟨v, -, rfl⟩ := List.mem_map.mp h
  exact v.2.db.tasks.nodup.sublist (List.filter_sublist.map _)

theorem snapshots_injOn {vs : List (Env × AppState)} {rows : List TaskRecord}
    (h : rows ∈ snapshots app tenantId filters vs) :
    Set.InjOn Tasks.taskKey {t | t ∈ rows} := by
  obtain ⟨v, -, rfl⟩ := List.mem_map.mp h
  exact Tasks.taskKey_injOn

/-- The tasks that match when call `i` executes its statements. -/
def seen (app : App) (tenantId : Uuid) (filters : TaskFilters) (i : Nat) (s : AppState)
    (ms : List (Move Env TaskCall)) : List (List TaskRecord) :=
  snapshots app tenantId filters ((exportSystem app).visits i (.start s) ms)

end Collected

/-- In a run whose updates advance `updated_at`, keys only grow from one statement to the next. -/
theorem seen_later {app : App} {tenantId : Uuid} {filters : TaskFilters} {i : Nat} {s : AppState}
    {ms : List (Move Env TaskCall)} {c : Config Event Env AppState AppError TaskCall _}
    (hadv : (exportSystem app).Along (fun d m => ∀ d', (exportSystem app).step d m = some d' →
      Advances d.st d'.st) (.start s) ms)
    (h : (exportSystem app).exec (.start s) ms = some c) :
    (seen app tenantId filters i s ms).Pairwise (Relational.Later Tasks.taskKey TaskRecord.id) := by
  have hpersist : (exportSystem app).Along (fun d m => ∀ d',
      (exportSystem app).step d m = some d' → Persist d.st d'.st) (.start s) ms :=
    along_rel (K := taskContract) (fun _ k => taskCall_safe k) (fun _ _ _ _ _ => trivial)
      Persist.refl (fun _ _ _ _ _ hg => hg) trivial h
  have hgrows := (hpersist.and hadv).mono fun d m hd d' hd' =>
    (hd.1 d' hd').grows (hd.2 d' hd')
  exact List.pairwise_map.mpr
    ((System.visits_pairwise Grows.refl Grows.trans hgrows).imp fun hg => hg.later)

end Exports

open Exports

/-- Where updates advance `updated_at`, a finished export has no task twice.  Of the tasks that
match at each of its chunk queries it has those that no update has moved, between one query and the
next, from behind the last row read to before it; among these are all that have not changed. -/
theorem export_under_updates {app : App} {s : AppState} {ms : List (Move Env TaskCall)}
    {c : Config Event Env AppState AppError TaskCall (List TaskRecord)} {i : Nat}
    {tenantId : Uuid} {filters : TaskFilters} {rounds : Nat} {all : List TaskRecord}
    (hadv : (exportSystem app).Along (fun d m => ∀ d', (exportSystem app).step d m = some d' →
      Advances d.st d'.st) (.start s) ms)
    (h : (exportSystem app).exec (.start s) ms = some c)
    (hi : c.calls[i]? = some (.export tenantId filters rounds, .done (.ok all))) :
    (all.map TaskRecord.id).Nodup ∧
    (∀ x, (∀ rows ∈ seen app tenantId filters i s ms, ∃ t ∈ rows, t.id = x) →
      (x ∈ all.map TaskRecord.id ↔ ¬ Overtaken Tasks.taskKey TaskRecord.id Jobs.exportChunkSize x
        none (seen app tenantId filters i s ms))) ∧
    ∀ t, (∀ rows ∈ seen app tenantId filters i s ms, t ∈ rows) → t ∈ all := by
  have hsize : 0 < Jobs.exportChunkSize := by decide
  obtain ⟨hall, hcomplete⟩ := exportLoop_after (System.calls_exec rfl h hi)
  rw [List.nil_append] at hall
  have hlater := @seen_later _ tenantId filters i _ _ _ hadv h
  have hdistinct : ∀ rows ∈ seen app tenantId filters i s ms, Distinct TaskRecord.id rows :=
    fun rows hr => snapshots_distinct hr
  have hmem : ∀ x, (∀ rows ∈ seen app tenantId filters i s ms, ∃ t ∈ rows, t.id = x) →
      (x ∈ all.map TaskRecord.id ↔ ¬ Overtaken Tasks.taskKey TaskRecord.id Jobs.exportChunkSize x
        none (seen app tenantId filters i s ms)) := by
    intro x hx
    rw [hall]
    exact mem_walk_iff hsize hdistinct hlater (fun rows hr => snapshots_injOn hr) hcomplete hx
      fun _ _ _ _ _ => below_none
  refine ⟨?_, hmem, fun t ht => ?_⟩
  · rw [hall]
    exact walk_nodup hsize hdistinct hlater hcomplete
  · have hid := (hmem t.id fun rows hr => ⟨t, ht rows hr, rfl⟩).mpr
      (not_overtaken_of_mem hdistinct ht)
    obtain ⟨t', ht', he⟩ := List.mem_map.mp hid
    obtain ⟨rows, hr, hmem', -⟩ := below_of_mem_walk hsize hcomplete (hall ▸ ht')
    obtain rfl := List.inj_on_of_nodup_map (hdistinct rows hr) hmem' (ht rows hr) he
    exact ht'

/-! ### An update between two chunks -/

namespace Exports

def numberedTask (n : Nat) : TaskRecord :=
  ⟨n, 1, none, "t", none, .open, .low, none, none, 9, 9, 0, n⟩

/-- A tenant with 501 tasks, task 0 the one that was updated first. -/
def manyTasks : AppState :=
  { (default : AppState) with
    db := { (default : Database) with
      tasks := ⟨(List.range 501).reverse.map numberedTask, by
        rw [List.map_map]
        exact (List.map_id' _).symm ▸ List.nodup_reverse.mpr List.nodup_range⟩ } }

def noFilters : TaskFilters := ⟨none, none, none, none, none, none, none, none, none⟩

/-- The export reads its first chunk, task 0 gets another title, and the export reads the rest. -/
def updateBetweenChunks : List (Move Env TaskCall) :=
  [.call (.export 1 noFilters 2),
    .call (.updateTask 1 0 9 ⟨none, some "u", none, none, none, none, none⟩),
    .exec 0 { (default : Env) with pid := 0 },
    .exec 1 { (default : Env) with pid := 1, now := 1000 },
    .exec 1 { (default : Env) with pid := 1, uuid := 7 },
    .exec 1 { (default : Env) with pid := 1 }, .exec 0 { (default : Env) with pid := 0 }]

/-- What the export has collected, once it has finished. -/
def collected (c : Config Event Env AppState AppError TaskCall (List TaskRecord)) :
    Option (List TaskRecord) :=
  match (c.calls[0]? : Option (TaskCall × Service (List TaskRecord))) with
  | some (.export tenantId filters rounds, .done (.ok all)) =>
    if tenantId = 1 ∧ filters = noFilters ∧ rounds = 2 then some all else none
  | _ => none

theorem calls_of_collected {c : Config Event Env AppState AppError TaskCall (List TaskRecord)}
    {all : List TaskRecord} (h : collected c = some all) :
    c.calls[0]? = some (.export 1 noFilters 2, .done (.ok all)) := by
  unfold collected at h
  split at h
  · rename_i hc
    split at h
    · rename_i heq
      obtain ⟨rfl, rfl, rfl⟩ := heq
      rw [hc, Option.some.inj h]
    · cases h
  · cases h

/-- Rows that change one by one, each to a later time, advance. -/
theorem advances_of_forall₂ {s s' : AppState}
    (h : List.Forall₂ (fun a b : TaskRecord => b.id = a.id ∧ (b = a ∨ a.updatedAt < b.updatedAt))
      s.db.tasks.rows s'.db.tasks.rows) : Advances s s' := by
  intro a ha b hb hab
  obtain ⟨n, hn, rfl⟩ := List.mem_iff_getElem.mp ha
  have hn' : n < s'.db.tasks.rows.length := h.length_eq ▸ hn
  obtain ⟨hkey, hrow⟩ := h.get hn hn'
  have hsame := Table.eq_of_key hb (List.getElem_mem hn') (hab.trans hkey.symm)
  rw [hsame]
  exact hrow

theorem updateBetweenChunks_advances :
    (exportSystem default).Along (fun d m => ∀ d', (exportSystem default).step d m = some d' →
      Advances d.st d'.st) (.start manyTasks) updateBetweenChunks := by
  have h : (exportSystem default).Along (fun d m => ∀ d',
      (exportSystem default).step d m = some d' → List.Forall₂ (fun a b : TaskRecord =>
        b.id = a.id ∧ (b = a ∨ a.updatedAt < b.updatedAt)) d.st.db.tasks.rows
        d'.st.db.tasks.rows) (.start manyTasks) updateBetweenChunks := by decide +kernel
  exact h.mono fun d m hd d' hd' => advances_of_forall₂ (hd d' hd')

theorem updateBetweenChunks_collected :
    ∃ c, ∃ all : List TaskRecord, (exportSystem default).exec (.start manyTasks) updateBetweenChunks = some c ∧
      c.calls[0]? = some (.export 1 noFilters 2, .done (.ok all)) ∧
      0 ∉ all.map TaskRecord.id := by
  have h : ((exportSystem default).exec (.start manyTasks) updateBetweenChunks).any fun c =>
      (collected c).any fun all => 0 ∉ all.map TaskRecord.id := by decide +kernel
  obtain ⟨c, hc, h⟩ := (Option.any_eq_true _ _).mp h
  obtain ⟨all, hall, h⟩ := (Option.any_eq_true _ _).mp h
  exact ⟨c, all, hc, calls_of_collected hall, of_decide_eq_true h⟩

end Exports

/-- The statement about that run. -/
theorem export_under_updates_between_chunks :
    ∃ c, ∃ all : List TaskRecord, (exportSystem default).exec (.start manyTasks) updateBetweenChunks = some c ∧
      (all.map TaskRecord.id).Nodup ∧
      (∀ x, (∀ rows ∈ seen default 1 noFilters 0 manyTasks updateBetweenChunks,
          ∃ t ∈ rows, t.id = x) →
        (x ∈ all.map TaskRecord.id ↔ ¬ Overtaken Tasks.taskKey TaskRecord.id
          Jobs.exportChunkSize x none
            (seen default 1 noFilters 0 manyTasks updateBetweenChunks))) ∧
      ∀ t, (∀ rows ∈ seen default 1 noFilters 0 manyTasks updateBetweenChunks, t ∈ rows) →
        t ∈ all := by
  obtain ⟨c, all, hc, hi, -⟩ := updateBetweenChunks_collected
  exact ⟨c, all, hc, export_under_updates updateBetweenChunks_advances hc hi⟩

/-- Task 0 matches throughout, each update advances, and yet the export misses task 0. -/
theorem export_misses_updated :
    (exportSystem default).Along (fun d m => ∀ d', (exportSystem default).step d m = some d' →
      Advances d.st d'.st) (.start manyTasks) updateBetweenChunks ∧
    (exportSystem default).Through
      (fun d => 0 ∈ (Tasks.matching default 1 noFilters d.st).map TaskRecord.id)
      (.start manyTasks) updateBetweenChunks ∧
    ∃ c, ∃ all : List TaskRecord, (exportSystem default).exec (.start manyTasks) updateBetweenChunks = some c ∧
      c.calls[0]? = some (.export 1 noFilters 2, .done (.ok all)) ∧
      0 ∉ all.map TaskRecord.id :=
  ⟨updateBetweenChunks_advances, by decide +kernel, updateBetweenChunks_collected⟩

end Fluxa
