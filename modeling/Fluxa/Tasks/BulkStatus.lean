import Fluxa.State.Plays
import Fluxa.Tasks.Writes
import Mathlib.Data.List.Induction
import Mathlib.Data.List.Perm.Subperm

/-!
# Tasks — the bulk status update

One request sets the status of many tasks, when no statement of it fails.

**`bulk_status_update`**: the operation returns.  Either it returns an error and no task and no audit row has changed; or it returns the tasks with the requested ids, each once and in the order in which the ids were first requested, and the status of these tasks, and nothing else of any task, has changed, with one audit row for each.
-/

namespace Fluxa
open Interleave Relational Db Contract

namespace BulkStatus

open Plays

variable {app : App} {tenantId actorId : Uuid} {taskIds ids : List Uuid} {status : TaskStatus}
  {es : List Env} {s s' : AppState}

/-! ### What the operation is to do -/

/-- The status of the tasks has been set, and that has been recorded. -/
structure Updated (s s' : AppState) (tenantId actorId : Uuid) (status : TaskStatus)
    (tasks : List TaskRecord) : Prop where
  /-- The tasks are rows of the tenant, with the new status. -/
  rows : ∀ t ∈ tasks, t ∈ s'.db.tasks ∧ t.status = status ∧ t.updatedBy = actorId ∧
    ∃ t₀ ∈ s.db.tasks, t₀.tenantId = tenantId ∧
      t = { t₀ with status, updatedBy := actorId, updatedAt := t.updatedAt }
  /-- The other tasks are what they were. -/
  others : ∀ t, t.id ∉ tasks.map (·.id) → (t ∈ s'.db.tasks ↔ t ∈ s.db.tasks)
  /-- The audit log has one more row for each task. -/
  audit : ∃ entries : List TaskAuditRecord,
    s'.db.taskAudit.rows = s.db.taskAudit.rows ++ entries ∧
      (entries.map (·.taskId)).Perm (tasks.map fun t => some t.id) ∧
      ∀ a ∈ entries, a.tenantId = tenantId ∧ a.actorUserId = actorId ∧
        a.eventType = "task_status_updated" ∧ a.payload = .obj [("status", .str status.asStr)]

/-- What the operation returns, and what it leaves. -/
def Outcome (s s' : AppState) (tenantId actorId : Uuid) (taskIds : List Uuid)
    (status : TaskStatus) : Except AppError (List TaskRecord) → Prop
  | .error _ => s'.db.tasks = s.db.tasks ∧ s'.db.taskAudit = s.db.taskAudit
  | .ok tasks => tasks.map (·.id) = taskIds.eraseDups ∧ Updated s s' tenantId actorId status tasks

theorem Updated.perm {tasks tasks' : List TaskRecord}
    (h : Updated s s' tenantId actorId status tasks) (hp : tasks.Perm tasks') :
    Updated s s' tenantId actorId status tasks' := by
  obtain ⟨entries, hrows, hids, hentries⟩ := h.audit
  refine ⟨fun t ht => h.rows t (hp.mem_iff.mpr ht), fun t ht => h.others t fun hmem => ?_,
    entries, hrows, hids.trans (hp.map _), hentries⟩
  exact ht ((hp.map _).mem_iff.mp hmem)

/-! ### The requested ids -/

theorem firstSeen_concat {id : Uuid} : Tasks.firstSeen (ids ++ [id]) =
    if (Tasks.firstSeen ids).contains id then Tasks.firstSeen ids
    else Tasks.firstSeen ids ++ [id] := by
  simp [Tasks.firstSeen]

theorem nodup_firstSeen : (Tasks.firstSeen ids).Nodup := by
  induction ids using List.reverseRecOn with
  | nil => exact List.nodup_nil
  | append_singleton ids id ih =>
      rw [firstSeen_concat]
      split
      · exact ih
      · rename_i hmem
        rw [List.nodup_append]
        refine ⟨ih, List.nodup_singleton _, ?_⟩
        rintro a ha b hb rfl
        rw [List.mem_singleton] at hb
        exact hmem (by simpa [hb] using ha)

/-- The ids are taken in the order in which they first occur. -/
theorem firstSeen_eq_eraseDups : Tasks.firstSeen ids = ids.eraseDups := by
  induction ids using List.reverseRecOn with
  | nil => rfl
  | append_singleton ids id ih =>
      rw [firstSeen_concat, ih, List.eraseDups_append]
      by_cases hmem : id ∈ ids
      · simp [hmem, List.removeAll]
      · simp [hmem, List.removeAll, List.eraseDups_cons]

theorem eq_of_normalizeBulkTaskIds (h : Tasks.normalizeBulkTaskIds taskIds = .ok ids) :
    ids = taskIds.eraseDups := by
  unfold Tasks.normalizeBulkTaskIds at h
  dsimp only at h
  split at h
  · cases h
  · split at h
    · cases h
    · cases h
      exact firstSeen_eq_eraseDups

/-- Sorted by the place of their ids, tasks with the given ids have them in the given order. -/
theorem ids_of_sorted {tasks : List TaskRecord} (hids : (tasks.map (·.id)).Perm ids)
    (hnodup : ids.Nodup) :
    (tasks.insertionSort fun a b => ids.idxOf a.id ≤ ids.idxOf b.id).map (·.id) = ids := by
  have hperm := (List.perm_insertionSort
    (fun a b : TaskRecord => ids.idxOf a.id ≤ ids.idxOf b.id) tasks).map (·.id)
  refine @List.Perm.eq_of_pairwise _ (fun a b => ids.idxOf a ≤ ids.idxOf b) _ _ ?_ ?_ ?_
    (hperm.trans hids)
  · intro a b ha hb hab hba
    exact (List.idxOf_inj ((hperm.trans hids).mem_iff.mp ha)).mp (Nat.le_antisymm hab hba)
  · have : Std.Total fun a b : TaskRecord => ids.idxOf a.id ≤ ids.idxOf b.id :=
      ⟨fun a b => Nat.le_total _ _⟩
    have : IsTrans TaskRecord fun a b => ids.idxOf a.id ≤ ids.idxOf b.id :=
      ⟨fun a b c => Nat.le_trans⟩
    exact List.pairwise_map.mpr (List.pairwise_insertionSort _ tasks)
  · rw [List.pairwise_iff_getElem]
    intro i j hi hj hij
    rw [List.Nodup.idxOf_getElem hnodup i hi, List.Nodup.idxOf_getElem hnodup j hj]
    exact hij.le

/-! ### The transaction -/

theorem play_newUuids {r : Except AppError (List Uuid)}
    (h : play (newUuids ids) es s = some (r, s')) :
    s'.db = s.db ∧ ∃ uuids, r = .ok uuids ∧ uuids.length = ids.length := by
  induction ids generalizing es s s' r with
  | nil =>
      obtain ⟨-, rfl, rfl⟩ := play_done h
      exact ⟨rfl, [], rfl, rfl⟩
  | cons id ids ih =>
      rcases play_bind_cases h with ⟨x, rfl, hx⟩ | ⟨a, es₁, es₂, t, rfl, h₁, h₂⟩
      · obtain ⟨-, _, hx⟩ := play_newUuid hx
        cases hx
      · obtain ⟨hdb, -⟩ := play_newUuid h₁
        rcases play_bind_cases h₂ with ⟨x, rfl, hx⟩ | ⟨uuids, es₃, es₄, t', rfl, h₃, h₄⟩
        · obtain ⟨-, _, hx, -⟩ := ih hx
          cases hx
        · obtain ⟨hdb', _, he, hlen⟩ := ih h₃
          cases he
          obtain ⟨-, rfl, rfl⟩ := play_done h₄
          exact ⟨hdb'.trans hdb, _, rfl, congrArg (· + 1) hlen⟩

/-- The tasks that the `UPDATE` finds when it finds as many as were asked for. -/
theorem ids_of_found {p : TaskRecord → Bool} {now : Time}
    (hp : ∀ t ∈ s.db.tasks, p t = true → t.id ∈ ids)
    (hlen : ((s.db.tasks.select p).map (withStatus status actorId now)).length = ids.length) :
    (((s.db.tasks.select p).map (withStatus status actorId now)).map (·.id)).Perm ids := by
  have hids : ((s.db.tasks.select p).map (withStatus status actorId now)).map (·.id) =
      (s.db.tasks.select p).map (·.id) := by
    rw [List.map_map]
    rfl
  rw [hids]
  have hnodup : ((s.db.tasks.select p).map (·.id)).Nodup :=
    s.db.tasks.nodup.sublist (List.filter_sublist.map _)
  have hsub : (s.db.tasks.select p).map (·.id) ⊆ ids := by
    intro id hid
    obtain ⟨t, ht, rfl⟩ := List.mem_map.mp hid
    obtain ⟨ht, hpt⟩ := Table.mem_select.mp ht
    exact hp t ht hpt
  refine (hnodup.subperm hsub).perm_of_length_le ?_
  rw [List.length_map, ← hlen, List.length_map]

/-- The tasks of the tenant that are asked for. -/
def requested (tenantId : Uuid) (ids : List Uuid) (t : TaskRecord) : Bool :=
  t.tenantId = tenantId && ids.contains t.id

theorem requested_iff {t : TaskRecord} :
    requested tenantId ids t = true ↔ t.tenantId = tenantId ∧ t.id ∈ ids := by
  simp [requested]

/-- The audit row of one task. -/
def entry (tenantId actorId : Uuid) (status : TaskStatus) (now : Time) (x : TaskRecord × Uuid) :
    TaskAuditRecord :=
  { id := x.2, taskId := some x.1.id, tenantId, actorUserId := actorId,
    eventType := "task_status_updated", payload := .obj [("status", .str status.asStr)],
    createdAt := now }

/-- What the `UPDATE` and the insertion of the audit rows leave. -/
theorem updated_of_commit {now : Time} {uuids : List Uuid} {tasks : List TaskRecord}
    (htasks : tasks = (s.db.tasks.select (requested tenantId ids)).map
      (withStatus status actorId now)) (hlen : tasks.length = uuids.length)
    (hids : (tasks.map (·.id)).Perm ids)
    (hrows : s'.db.tasks = s.db.tasks.update (requested tenantId ids)
      (withStatus status actorId now) ⟨fun _ => rfl⟩)
    (haudit : s.db.taskAudit.insertAll ((tasks.zip uuids).map (entry tenantId actorId status now)) =
      some s'.db.taskAudit) : Updated s s' tenantId actorId status tasks := by
  refine ⟨fun t ht => ?_, fun t ht => ?_, _, Table.rows_insertAll haudit, ?_, fun a ha => ?_⟩
  · rw [htasks] at ht
    obtain ⟨t₀, ht₀, rfl⟩ := List.mem_map.mp ht
    obtain ⟨hmem, hreq⟩ := Table.mem_select.mp ht₀
    refine ⟨?_, rfl, rfl, t₀, hmem, (requested_iff.mp hreq).1, rfl⟩
    rw [hrows]
    exact Table.mem_update_of_true hmem hreq
  · rw [hrows, Table.mem_update]
    constructor
    · rintro ⟨t₀, hmem, rfl⟩
      by_cases hreq : requested tenantId ids t₀ = true
      · -- A task that is asked for is one of those that are returned.
        simp only [hreq, if_true] at ht
        exact absurd (hids.mem_iff.mpr (requested_iff.mp hreq).2) ht
      · simpa [hreq] using hmem
    · intro hmem
      have hreq : ¬ requested tenantId ids t = true := fun hreq =>
        ht (hids.mem_iff.mpr (requested_iff.mp hreq).2)
      exact ⟨t, hmem, by simp only [hreq]; rfl⟩
  · rw [List.map_map]
    have hzip : (tasks.zip uuids).map ((fun a => a.taskId) ∘ entry tenantId actorId status now) =
        ((tasks.zip uuids).map Prod.fst).map fun t => some t.id := by
      rw [List.map_map]
      rfl
    rw [hzip, List.map_fst_zip hlen.le]
  · obtain ⟨x, -, rfl⟩ := List.mem_map.mp ha
    exact ⟨rfl, rfl, rfl, rfl⟩

/-- The transaction fails and changes nothing, or it does what it should. -/
theorem play_bulkUpdate (hc : Clean es) {r : Except AppError (List TaskRecord)}
    (h : play (Db.bulkUpdateTaskStatus tenantId actorId ids status) es s = some (r, s')) :
    (s'.db = s.db ∧ ∃ x, r = .error x) ∨ ∃ tasks, r = .ok tasks ∧
      (tasks.map (·.id)).Perm ids ∧ Updated s s' tenantId actorId status tasks := by
  rcases play_bind_cases h with ⟨x, rfl, hx⟩ | ⟨now, es₁, es₂, t, rfl, h₁, h₂⟩
  · obtain ⟨-, _, -, hx⟩ := play_utcNow hx
    cases hx
  obtain ⟨rfl, -⟩ := play_utcNow h₁
  rcases play_bind_cases h₂ with ⟨x, rfl, hx⟩ | ⟨uuids, es₃, es₄, t', rfl, h₃, h₄⟩
  · obtain ⟨-, _, hx, -⟩ := play_newUuids hx
    cases hx
  obtain ⟨hdb, _, he, huuids⟩ := play_newUuids h₃
  cases he
  obtain ⟨e, -, -, hrun⟩ := play_sqlWhen hc.append.2.append.2 h₄
  dsimp only at hrun
  split at hrun
  · obtain ⟨rfl, rfl⟩ := Prod.mk.inj hrun
    exact .inl ⟨hdb, _, rfl⟩
  rename_i hlen
  rw [not_not] at hlen
  split at hrun
  · rename_i taskAudit haudit
    obtain ⟨rfl, rfl⟩ := Prod.mk.inj hrun
    have hids := ids_of_found (fun t _ hp => (requested_iff.mp hp).2) hlen
    refine .inr ⟨_, rfl, hids, ?_⟩
    refine @updated_of_commit _ _ _ _ _ _ now uuids _ ?_ (hlen.trans huuids.symm) hids ?_ ?_
    · rw [hdb]
      rfl
    · rw [hdb]
      rfl
    · rw [← hdb]
      exact haudit
  · obtain ⟨rfl, rfl⟩ := Prod.mk.inj hrun
    exact .inl ⟨hdb, _, rfl⟩

/-! ### After the transaction -/

/-- The tasks and their audit rows are left alone. -/
def SameTasks (s s' : AppState) : Prop :=
  s'.db.tasks = s.db.tasks ∧ s'.db.taskAudit = s.db.taskAudit

theorem SameTasks.trans {s₁ s₂ : AppState} (h : SameTasks s s₁) (h' : SameTasks s₁ s₂) :
    SameTasks s s₂ :=
  ⟨h'.1.trans h.1, h'.2.trans h.2⟩

theorem Updated.sameTasks {s₁ : AppState} {tasks : List TaskRecord}
    (h : Updated s s₁ tenantId actorId status tasks) (hs : SameTasks s₁ s') :
    Updated s s' tenantId actorId status tasks := by
  refine ⟨?_, ?_, ?_⟩
  · rw [hs.1]
    exact h.rows
  · rw [hs.1]
    exact h.others
  · rw [hs.2]
    exact h.audit

/-- Whether it succeeds or fails, the queueing of a delivery is swallowed. -/
theorem play_emitTaskWebhook {eventType : String} {task : TaskRecord} {r : Except AppError Unit}
    (h : play (emitTaskWebhook app tenantId eventType task) es s = some (r, s')) :
    r = .ok () ∧ SameTasks s s' := by
  have queued : ∀ {es s s'} {r : Except AppError (Except AppError Nat)},
      play (enqueueWebhookDeliveries tenantId eventType (taskResponseValue app task)).attempt es s =
        some (r, s') → (∃ r₀, r = .ok r₀) ∧ SameTasks s s' := by
    intro es s s' r h
    obtain ⟨r₀, rfl, h₀⟩ := play_attempt h
    refine ⟨⟨r₀, rfl⟩, ?_⟩
    rcases play_bind_cases h₀ with ⟨x, -, hx⟩ | ⟨now, es₁, es₂, t, rfl, h₁, h₂⟩
    · obtain ⟨rfl, -⟩ := play_utcNow hx
      exact ⟨rfl, rfl⟩
    · obtain ⟨rfl, -⟩ := play_utcNow h₁
      obtain ⟨e, -, ⟨rfl, -⟩ | ⟨rfl, -⟩⟩ := play_sql h₂
      · exact ⟨rfl, rfl⟩
      · dsimp only
        split
        · exact ⟨rfl, rfl⟩
        · exact ⟨rfl, rfl⟩
  rcases play_bind_cases h with ⟨x, -, hx⟩ | ⟨_, es₁, es₂, t, -, h₁, h₂⟩
  · obtain ⟨⟨_, hx⟩, -⟩ := queued hx
    cases hx
  · obtain ⟨-, rfl, rfl⟩ := play_done h₂
    exact ⟨rfl, (queued h₁).2⟩

theorem play_emitAll {eventType : String} {tasks : List TaskRecord} {r : Except AppError Unit}
    (h : play (Tasks.emitAll app tenantId eventType tasks) es s = some (r, s')) :
    r = .ok () ∧ SameTasks s s' := by
  induction tasks generalizing es s with
  | nil =>
      obtain ⟨-, rfl, rfl⟩ := play_done h
      exact ⟨rfl, rfl, rfl⟩
  | cons task tasks ih =>
      rcases play_bind_cases h with ⟨x, -, hx⟩ | ⟨_, es₁, es₂, t, -, h₁, h₂⟩
      · cases (play_emitTaskWebhook hx).1
      · obtain ⟨hr, hsame⟩ := ih h₂
        exact ⟨hr, (play_emitTaskWebhook h₁).2.trans hsame⟩

theorem play_bump (hc : Clean es) {r : Except AppError Nat}
    (h : play (Cache.bumpTenantCacheVersion tenantId) es s = some (r, s')) :
    (∃ version, r = .ok version) ∧ SameTasks s s' := by
  obtain ⟨e, rfl, -, hrun⟩ := play_atomic h
  simp only [hc e (List.mem_singleton_self e)] at hrun
  obtain ⟨rfl, rfl⟩ := Prod.mk.inj hrun
  exact ⟨⟨_, rfl⟩, rfl, rfl⟩

/-- However it ends, the operation has done what it should. -/
theorem play_outcome (hc : Clean es) {r : Except AppError (List TaskRecord)}
    (h : play (Tasks.bulkUpdateTaskStatus app tenantId actorId taskIds status) es s =
      some (r, s')) : Outcome s s' tenantId actorId taskIds status r := by
  unfold Tasks.bulkUpdateTaskStatus at h
  cases hids : Tasks.normalizeBulkTaskIds taskIds with
  | error x =>
      rw [hids] at h
      obtain ⟨-, rfl, rfl⟩ := play_done h
      exact ⟨rfl, rfl⟩
  | ok ids =>
      rw [hids] at h
      change play ((Db.bulkUpdateTaskStatus tenantId actorId ids status).bind _) es s = _ at h
      rcases play_bind_cases h with ⟨x, rfl, hx⟩ | ⟨tasks, es₁, es₂, t, rfl, h₁, h₂⟩
      · rcases play_bulkUpdate hc hx with ⟨hdb, -⟩ | ⟨_, hx, -⟩
        · exact ⟨by rw [hdb], by rw [hdb]⟩
        · cases hx
      · rcases play_bulkUpdate hc.append.1 h₁ with ⟨-, _, hx⟩ | ⟨_, hx, hperm, hupdated⟩
        · cases hx
        · cases hx
          -- Once the change is committed, nothing that follows can fail.
          rcases play_bind_cases h₂ with ⟨x, -, hx⟩ | ⟨_, es₃, es₄, t', rfl, h₃, h₄⟩
          · obtain ⟨⟨_, hx⟩, -⟩ := play_bump hc.append.2 hx
            cases hx
          · have hbump := (play_bump hc.append.2.append.1 h₃).2
            rcases play_bind_cases h₄ with ⟨x, -, hx⟩ | ⟨_, es₅, es₆, t'', rfl, h₅, h₆⟩
            · cases (play_emitAll hx).1
            · obtain ⟨-, rfl, rfl⟩ := play_done h₆
              have hdedup := eq_of_normalizeBulkTaskIds hids
              have hnodup : ids.Nodup := by
                rw [hdedup, ← firstSeen_eq_eraseDups]
                exact nodup_firstSeen
              refine ⟨(ids_of_sorted hperm hnodup).trans hdedup, ?_⟩
              have hsame := hbump.trans (play_emitAll h₅).2
              exact (hupdated.sameTasks hsame).perm (List.perm_insertionSort _ _).symm

/-- No statement of the operation waits. -/
theorem unblocked :
    Unblocked (Tasks.bulkUpdateTaskStatus app tenantId actorId taskIds status) := by
  have huuids : ∀ ids, Unblocked (newUuids ids) := by
    intro ids
    induction ids with
    | nil => trivial
    | cons id ids ih =>
        exact Unblocked.bind unblocked_atomic fun _ => Unblocked.bind ih fun _ => trivial
  have hemit : ∀ tasks : List TaskRecord,
      Unblocked (Tasks.emitAll app tenantId "task_status_updated" tasks) := by
    intro tasks
    induction tasks with
    | nil => trivial
    | cons task tasks ih =>
        refine Unblocked.bind (Unblocked.bind (Unblocked.attempt ?_) fun _ => trivial) fun _ => ih
        exact Unblocked.bind unblocked_atomic fun _ => unblocked_atomic
  unfold Tasks.bulkUpdateTaskStatus
  cases Tasks.normalizeBulkTaskIds taskIds with
  | error x => trivial
  | ok ids =>
      change Unblocked ((Db.bulkUpdateTaskStatus tenantId actorId ids status).bind _)
      refine Unblocked.bind ?_ fun tasks => Unblocked.bind unblocked_atomic fun _ =>
        Unblocked.bind (hemit _) fun _ => trivial
      exact Unblocked.bind unblocked_atomic fun _ => Unblocked.bind (huuids ids) fun _ =>
        unblocked_atomic

end BulkStatus

open BulkStatus in
/-- Where no statement fails, the operation returns, with an error and no task or audit row changed,
or with the tasks that were asked for, each once and in the order in which they were, which now have
the status, and the audit log one more row for each. -/
theorem bulk_status_update (app : App) (tenantId actorId : Uuid) (taskIds : List Uuid)
    (status : TaskStatus) (s : AppState) (es : Nat → Env) (hclean : ∀ n, (es n).fault = .none) :
    ∃ n r s', play (Tasks.bulkUpdateTaskStatus app tenantId actorId taskIds status)
        ((List.range n).map es) s = some (r, s') ∧
      Outcome s s' tenantId actorId taskIds status r := by
  obtain ⟨n, r, s', h⟩ := unblocked.exists_play es s
  refine ⟨n, r, s', h, play_outcome (fun e he => ?_) h⟩
  obtain ⟨k, -, rfl⟩ := List.mem_map.mp he
  exact hclean k

/-- Two open tasks of tenant 1. -/
def twoOpenTasks : AppState :=
  { (default : AppState) with
    db := { (default : Database) with
      tasks := ⟨[⟨100, 1, none, "a", none, .open, .medium, none, none, 10, 10, 0, 0⟩,
        ⟨101, 1, none, "b", none, .open, .medium, none, none, 10, 10, 0, 0⟩], by decide⟩ } }

/-- The second task is asked for first, and again last. -/
theorem bulk_status_update_two :
    ∃ n r s', play (Tasks.bulkUpdateTaskStatus default 1 12 [101, 100, 101] .done)
        ((List.range n).map fun n => { (default : Env) with uuid := 1000 + n }) twoOpenTasks =
          some (r, s') ∧
      BulkStatus.Outcome twoOpenTasks s' 1 12 [101, 100, 101] .done r :=
  bulk_status_update default 1 12 [101, 100, 101] .done twoOpenTasks
    (fun n => { (default : Env) with uuid := 1000 + n }) fun _ => rfl

end Fluxa
