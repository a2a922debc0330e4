import Fluxa.Tasks.Pages

/-!
# Tasks — the dashboard

The counts of `dashboard_summary` beside the listing of the tasks with one status.

**`dashboard_agrees`**: a client that follows the pages of the listing gets as many tasks as the dashboard counts if and only if no task of the tenant with this status is in an archived project.  The listing hides the tasks of archived projects, and the dashboard counts them.
-/

namespace Fluxa
open Interleave Relational Db Tasks

/-- The count that is reported for a status; archived tasks are not counted. -/
def Db.DashboardSummary.reported (summary : DashboardSummary) : TaskStatus → Option Nat
  | .open => some summary.openTaskCount
  | .inProgress => some summary.inProgressTaskCount
  | .done => some summary.doneTaskCount
  | .archived => none

/-- Only the status filter. -/
def onlyStatus (status : TaskStatus) : TaskFilters :=
  { status := some status, priority := none, projectId := none, assigneeId := none,
    labelId := none, dueBefore := none, dueAfter := none, updatedAfter := none, q := none }

namespace Dashboard

section

variable {app : App} {s : AppState} {tenantId : Uuid} {status : TaskStatus}

/-- The project of the task is archived. -/
def InArchivedProject (s : AppState) (t : TaskRecord) : Prop :=
  ∃ p ∈ s.db.projects, t.projectId = some p.id ∧ p.archivedAt.isSome = true

/-- The tenant's tasks with a status. -/
def tasksWithStatus (s : AppState) (tenantId : Uuid) (status : TaskStatus) : List TaskRecord :=
  s.db.tasks.select fun t => t.tenantId = tenantId && t.status = status

theorem play_select_alone {A : Type} {run : Env → AppState → A} {e : Env} (he : e.fault = .none) :
    play (select run) [e] s = some (.ok (run e s), s) := by
  simp [select, sql, sqlWhen, Prog.atomic, play, he]

/-- The dashboard counts them all. -/
theorem play_dashboardSummary {e : Env} (he : e.fault = .none) (hstatus : status ≠ .archived) :
    ∃ summary, play (dashboardSummary tenantId) [e] s = some (.ok summary, s) ∧
      summary.reported status = some (tasksWithStatus s tenantId status).length := by
  refine ⟨_, play_select_alone he, ?_⟩
  have hcount : (tasksWithStatus s tenantId status).length =
      (s.db.tasks.select fun t => t.tenantId = tenantId).countP fun t => t.status = status := by
    rw [List.countP_eq_length_filter, tasksWithStatus, Table.select, Table.select,
      List.filter_filter]
    simp only [Bool.and_comm]
  rw [hcount]
  cases status with
  | archived => exact absurd rfl hstatus
  | _ => rfl

/-- The listing has those that are in no archived project. -/
theorem matching_onlyStatus : matching app tenantId (onlyStatus status) s =
    (tasksWithStatus s tenantId status).filter
      fun t => !(s.db.projects.any fun p => t.projectId = some p.id && p.archivedAt.isSome) := by
  rw [matching, tasksWithStatus, Table.select, Table.select, List.filter_filter]
  refine List.filter_congr fun t _ => ?_
  simp only [matchesFilters, onlyStatus, wanted, Option.all_some, Option.all_none, Bool.and_true]
  rw [Bool.and_comm]

theorem archived_any_iff {t : TaskRecord} :
    (!(s.db.projects.any fun p => t.projectId = some p.id && p.archivedAt.isSome)) = true ↔
      ¬ InArchivedProject s t := by
  rw [Bool.not_eq_true', ← Bool.not_eq_true, Table.any_eq_true, not_iff_not]
  simp only [Bool.and_eq_true, decide_eq_true_eq]
  rfl

end

end Dashboard

open Dashboard in
/-- For a status that is not archived: the dashboard counts as many tasks as the pages of the listing
with this status have, if and only if no task of the tenant with the status is in an archived
project. -/
theorem dashboard_agrees (app : App) (hlib : Codecs app.lib) (s : AppState) (tenantId : Uuid)
    (status : TaskStatus) (hstatus : status ≠ .archived) (limits : Nat → Nat)
    (hlimits : ∀ n, 1 ≤ limits n) :
    ∃ n pages, (∀ es, Executed n es →
        play (followPages app tenantId (onlyStatus status) ((List.range n).map limits) none) es s =
          some (.ok pages, s)) ∧
      EndsOnce pages ∧
      ∀ e : Env, e.fault = .none → ∃ summary,
        play (dashboardSummary tenantId) [e] s = some (.ok summary, s) ∧
        (summary.reported status = some (pages.flatMap (·.data)).length ↔
          ∀ t ∈ s.db.tasks, t.tenantId = tenantId → t.status = status →
            ¬ InArchivedProject s t) := by
  obtain ⟨n, pages, hplay, hdata, hends⟩ :=
    @followPages_play _ s tenantId (onlyStatus status) _ hlib _ hlimits none rfl
  refine ⟨n, pages, hplay, hends, fun e he => ?_⟩
  obtain ⟨summary, hrun, hreported⟩ := play_dashboardSummary he hstatus
  refine ⟨summary, hrun, ?_⟩
  have hlength : (pages.flatMap (·.data)).length =
      (matching app tenantId (onlyStatus status) s).length := by
    rw [hdata, orderedMatches_eq, descending, List.length_insertionSort]
    exact congrArg List.length (List.filter_eq_self.mpr fun t _ => decide_eq_true below_none)
  rw [hreported, hlength, matching_onlyStatus, Option.some_inj, eq_comm,
    List.length_filter_eq_length_iff]
  constructor
  · intro hall t ht htenant hthat
    refine archived_any_iff.mp (hall t (Table.mem_select.mpr ⟨ht, ?_⟩))
    simp only [htenant, hthat, decide_true, Bool.and_true]
  · intro hall t ht
    obtain ⟨hmem, hwith⟩ := Table.mem_select.mp ht
    rw [Bool.and_eq_true, decide_eq_true_eq, decide_eq_true_eq] at hwith
    exact archived_any_iff.mpr (hall t hmem hwith.1 hwith.2)

/-- An open task of tenant 1 in an archived project. -/
def archivedProject : AppState :=
  { (default : AppState) with
    db := { (default : Database) with
      projects := ⟨[⟨40, 1, "p", none, 9, 9, 0, 0, some 2⟩], by decide⟩
      tasks := ⟨[⟨5, 1, some 40, "a", none, .open, .low, none, none, 9, 9, 0, 3⟩], by decide⟩ } }

open Dashboard in
theorem dashboard_agrees_twoTasks :
    ∃ n pages, (∀ es, Executed n es →
        play (followPages unary 1 (onlyStatus .open) ((List.range n).map fun _ => 1) none) es
          twoTasks = some (.ok pages, twoTasks)) ∧
      EndsOnce pages ∧
      ∀ e : Env, e.fault = .none → ∃ summary,
        play (dashboardSummary 1) [e] twoTasks = some (.ok summary, twoTasks) ∧
        (summary.reported .open = some (pages.flatMap (·.data)).length ↔
          ∀ t ∈ twoTasks.db.tasks, t.tenantId = 1 → t.status = .open →
            ¬ InArchivedProject twoTasks t) :=
  dashboard_agrees unary unary_codecs twoTasks 1 .open (by decide) (fun _ => 1) fun _ => le_rfl

/-- The dashboard counts the task, and the listing ends with its first page, which is empty. -/
theorem dashboard_counts_hidden_task :
    (∃ summary, play (dashboardSummary 1) [default] archivedProject =
        some (.ok summary, archivedProject) ∧ summary.reported .open = some 1) ∧
      play (followPages default 1 (onlyStatus .open) [50] none) [default] archivedProject =
        some (.ok [⟨[], none⟩], archivedProject) :=
  ⟨⟨_, Dashboard.play_select_alone rfl, rfl⟩, rfl⟩

end Fluxa
