import Fluxa.Services.Jobs
import Fluxa.Texts.Csv

/-!
# Tasks — CSV export

What `render_tasks_csv` writes, a reader of RFC 4180 reads back.

**`csv_round_trip`**: for every list of tasks, whatever is in their texts, the reader finds the header and then a record for each task, in order and with as many fields as the header, and under each name in the header what the task has in this column.
-/

namespace Fluxa
open Jobs

/-- The records of a text, by a reader of RFC 4180. -/
def readCsv (text : String) : Option (List (List String)) :=
  (Csv.read text.toList).map fun records => records.map fun fields => fields.map String.ofList

/-- A column of the export. -/
inductive CsvColumn where
  | id
  | projectId
  | title
  | description
  | status
  | priority
  | assigneeId
  | dueAt
  | createdBy
  | updatedBy
  | createdAt
  | updatedAt

namespace CsvColumn

/-- The columns, in their order. -/
def all : List CsvColumn :=
  [id, projectId, title, description, status, priority, assigneeId, dueAt, createdBy, updatedBy,
    createdAt, updatedAt]

/-- The name in the header row. -/
def name : CsvColumn → String
  | id => "id"
  | projectId => "project_id"
  | title => "title"
  | description => "description"
  | status => "status"
  | priority => "priority"
  | assigneeId => "assignee_id"
  | dueAt => "due_at"
  | createdBy => "created_by"
  | updatedBy => "updated_by"
  | createdAt => "created_at"
  | updatedAt => "updated_at"

/-- What the task has in the column: nothing where the value is absent. -/
def text (app : App) (t : TaskRecord) : CsvColumn → String
  | id => app.lib.uuidString t.id
  | projectId => t.projectId.elim "" app.lib.uuidString
  | title => t.title
  | description => t.description.elim "" fun text => text
  | status => t.status.asStr
  | priority => t.priority.asStr
  | assigneeId => t.assigneeId.elim "" app.lib.uuidString
  | dueAt => t.dueAt.elim "" app.lib.rfc3339
  | createdBy => app.lib.uuidString t.createdBy
  | updatedBy => app.lib.uuidString t.updatedBy
  | createdAt => app.lib.rfc3339 t.createdAt
  | updatedAt => app.lib.rfc3339 t.updatedAt

end CsvColumn

namespace CsvExport

/-- An absent value is written as an empty text. -/
theorem getD_map {α : Type} (f : α → String) (o : Option α) : (o.map f).getD "" = o.elim "" f := by
  cases o <;> rfl

/-- The fields of a row are what the task has in the columns. -/
theorem csvFields_eq (app : App) (t : TaskRecord) :
    csvFields app t = CsvColumn.all.map (CsvColumn.text app t) := by
  have hdescription : t.description.getD "" = t.description.elim "" fun text => text := by
    cases t.description <;> rfl
  simp only [csvFields, getD_map, hdescription]
  rfl

/-- An escaped field stands for the field. -/
theorem writes_csvEscape (field : String) : Csv.Writes (csvEscape field).toList field.toList := by
  unfold csvEscape
  split
  · right
    simp
  · rename_i hplain
    refine .inl ⟨fun c hc => ?_, rfl⟩
    by_contra hspecial
    exact hplain (List.any_eq_true.mpr ⟨c, hc, eq_true_of_ne_false hspecial⟩)

/-- A row of the export is the line of its fields. -/
theorem row_toList (fields : List String) :
    (",".intercalate (fields.map csvEscape) ++ "\r\n").toList =
      Csv.line ((fields.map csvEscape).map String.toList) := by
  rw [String.toList_append, String.toList_intercalate]
  rfl

/-- The header row is the line of the names in it. -/
theorem header_toList :
    csvHeader.toList = Csv.line ((CsvColumn.all.map CsvColumn.name).map String.toList) := by
  decide

/-- The export is made of lines. -/
theorem renderTasksCsv_toList (app : App) (tasks : List TaskRecord) :
    (renderTasksCsv app tasks).toList =
      ((CsvColumn.all.map CsvColumn.name).map String.toList :: tasks.map fun t =>
        ((csvFields app t).map csvEscape).map String.toList).flatMap Csv.line := by
  rw [renderTasksCsv, String.toList_append, header_toList, List.flatMap_cons]
  congr 1
  induction tasks with
  | nil => rfl
  | cons t ts ih =>
      rw [List.map_cons, String.join_cons, String.toList_append, row_toList, ih, List.map_cons,
        List.flatMap_cons]

/-- The reader finds the names, and then the fields of the rows. -/
theorem readCsv_renderTasksCsv (app : App) (tasks : List TaskRecord) :
    readCsv (renderTasksCsv app tasks) =
      some (CsvColumn.all.map CsvColumn.name :: tasks.map (csvFields app)) := by
  have hread : Csv.read (renderTasksCsv app tasks).toList =
      some ((CsvColumn.all.map CsvColumn.name).map String.toList ::
        tasks.map fun t => (csvFields app t).map String.toList) := by
    rw [renderTasksCsv_toList]
    refine Csv.read_records (fun texts hmem => ?_) (.cons ?_ ?_)
    · rcases List.mem_cons.mp hmem with rfl | hmem
      · simp [CsvColumn.all]
      · obtain ⟨t, -, rfl⟩ := List.mem_map.mp hmem
        simp [csvFields]
    · -- No name in the header has to be quoted.
      refine List.forall₂_same.mpr fun name hname => .inl ⟨fun c hc => ?_, rfl⟩
      have hplain : ((CsvColumn.all.map CsvColumn.name).map String.toList).all (fun name =>
          name.all fun c => !Csv.isSpecial c) = true := by
        decide
      simpa using List.all_eq_true.mp (List.all_eq_true.mp hplain name hname) c hc
    · refine List.forall₂_map_left_iff.mpr (List.forall₂_map_right_iff.mpr ?_)
      refine List.forall₂_same.mpr fun t _ => ?_
      rw [List.map_map, List.forall₂_map_left_iff, List.forall₂_map_right_iff]
      exact List.forall₂_same.mpr fun field _ => writes_csvEscape field
  rw [readCsv, hread]
  simp [Function.comp_def]

end CsvExport

open CsvExport

/-- A reader of RFC 4180 finds in the export the header and then the tasks, each with what it has in
each column; all records have as many fields as the header. -/
theorem csv_round_trip (app : App) (tasks : List TaskRecord) :
    readCsv (renderTasksCsv app tasks) = some (CsvColumn.all.map CsvColumn.name ::
        tasks.map fun t => CsvColumn.all.map (CsvColumn.text app t)) ∧
      ∀ records, readCsv (renderTasksCsv app tasks) = some records →
        ∀ record ∈ records, record.length = CsvColumn.all.length := by
  have hread : readCsv (renderTasksCsv app tasks) = some (CsvColumn.all.map CsvColumn.name ::
      tasks.map fun t => CsvColumn.all.map (CsvColumn.text app t)) := by
    rw [readCsv_renderTasksCsv]
    congr 2
    exact List.map_congr_left fun t _ => csvFields_eq app t
  refine ⟨hread, fun records hrecords record hmem => ?_⟩
  obtain rfl := Option.some.inj (hread.symm.trans hrecords)
  rcases List.mem_cons.mp hmem with rfl | hmem
  · exact List.length_map _
  · obtain ⟨t, -, rfl⟩ := List.mem_map.mp hmem
    exact List.length_map _

end Fluxa
