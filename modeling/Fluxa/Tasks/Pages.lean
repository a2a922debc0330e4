import Fluxa.Interleave.Trace
import Fluxa.Relational.Paging
import Fluxa.Db.Listing
import Fluxa.Services.Jobs
import Mathlib.Data.Prod.Lex

/-!
# Tasks — pages

The listing of tasks and the export read the same tasks: on a database that does not change, a client that follows `next_cursor` and the loop of `process_export_job` both end with all tasks that match the filter, in the order of the listing (**`pages_and_export_agree`**).

Both read the rows below a cursor in descending order of `taskKey`, so that `Relational.descending_after` says what a page leaves.
-/

namespace Fluxa
open Interleave Relational Db

/-- What the codecs of the third-party libraries promise: decoding undoes encoding. -/
structure Codecs (lib : Libraries) : Prop where
  base64 : ∀ bytes, lib.base64Decode (lib.base64Encode bytes) = .ok bytes
  cursorJson : ∀ field c, lib.parseCursorJson field (lib.cursorJson field c) = .ok c
  uuid : ∀ id, lib.parseUuid (lib.uuidString id) = some id
  time : ∀ t, lib.parseTime (lib.jsonTime t) = some t

namespace Tasks

/-! ### Round trips -/

section Codecs

variable {app : App}

theorem Cursor.decode_encode (h : Codecs app.lib) (c : Cursor) :
    Cursor.decode app (c.encode app) = .ok c := by
  simp [Cursor.decode, Cursor.encode, decodeCursor, encodeCursor, h.base64, h.cursorJson,
    Except.map]

theorem decodeOption_ofOption {α : Type} (parse : String → Option α) (encode : α → String)
    (h : ∀ a, parse (encode a) = some a) (o : Option α) :
    Jobs.decodeOption parse (.ofOption (o.map encode)) = some o := by
  cases o with
  | none => rfl
  | some a => simp [Value.ofOption, Jobs.decodeOption, Jobs.decodeStr, h]

theorem decodeFilters_exportPayload (h : Codecs app.lib) (filters : TaskFilters) :
    Jobs.decodeFilters app (Jobs.exportPayload app filters) = some filters := by
  have hstatus := decodeOption_ofOption (fun text => (validateTaskStatus text).toOption)
    TaskStatus.asStr (fun a => by simp [Except.toOption]) filters.status
  have hpriority := decodeOption_ofOption (fun text => (validateTaskPriority text).toOption)
    TaskPriority.asStr (fun a => by simp [Except.toOption]) filters.priority
  have hid := decodeOption_ofOption _ _ h.uuid
  have htime := decodeOption_ofOption _ _ h.time
  have hq : Jobs.decodeOption some (.ofOption filters.q) = some filters.q := by
    simpa using decodeOption_ofOption some id (fun a => rfl) filters.q
  simp only [Jobs.exportPayload, Jobs.decodeFilters, Value.get, idValue, timeValue]
  simp [*]

theorem decodeFormat_asStr (format : ExportFormat) :
    Jobs.decodeFormat (some (.str format.asStr)) = some format := by
  cases format <;> rfl

/-- The payload of an export job is decoded as what was stored. -/
theorem payload_round_trip (h : Codecs app.lib) (p : Jobs.ExportJobPayload) :
    Jobs.ExportJobPayload.fromValue app (p.toValue app) = some p := by
  have hfilters := decodeFilters_exportPayload h p.filters
  have hformat := decodeFormat_asStr p.format
  simp only [Jobs.ExportJobPayload.toValue, Jobs.ExportJobPayload.fromValue, Value.get,
    Value.field?]
  simp [Jobs.decodeStr, h.uuid, hfilters, hformat]

end Codecs

/-! ### The order of the listings -/

/-- The key that the listings are ordered by. -/
def taskKey (t : TaskRecord) : Time ×ₗ Uuid := toLex (sortKey t)

/-- The key that a cursor stands for. -/
def cursorKey (c : Cursor) : Time ×ₗ Uuid := toLex (c.updatedAt, c.id)

/-- The tasks that match the filters. -/
def matching (app : App) (tenantId : Uuid) (filters : TaskFilters) (s : AppState) :
    List TaskRecord :=
  s.db.tasks.select (matchesFilters app s tenantId filters)

section Order

variable {app : App} {s : AppState} {tenantId : Uuid} {filters : TaskFilters}
  {cursor : Option Cursor}

theorem keyBelow_iff {a b : Time × Uuid} : keyBelow a b = true ↔ toLex a < toLex b := by
  simp [keyBelow, Prod.Lex.toLex_lt_toLex]

theorem not_keyBelow_iff {a b : TaskRecord} :
    (!keyBelow (sortKey a) (sortKey b)) = true ↔ taskKey b ≤ taskKey a := by
  rw [Bool.not_eq_true', ← Bool.not_eq_true, keyBelow_iff, not_lt]
  rfl

theorem belowCursor_iff {t : TaskRecord} :
    belowCursor cursor t = true ↔ below taskKey (cursor.map cursorKey) t := by
  cases cursor with
  | none => exact iff_of_true rfl below_none
  | some c => exact keyBelow_iff.trans below_some.symm

theorem orderTasks_eq (tasks : List TaskRecord) :
    orderTasks tasks = tasks.insertionSort fun a b => taskKey b ≤ taskKey a := by
  have hr : (fun a b => (!keyBelow (sortKey a) (sortKey b)) = true) =
      fun a b : TaskRecord => taskKey b ≤ taskKey a :=
    funext₂ fun _ _ => propext not_keyBelow_iff
  unfold orderTasks
  congr!

theorem orderedMatches_eq : orderedMatches app s tenantId filters cursor =
    descending taskKey (cursor.map cursorKey) (matching app tenantId filters s) := by
  have hp : (fun t => matchesFilters app s tenantId filters t && belowCursor cursor t) =
      fun t => decide (below taskKey (cursor.map cursorKey) t) &&
        matchesFilters app s tenantId filters t := by
    funext t
    rw [Bool.and_comm, ← Bool.decide_coe (belowCursor cursor t)]
    exact congrArg (· && _) (decide_eq_decide.mpr belowCursor_iff)
  rw [orderedMatches, orderTasks_eq, descending, matching, Table.select, Table.select,
    List.filter_filter, hp]

theorem matching_nodup : (matching app tenantId filters s).Nodup :=
  (List.Nodup.of_map _ s.db.tasks.nodup).filter _

theorem taskKey_injOn :
    Set.InjOn taskKey {t | t ∈ matching app tenantId filters s} := by
  intro a ha b hb h
  exact Table.eq_of_key (Table.mem_select.mp ha).1 (Table.mem_select.mp hb).1 (Prod.ext_iff.mp h).2

end Order

/-! ### Following the pages -/

/-- A client that lists the tasks page by page, with these limits: it hands each `next_cursor` back
until there is none. -/
def followPages (app : App) (tenantId : Uuid) (filters : TaskFilters) :
    List Nat → Option String → Service (List TaskPage)
  | [], _ => .blocked .quiet (.internal "")
  | limit :: limits, token => do
    let cursor ← Prog.lift (Cursor.ofToken app token)
    let (data, nextCursor) ← listTasks app tenantId filters cursor limit
    match nextCursor.map (·.encode app) with
    | none => return [⟨data, none⟩]
    | some token => do
      let rest ← followPages app tenantId filters limits (some token)
      return ⟨data, some token⟩ :: rest

/-- All pages but the last have a `next_cursor`, and the last has none. -/
def EndsOnce (pages : List TaskPage) : Prop :=
  pages.getLast?.map (·.nextCursor) = some none ∧ ∀ p ∈ pages.dropLast, p.nextCursor ≠ none

/-- Inputs of `n` statements that are executed. -/
def Executed (n : Nat) (es : List Env) : Prop := es.length = n ∧ ∀ e ∈ es, e.fault = .none

section Play

variable {app : App} {s : AppState} {tenantId : Uuid} {filters : TaskFilters}
  {cursor : Option Cursor}

theorem Executed.cons {n : Nat} {es : List Env} (h : Executed (n + 1) es) :
    ∃ e es', es = e :: es' ∧ e.fault = .none ∧ Executed n es' := by
  cases es with
  | nil => cases h.1
  | cons e es =>
      exact ⟨e, es, rfl, h.2 e List.mem_cons_self, Nat.succ.inj h.1,
        fun e' he' => h.2 e' (List.mem_cons_of_mem _ he')⟩

/-- An executed `SELECT` is answered from the state, which it leaves alone. -/
theorem play_select {A B : Type} {run : Env → AppState → A} {f : A → Service B} {e : Env}
    {es : List Env} (he : e.fault = .none) :
    play ((select run).bind f) (e :: es) s = play (f (run e s)) es s := by
  simp [select, sql, sqlWhen, Prog.atomic, Prog.bind, play, he]

theorem play_bind_pure {A B : Type} {p : Service A} {f : A → B} {es : List Env} {a : A}
    (h : play p es s = some (.ok a, s)) :
    play (p.bind fun a => pure (f a)) es s = some (.ok (f a), s) := by
  rw [← List.append_nil es, play_bind h]
  rfl

end Play

section Unchanging

variable {app : App} {s : AppState} {tenantId : Uuid} {filters : TaskFilters}
  {cursor : Option Cursor}

theorem lastCursor_key (chunk : List TaskRecord) :
    (Jobs.lastCursor chunk).map cursorKey = cursorAfter taskKey chunk := by
  simp only [Jobs.lastCursor, cursorAfter, Option.map_map]
  rfl

/-- After the first `n` of the tasks below a cursor come the others. -/
theorem orderedMatches_after {n : Nat}
    (hn : (orderedMatches app s tenantId filters cursor).take n ≠ []) :
    orderedMatches app s tenantId filters
        (Jobs.lastCursor ((orderedMatches app s tenantId filters cursor).take n)) =
      (orderedMatches app s tenantId filters cursor).drop n := by
  rw [orderedMatches_eq, lastCursor_key, orderedMatches_eq] at *
  exact descending_after matching_nodup taskKey_injOn hn

/-- What `list_tasks` returns: the next tasks, and a cursor when there are more. -/
theorem tasksPage_eq {limit : Nat} :
    tasksPage app tenantId filters cursor limit s =
      ((orderedMatches app s tenantId filters cursor).take limit,
        if limit < (orderedMatches app s tenantId filters cursor).length then
          Jobs.lastCursor ((orderedMatches app s tenantId filters cursor).take limit)
        else none) := by
  unfold tasksPage
  rw [lookAhead_take]
  rfl

/-- A page that is not the last. -/
theorem play_followPages_more {limit : Nat} {limits : List Nat} {token : Option String}
    {data : List TaskRecord} {c : Cursor} {pages : List TaskPage} {e : Env} {es : List Env}
    (htoken : Cursor.ofToken app token = .ok cursor) (he : e.fault = .none)
    (hpage : tasksPage app tenantId filters cursor limit s = (data, some c))
    (hrest : play (followPages app tenantId filters limits (some (c.encode app))) es s =
      some (.ok pages, s)) :
    play (followPages app tenantId filters (limit :: limits) token) (e :: es) s =
      some (.ok (⟨data, some (c.encode app)⟩ :: pages), s) := by
  rw [followPages, htoken]
  refine (play_select he).trans ?_
  rw [hpage]
  exact play_bind_pure hrest

/-- The last page. -/
theorem play_followPages_last {limit : Nat} {limits : List Nat} {token : Option String}
    {data : List TaskRecord} {e : Env} (htoken : Cursor.ofToken app token = .ok cursor)
    (he : e.fault = .none)
    (hpage : tasksPage app tenantId filters cursor limit s = (data, none)) :
    play (followPages app tenantId filters (limit :: limits) token) [e] s =
      some (.ok [⟨data, none⟩], s) := by
  rw [followPages, htoken]
  refine (play_select he).trans ?_
  rw [hpage]
  rfl

theorem EndsOnce.cons {pages : List TaskPage} (h : EndsOnce pages) {data : List TaskRecord}
    {token : String} : EndsOnce (⟨data, some token⟩ :: pages) := by
  cases pages with
  | nil => cases h.1
  | cons p pages =>
      refine ⟨by rw [List.getLast?_cons_cons]; exact h.1, fun q hq => ?_⟩
      rw [List.dropLast_cons_cons] at hq
      rcases List.mem_cons.mp hq with rfl | hq
      · exact Option.some_ne_none _
      · exact h.2 q hq

/-- From a cursor on, the client ends with the tasks below it. -/
theorem followPages_play (hlib : Codecs app.lib) {limits : Nat → Nat} (hlimits : ∀ n, 0 < limits n)
    {token : Option String} (htoken : Cursor.ofToken app token = .ok cursor) :
    ∃ n pages, (∀ es, Executed n es →
        play (followPages app tenantId filters ((List.range n).map limits) token) es s =
          some (.ok pages, s)) ∧
      pages.flatMap (·.data) = orderedMatches app s tenantId filters cursor ∧ EndsOnce pages := by
  induction hlen : (orderedMatches app s tenantId filters cursor).length using
    Nat.strong_induction_on generalizing limits cursor token with
  | _ len ih =>
      have hrange : ∀ n, (List.range (n + 1)).map limits =
          limits 0 :: (List.range n).map fun k => limits (k + 1) := by
        intro n
        rw [List.range_succ_eq_map, List.map_cons, List.map_map]
        rfl
      by_cases hmore : limits 0 < (orderedMatches app s tenantId filters cursor).length
      · have hne : (orderedMatches app s tenantId filters cursor).take (limits 0) ≠ [] := by
          apply List.ne_nil_of_length_pos
          rw [List.length_take]
          exact lt_min (hlimits 0) ((hlimits 0).trans hmore)
        obtain ⟨c, hc⟩ : ∃ c, Jobs.lastCursor
            ((orderedMatches app s tenantId filters cursor).take (limits 0)) = some c :=
          ⟨_, congrArg (Option.map _) (List.getLast?_eq_some_getLast hne)⟩
        have hafter := orderedMatches_after hne
        rw [hc] at hafter
        have hnext : Cursor.ofToken app (some (c.encode app)) = .ok (some c) := by
          simp [Cursor.ofToken, Cursor.decode_encode hlib, Except.map]
        obtain ⟨n, pages, hplay, hdata, hends⟩ := ih _
          (by rw [hafter, List.length_drop]; have := hlimits 0; omega)
          (fun k => hlimits (k + 1)) hnext rfl
        refine ⟨n + 1, ⟨(orderedMatches app s tenantId filters cursor).take (limits 0),
          some (c.encode app)⟩ :: pages, fun es hes => ?_, ?_, hends.cons⟩
        · obtain ⟨e, es, rfl, he, hes⟩ := hes.cons
          rw [hrange]
          exact play_followPages_more htoken he
            (by rw [tasksPage_eq, if_pos hmore, hc]) (hplay es hes)
        · rw [List.flatMap_cons, hdata, hafter]
          exact List.take_append_drop _ _
      · refine ⟨1, [⟨(orderedMatches app s tenantId filters cursor).take (limits 0), none⟩],
          fun es hes => ?_, ?_, ⟨rfl, fun p hp => by cases hp⟩⟩
        · obtain ⟨e, es, rfl, he, hes⟩ := hes.cons
          obtain rfl := List.length_eq_zero_iff.mp hes.1
          rw [hrange]
          exact play_followPages_last htoken he (by rw [tasksPage_eq, if_neg hmore])
        · rw [List.flatMap_singleton]
          exact List.take_of_length_le (by omega)

/-! ### The export -/

theorem exportTasks_eq {limit : Nat} : exportTasks app tenantId filters cursor limit =
    select fun _ s => (orderedMatches app s tenantId filters cursor).take limit :=
  rfl

/-- From a cursor on, the loop ends with the tasks below it. -/
theorem exportLoop_play {rounds : Nat} {collected : List TaskRecord}
    (hrounds : (orderedMatches app s tenantId filters cursor).length / Jobs.exportChunkSize < rounds)
    {es : List Env} (hes : Executed
      ((orderedMatches app s tenantId filters cursor).length / Jobs.exportChunkSize + 1) es) :
    play (Jobs.exportLoop app tenantId filters rounds cursor collected) es s =
      some (.ok (collected ++ orderedMatches app s tenantId filters cursor), s) := by
  induction rounds generalizing cursor collected es with
  | zero => exact absurd hrounds (Nat.not_lt_zero _)
  | succ rounds ih =>
      obtain ⟨e, es, rfl, he, hes⟩ := hes.cons
      rw [Jobs.exportLoop, exportTasks_eq]
      refine (play_select he).trans ?_
      have hsize : 0 < Jobs.exportChunkSize := by decide
      by_cases hfull : Jobs.exportChunkSize ≤ (orderedMatches app s tenantId filters cursor).length
      · have hne : (orderedMatches app s tenantId filters cursor).take Jobs.exportChunkSize ≠ [] :=
          List.ne_nil_of_length_pos (by rw [List.length_take]; exact lt_min hsize (hsize.trans_le hfull))
        have hafter := orderedMatches_after hne
        have hdiv : (orderedMatches app s tenantId filters cursor).length / Jobs.exportChunkSize =
            ((orderedMatches app s tenantId filters cursor).length - Jobs.exportChunkSize) /
              Jobs.exportChunkSize + 1 := Nat.div_eq_sub_div hsize hfull
        rw [if_pos (by rw [List.length_take, min_eq_left hfull]),
          ih (by rw [hafter, List.length_drop]; omega)
            (by rw [hafter, List.length_drop]; rwa [← hdiv]),
          hafter, List.append_assoc, List.take_append_drop]
      · have hzero : (orderedMatches app s tenantId filters cursor).length /
            Jobs.exportChunkSize = 0 := Nat.div_eq_of_lt (by omega)
        rw [hzero] at hes
        obtain rfl := List.length_eq_zero_iff.mp hes.1
        rw [if_neg (by rw [List.length_take]; omega), List.take_of_length_le (by omega)]
        rfl

end Unchanging

end Tasks

open Tasks

/-- On a database that does not change, following the pages of the listing ends, with all tasks that
match the filters in the order of the listing, and the export of these filters collects the same
tasks. -/
theorem pages_and_export_agree {app : App} (hlib : Codecs app.lib) (s : AppState)
    (tenantId : Uuid) (filters : TaskFilters) (limits : Nat → Nat) (hlimits : ∀ n, 1 ≤ limits n) :
    ∃ n pages, (∀ es, Executed n es →
        play (followPages app tenantId filters ((List.range n).map limits) none) es s =
          some (.ok pages, s)) ∧
      EndsOnce pages ∧
      (pages.flatMap (·.data)).Pairwise (fun a b => keyBelow (sortKey b) (sortKey a)) ∧
      (∀ t, t ∈ pages.flatMap (·.data) ↔
        t ∈ s.db.tasks ∧ matchesFilters app s tenantId filters t = true) ∧
      ∀ (requestedBy : Uuid) (format : ExportFormat), ∃ payload,
        Jobs.ExportJobPayload.fromValue app
          (Jobs.ExportJobPayload.toValue app ⟨tenantId, requestedBy, filters, format⟩) =
            some payload ∧
        ∃ k, ∀ rounds, k < rounds → ∀ es, Executed (k + 1) es →
          play (Jobs.exportLoop app payload.tenantId payload.filters rounds none []) es s =
            some (.ok (pages.flatMap (·.data)), s) := by
  obtain ⟨n, pages, hplay, hdata, hends⟩ :=
    @followPages_play _ s tenantId filters _ hlib _ hlimits none rfl
  have hall : pages.flatMap (·.data) =
      descending taskKey none (matching app tenantId filters s) := hdata.trans orderedMatches_eq
  refine ⟨n, pages, hplay, hends, ?_, fun t => ?_, fun requestedBy format => ?_⟩
  · rw [hall]
    exact (descending_strict matching_nodup taskKey_injOn).imp fun h => keyBelow_iff.mpr h
  · rw [hall, mem_descending, and_iff_left below_none]
    exact Table.mem_select
  · refine ⟨⟨tenantId, requestedBy, filters, format⟩, payload_round_trip hlib _,
      (orderedMatches app s tenantId filters none).length / Jobs.exportChunkSize,
      fun rounds hr es hes => ?_⟩
    rw [exportLoop_play hr hes, hdata]
    rfl

/-! ### Two tasks of one moment -/

/-- Identifiers and times in unary. -/
def unary : App :=
  { (default : App) with
    lib := { (default : Libraries) with
      uuidString := fun id => String.ofList (List.replicate id '1')
      parseUuid := fun text => some text.length
      jsonTime := fun t => String.ofList (List.replicate t '1')
      parseTime := fun text => some text.length } }

theorem unary_codecs : Codecs unary.lib where
  base64 bytes := by
    have hb : ∀ b : UInt8, (Char.ofNat b.toNat).toNat.toUInt8 = b := by
      intro b
      have hvalid : b.toNat.isValidChar := .inl (by have := b.toNat_lt; omega)
      rw [Char.ofNat, dif_pos hvalid]
      change UInt8.ofNat b.toNat = b
      exact UInt8.ofNat_toNat
    change Except.ok ((String.ofList (bytes.map fun b => Char.ofNat b.toNat)).toList.map
      fun c => c.toNat.toUInt8) = Except.ok bytes
    rw [String.toList_ofList, List.map_map]
    exact congrArg _ (List.map_id'' hb bytes)
  cursorJson field c := by
    obtain ⟨time, id⟩ := c
    have hlen : ((List.replicate time (0 : UInt8) ++ 1 :: List.replicate id 0).takeWhile
        (· = 0)).length = time := by
      rw [List.takeWhile_append_of_pos (by simp +contextual)]
      simp
    change Except.ok (_, _ - _ - 1) = Except.ok _
    have hjson : unary.lib.cursorJson field (time, id) =
        List.replicate time (0 : UInt8) ++ 1 :: List.replicate id 0 := rfl
    rw [hjson, hlen, List.length_append, List.length_cons, List.length_replicate,
      List.length_replicate, Nat.add_sub_cancel_left, Nat.add_sub_cancel]
  uuid id := by simp [unary]
  time t := by simp [unary]

/-- A tenant with two tasks that were updated at the same time. -/
def twoTasks : AppState :=
  { (default : AppState) with
    db := { (default : Database) with
      tasks := ⟨[⟨5, 1, none, "a", none, .open, .low, none, none, 9, 9, 0, 3⟩,
        ⟨6, 1, none, "b", none, .open, .low, none, none, 9, 9, 0, 3⟩], by decide⟩ } }

/-- The agreement there, with pages of one task. -/
theorem two_pages_and_export_agree :
    ∃ n pages, (∀ es, Executed n es →
        play (followPages unary 1 ⟨none, none, none, none, none, none, none, none, none⟩
          ((List.range n).map fun _ => 1) none) es twoTasks = some (.ok pages, twoTasks)) ∧
      EndsOnce pages := by
  obtain ⟨n, pages, hplay, hends, -⟩ := pages_and_export_agree unary_codecs twoTasks 1
    ⟨none, none, none, none, none, none, none, none, none⟩ (fun _ => 1) fun _ => le_rfl
  exact ⟨n, pages, hplay, hends⟩

end Fluxa
