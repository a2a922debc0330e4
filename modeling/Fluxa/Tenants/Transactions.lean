import Fluxa.Tenants.Changes
import Fluxa.Tenants.Closure

/-!
# Tenants — the transactions of a tenant

The two transactions of several statements: the replacement of a task's labels and the registration of a webhook.  Each waits for or gives way to open transactions of its own tenant only, so it goes in the tenant's part as it goes in the whole.
-/

namespace Fluxa
open Interleave Relational Db

namespace Tenants

variable {app : App} {o : Whose} {i : Nat} {s v : AppState} {tenantId actorId taskId : Uuid}
  {A : Type} {Q : A → Prop} (hi : o.caller i = tenantId)

/-- What a condition says of the open transactions of a tenant, it says of the tenant's part. -/
theorem any_filter {T : Type} {txs : List T} {mine q : T → Bool}
    (h : ∀ x ∈ txs, q x = true → mine x = true) : (txs.filter mine).any q = txs.any q := by
  rw [List.any_filter, Bool.eq_iff_iff, List.any_eq_true, List.any_eq_true]
  constructor
  · rintro ⟨x, hx, hq⟩
    exact ⟨x, hx, (Bool.and_eq_true _ _ ▸ hq).2⟩
  · rintro ⟨x, hx, hq⟩
    exact ⟨x, hx, Bool.and_eq_true _ _ ▸ ⟨h x hx hq, hq⟩⟩

/-! ### The labels of a task -/

include hi

/-- The transaction of a call is no longer open. -/
theorem endLabelTx_step (hs : Consistent app o s) (hv : Part app o tenantId s v) :
    (tenantParts app o).Step tenantId s (endLabelTx i s) v (endLabelTx i v) := by
  refine ⟨{ hs with labelTxs := fun T hT => hs.labelTxs T (List.mem_filter.mp hT).1 },
    { hv with labelTxs := ?_ }, fun b' hb w hw => { hw with labelTxs := ?_ }⟩
  · show v.db.labelTxs.filter _ = (s.db.labelTxs.filter _).filter _
    rw [hv.labelTxs, List.filter_filter, List.filter_filter]
    exact List.filter_congr fun T _ => Bool.and_comm _ _
  · refine hw.labelTxs.trans ?_
    show _ = (s.db.labelTxs.filter _).filter _
    rw [List.filter_filter]
    refine List.filter_congr fun T _ => ?_
    -- A transaction of the call is the tenant's, so it is none of another.
    by_cases hT : o.caller T.pid = b'
    · have hne : T.pid ≠ i := by
        rintro rfl
        exact hb (hT.symm.trans hi)
      simp [hT, hne]
    · simp [hT]

theorem putLabelTx_step {T : LabelTx} (hT : T.pid = i) (htask : o.owner T.taskId = some tenantId)
    (hs : Consistent app o s) (hv : Part app o tenantId s v) :
    (tenantParts app o).Step tenantId s (putLabelTx T s) v (putLabelTx T v) := by
  obtain ⟨hs₁, hv₁, hothers⟩ := endLabelTx_step hi hs hv
  have hcaller : o.caller T.pid = tenantId := hT ▸ hi
  refine ⟨{ hs with labelTxs := fun T' hT' => ?_ }, { hv with labelTxs := ?_ },
    fun b' hb w hw => { hw with labelTxs := ?_ }⟩
  · rcases List.mem_cons.mp hT' with rfl | hT'
    · exact htask.trans (congrArg some hcaller.symm)
    · exact hs.labelTxs T' (List.mem_filter.mp hT').1
  · show T :: _ = (T :: _).filter _
    rw [List.filter_cons, if_pos (decide_eq_true hcaller), hT]
    exact congrArg (T :: ·) hv₁.labelTxs
  · have hnone : ¬ decide (o.caller T.pid = b') = true := by
      rw [hcaller, decide_eq_true_eq]
      exact hb.symm
    show w.db.labelTxs = (T :: _).filter _
    rw [List.filter_cons, if_neg hnone, hT]
    exact (hothers b' hb w hw).labelTxs

/-- A statement in the call's transaction. -/
theorem inLabelTx_apart {run : Env → AppState → Option (A × AppState)}
    (h : ∀ e s v, Consistent app o s → Part app o tenantId s v → e.pid = i →
      run e s = none ∧ run e v = none ∨ ∃ a s' v', run e s = some (a, s') ∧
        run e v = some (a, v') ∧ (tenantParts app o).Step tenantId s s' v v' ∧ Q a) :
    Apart app o tenantId i Q (inLabelTx run) := by
  refine Parts.Follows.atomic .free fun e s v hs hv _ hc => ?_
  have hpid : e.pid = i := (not_issued_of_supplied hc).1
  have hend := endLabelTx_step hi hs hv
  rw [← hpid] at hend
  rcases h e s v hs hv hpid with ⟨hn, hn'⟩ | ⟨a, s', v', hr, hr', hstep, hq⟩
  · rw [hn, hn']
    cases e.fault <;> exact ⟨hend, rfl⟩
  · rw [hr, hr']
    cases e.fault with
    | none => exact ⟨hstep, rfl, hq⟩
    | failed => exact ⟨hend, rfl⟩
    | lost => exact ⟨hend, rfl⟩

omit hi in
theorem labelsOf_part (hv : Part app o tenantId s v) (htask : o.owner taskId = some tenantId) :
    labelsOf v taskId = labelsOf s taskId := by
  rw [labelsOf, hv.taskLabels, Table.select_of fun r _ hr => ?_]
  · rfl
  · rw [of_decide_eq_true hr]
    exact htask

omit hi in
/-- Transactions on a task of the tenant are the tenant's. -/
theorem labelsLocked_part (hs : Consistent app o s) (hv : Part app o tenantId s v) {T : LabelTx}
    (htask : o.owner T.taskId = some tenantId) {labelIds : List Uuid}
    {changed : LabelTx → List Uuid} :
    labelsLocked v T labelIds changed = labelsLocked s T labelIds changed := by
  rw [labelsLocked, hv.labelTxs]
  refine any_filter fun T' hT' hq => ?_
  simp only [Bool.and_eq_true, decide_eq_true_eq] at hq
  have howner := hs.labelTxs T' hT'
  rw [hq.1.2, htask] at howner
  exact decide_eq_true (Option.some.inj howner).symm

/-- The call's transaction is for the task, and inserts wanted labels only. -/
structure Replacing (i : Nat) (taskId : Uuid) (labels : List Uuid) (T : LabelTx) : Prop where
  pid : T.pid = i
  task : T.taskId = taskId
  wanted : T.wanted = labels
  inserted : ∀ label ∈ T.inserted, label ∈ labels

theorem findLabelsToDelete_apart {labelIds : List Uuid} (htask : o.owner taskId = some tenantId) :
    Apart app o tenantId i (Replacing i taskId labelIds) (findLabelsToDelete taskId labelIds) := by
  refine inLabelTx_apart hi fun e s v hs hv hpid => .inr ⟨_, _, _, rfl, ?_,
    putLabelTx_step hi hpid htask hs hv, hpid, rfl, rfl, fun _ h => absurd h List.not_mem_nil⟩
  rw [labelsOf_part hv htask]

theorem deleteFoundLabels_apart {labelIds : List Uuid} {T : LabelTx}
    (htask : o.owner taskId = some tenantId) (hT : Replacing i taskId labelIds T) :
    Apart app o tenantId i (Replacing i taskId labelIds) (deleteFoundLabels T) := by
  obtain ⟨hpid, rfl, rfl, hins⟩ := hT
  refine inLabelTx_apart hi fun e s v hs hv _ => ?_
  rw [labelsLocked_part hs hv htask, labelsOf_part hv htask]
  split
  · exact .inl ⟨rfl, rfl⟩
  · exact .inr ⟨_, _, _, rfl, rfl, putLabelTx_step hi hpid htask hs hv, hpid, rfl, rfl, hins⟩

theorem insertMissingLabels_apart {labelIds : List Uuid} {T : LabelTx}
    (htask : o.owner taskId = some tenantId)
    (hlabels : ∀ label ∈ labelIds, o.owner label = some tenantId)
    (hT : Replacing i taskId labelIds T) :
    Apart app o tenantId i (Replacing i taskId labelIds) (insertMissingLabels T) := by
  obtain ⟨hpid, rfl, rfl, -⟩ := hT
  refine inLabelTx_apart hi fun e s v hs hv _ => ?_
  have hfind : v.db.tasks.find? T.taskId = s.db.tasks.find? T.taskId := by
    rw [hv.tasks]
    exact Table.find?_of hs.tasks htask
  have hany : (T.wanted.any fun l => (v.db.labels.find? l).isNone) =
      T.wanted.any fun l => (s.db.labels.find? l).isNone := by
    rw [Bool.eq_iff_iff, List.any_eq_true, List.any_eq_true]
    refine exists_congr fun l => and_congr_right fun hl => ?_
    rw [hv.labels, Table.find?_of hs.labels (hlabels l hl)]
  rw [labelsLocked_part hs hv htask, hfind, hany, labelsOf_part hv htask]
  split
  · exact .inl ⟨rfl, rfl⟩
  split
  · exact .inl ⟨rfl, rfl⟩
  · exact .inr ⟨_, _, _, rfl, rfl, putLabelTx_step hi hpid htask hs hv, hpid, rfl, rfl,
      fun _ h => (List.mem_filter.mp h).1⟩

theorem commitLabelTx_apart {labelIds : List Uuid} {T : LabelTx} {entry : TaskAuditRecord}
    (htask : o.owner taskId = some tenantId)
    (hlabels : ∀ label ∈ labelIds, o.owner label = some tenantId)
    (hT : Replacing i taskId labelIds T) (htenant : entry.tenantId = tenantId)
    (hid : o.owner entry.id = some tenantId) :
    Apart app o tenantId i (fun _ => True) (commitLabelTx T entry) := by
  obtain ⟨hpid, rfl, rfl, hins⟩ := hT
  refine Parts.Follows.atomic .free fun e s v hs hv _ hc => ?_
  have hcall : e.pid = i := (not_issued_of_supplied hc).1
  let p := fun (r : TaskLabelRow) => decide (r.taskId = T.taskId) && T.deleted.contains r.labelId
  let rows := T.inserted.map fun l => ({ taskId := T.taskId, labelId := l } : TaskLabelRow)
  have hrows : ∀ r ∈ rows, o.owner r.taskId = some tenantId ∧
      o.owner r.taskId = o.owner r.labelId := by
    intro r hr
    obtain ⟨l, hl, rfl⟩ := List.mem_map.mp hr
    exact ⟨htask, htask.trans (hlabels l (hins l hl)).symm⟩
  have hdelete : Table.ChangedBy (o.owner ·.taskId) tenantId s.db.taskLabels
      (s.db.taskLabels.delete p) _ := Table.changedBy_delete fun r _ hr => by
    rw [Bool.and_eq_true, decide_eq_true_eq] at hr
    exact hr.1 ▸ htask
  have hreplace : replaceLabels T v =
      (replaceLabels T s).map fun t => t.of (o.owner ·.taskId) tenantId := by
    show (v.db.taskLabels.delete p).insertAll rows = ((s.db.taskLabels.delete p).insertAll rows).map _
    rw [hv.taskLabels, hdelete.own]
    have hlabelled : (s.db.taskLabels.delete p).Labelled (fun k => o.owner k.1)
        (o.owner ·.taskId) := fun _ _ => rfl
    exact Table.insertAll_of hlabelled (fun r hr => (hrows r hr).1) fun r hr => (hrows r hr).1
  have haudit := insertAudit_part hs hv htenant hid
  have hend := endLabelTx_step hi hs hv
  rw [← hcall] at hend
  dsimp only
  rw [hreplace, haudit]
  -- The commit inserts the links and the audit row, or nothing at all.
  cases hrep : replaceLabels T s with
  | none => cases e.fault <;> exact ⟨hend, rfl⟩
  | some taskLabels =>
      cases haud : s.db.taskAudit.insert entry with
      | none => cases e.fault <;> exact ⟨hend, rfl⟩
      | some taskAudit =>
          obtain ⟨hlabelled, hentries⟩ := insertAudit_changes hs haud htenant hid
          have hinsert : Table.ChangedBy (o.owner ·.taskId) tenantId (s.db.taskLabels.delete p)
              taskLabels _ := Table.changedBy_insertAll hrep fun r hr => (hrows r hr).1
          have hlinks : ∀ r ∈ taskLabels, o.owner r.taskId = o.owner r.labelId := by
            intro r hr
            rcases (Table.mem_insertAll hrep r).mp hr with hr | hr
            · exact hs.taskLabels r (Table.mem_delete.mp hr).1
            · exact (hrows r hr).2
          have hstep : (tenantParts app o).Step tenantId s (endLabelTx e.pid { s with
              db.taskLabels := taskLabels
              db.taskAudit := taskAudit
              history.commits := s.history.commits ++ [e.pid]
              history.replaced := (e.pid, T.taskId, T.wanted) :: s.history.replaced }) v
              (endLabelTx e.pid { v with
                db.taskLabels := taskLabels.of (o.owner ·.taskId) tenantId
                db.taskAudit := taskAudit.of (some ·.tenantId) tenantId
                history.commits := v.history.commits ++ [e.pid]
                history.replaced := (e.pid, T.taskId, T.wanted) :: v.history.replaced }) :=
            ⟨{ hend.inv with
              taskLabels := hlinks
              taskAudit := hlabelled }, { hend.own with
              taskLabels := hinsert.own
              taskAudit := hentries.own }, fun b' hb w hw => { hend.others b' hb w hw with
              taskLabels := hw.taskLabels.trans
                ((hinsert.others b' hb).trans (hdelete.others b' hb)).symm
              taskAudit := hw.taskAudit.trans (hentries.others b' hb).symm }⟩
          cases e.fault with
          | none => exact ⟨hstep, rfl, trivial⟩
          | failed => exact ⟨hend, rfl⟩
          | lost => exact ⟨hstep, rfl⟩

omit hi in
/-- Where a call finds as many labels of the tenant as it asks for, it asks for labels of the
tenant. -/
theorem labels_of_selected (hs : Consistent app o s) {labelIds : List Uuid}
    (hlen : (orderLabels app (s.db.labels.select fun l =>
      l.tenantId = tenantId && labelIds.contains l.id)).length = labelIds.length)
    {label : Uuid} (h : label ∈ labelIds) : o.owner label = some tenantId := by
  have hfound : ∀ l ∈ s.db.labels.select fun l => l.tenantId = tenantId && labelIds.contains l.id,
      l ∈ s.db.labels ∧ l.tenantId = tenantId ∧ l.id ∈ labelIds := by
    intro l hl
    obtain ⟨hmem, hp⟩ := Table.mem_select.mp hl
    simp only [Bool.and_eq_true, List.contains_eq_mem, decide_eq_true_eq] at hp
    exact ⟨hmem, hp⟩
  rw [orderLabels, List.length_insertionSort] at hlen
  obtain ⟨l, hl, rfl⟩ := mem_of_length_eq (s.db.labels.nodup.sublist (List.filter_sublist.map _))
    (fun l hl => (hfound l hl).2.2) hlen h
  exact (hs.labels l (hfound l hl).1).trans (congrArg some (hfound l hl).2.1)

theorem setTaskLabels_apart {labelIds : List Uuid} (htask : o.owner taskId = some tenantId) :
    Apart app o tenantId i (fun _ => True)
      (Db.setTaskLabels app tenantId taskId actorId labelIds) := by
  refine .bind (Q := fun labels : List LabelRecord => labels.length = labelIds.length →
    ∀ label ∈ labelIds, o.owner label = some tenantId) (.select fun e s v hs hv => ⟨?_, ?_⟩)
    fun labels hfound => .ite (fun _ => .fail) fun hlen => ?_
  · rw [hv.labels, Table.select_of fun l _ hl => ?_]
    rw [Bool.and_eq_true, decide_eq_true_eq] at hl
    exact congrArg some hl.1
  · exact fun hlen label hl => labels_of_selected hs hlen hl
  have hlabels := hfound (not_not.mp hlen)
  refine .bind (findLabelsToDelete_apart hi htask) fun T hT => ?_
  refine .bind (deleteFoundLabels_apart hi htask hT) fun T hT => ?_
  refine .bind (insertMissingLabels_apart hi htask hlabels hT) fun T hT => ?_
  refine .bind (.newUuid hi) fun auditId hauditId => .bind .utcNow fun now _ => ?_
  refine .bind (Q := fun _ => True) (inLabelTx_apart hi fun e s v hs hv _ => ?_) fun _ _ =>
    .bind (commitLabelTx_apart hi htask hlabels hT rfl hauditId) fun _ _ => .done trivial
  let entry : TaskAuditRecord :=
    { id := auditId, taskId := some taskId, tenantId, actorUserId := actorId,
      eventType := "task_labels_updated",
      payload := .obj [("label_ids", .arr (labelIds.map fun l => .str (app.lib.uuidString l))),
        ("labels", .arr (labels.map fun l => .str l.name))],
      createdAt := now }
  have haudit : v.db.taskAudit.insert entry = _ := insertAudit_part hs hv rfl hauditId
  rw [haudit]
  cases s.db.taskAudit.insert entry with
  | none => exact .inl ⟨rfl, rfl⟩
  | some taskAudit => exact .inr ⟨_, _, _, rfl, rfl, .refl hs hv, trivial⟩

/-! ### The registration of a webhook -/

theorem endWebhookTx_step (hs : Consistent app o s) (hv : Part app o tenantId s v) :
    (tenantParts app o).Step tenantId s (endWebhookTx i s) v (endWebhookTx i v) := by
  refine ⟨{ hs with webhookTxs := fun T hT => hs.webhookTxs T (List.mem_filter.mp hT).1 },
    { hv with webhookTxs := ?_ }, fun b' hb w hw => { hw with webhookTxs := ?_ }⟩
  · show v.db.webhookTxs.filter _ = (s.db.webhookTxs.filter _).filter _
    rw [hv.webhookTxs, List.filter_filter, List.filter_filter]
    exact List.filter_congr fun T _ => Bool.and_comm _ _
  · refine hw.webhookTxs.trans ?_
    show _ = (s.db.webhookTxs.filter _).filter _
    rw [List.filter_filter]
    refine List.filter_congr fun T hT => ?_
    by_cases htenant : T.tenantId = b'
    · have hne : T.pid ≠ i := by
        rintro rfl
        exact hb (htenant.symm.trans ((hs.webhookTxs T hT).trans hi))
      simp [htenant, hne]
    · simp [htenant]

theorem putWebhookTx_step {T : WebhookTx} (hT : T.pid = i) (htenant : T.tenantId = tenantId)
    (hs : Consistent app o s) (hv : Part app o tenantId s v) :
    (tenantParts app o).Step tenantId s (putWebhookTx T s) v (putWebhookTx T v) := by
  obtain ⟨hs₁, hv₁, hothers⟩ := endWebhookTx_step hi hs hv
  refine ⟨{ hs with webhookTxs := fun T' hT' => ?_ }, { hv with webhookTxs := ?_ },
    fun b' hb w hw => { hw with webhookTxs := ?_ }⟩
  · rcases List.mem_cons.mp hT' with rfl | hT'
    · rw [htenant, hT, hi]
    · exact hs.webhookTxs T' (List.mem_filter.mp hT').1
  · show T :: _ = (T :: _).filter _
    rw [List.filter_cons, if_pos (decide_eq_true htenant), hT]
    exact congrArg (T :: ·) hv₁.webhookTxs
  · have hnone : ¬ decide (T.tenantId = b') = true := by
      rw [htenant, decide_eq_true_eq]
      exact hb.symm
    show w.db.webhookTxs = (T :: _).filter _
    rw [List.filter_cons, if_neg hnone, hT]
    exact (hothers b' hb w hw).webhookTxs

/-- A statement in the call's transaction. -/
theorem inWebhookTx_apart {ready : AppState → Bool}
    {run : Env → AppState → Except AppError (A × AppState)}
    (hready : (tenantParts app o).Waits tenantId ready ready)
    (h : ∀ e s v, Consistent app o s → Part app o tenantId s v → e.pid = i →
      (∃ x, run e s = .error x ∧ run e v = .error x) ∨ ∃ a s' v', run e s = .ok (a, s') ∧
        run e v = .ok (a, v') ∧ (tenantParts app o).Step tenantId s s' v v' ∧ Q a) :
    Apart app o tenantId i Q (inWebhookTx ready run) := by
  refine Parts.Follows.atomic hready fun e s v hs hv _ hc => ?_
  have hpid : e.pid = i := (not_issued_of_supplied hc).1
  have hend := endWebhookTx_step hi hs hv
  rw [← hpid] at hend
  rcases h e s v hs hv hpid with ⟨x, hx, hx'⟩ | ⟨a, s', v', hr, hr', hstep, hq⟩
  · rw [hx, hx']
    cases e.fault <;> exact ⟨hend, rfl⟩
  · rw [hr, hr']
    cases e.fault with
    | none => exact ⟨hstep, rfl, hq⟩
    | failed => exact ⟨hend, rfl⟩
    | lost => exact ⟨hend, rfl⟩

/-- The call's transaction is on the tenant, and inserts webhooks of the tenant. -/
structure Registering (o : Whose) (tenantId : Uuid) (i : Nat) (T : WebhookTx) : Prop where
  pid : T.pid = i
  tenant : T.tenantId = tenantId
  inserted : ∀ w ∈ T.inserted, some w.tenantId = some tenantId ∧ o.owner w.id = some tenantId

theorem lockTenant_apart :
    Apart app o tenantId i (Registering o tenantId i) (lockTenant tenantId) := by
  refine inWebhookTx_apart hi (.of_eq fun s v hv => ?_) fun e s v hs hv hpid => ?_
  · rw [tenantLocked, hv.webhookTxs, any_filter fun T _ hT => hT]
    rfl
  · have hfind : v.db.tenants.find? tenantId = s.db.tenants.find? tenantId := by
      rw [hv.tenants, Table.of, Table.find?_only]
      cases hf : s.db.tenants.find? tenantId with
      | none => rfl
      | some t =>
          obtain ⟨-, rfl⟩ := Table.find?_eq_some.mp hf
          exact Option.filter_some_pos (decide_eq_true rfl)
    rw [hfind]
    cases s.db.tenants.find? tenantId with
    | none => exact .inl ⟨_, rfl, rfl⟩
    | some t => exact .inr ⟨_, _, _, rfl, rfl, putWebhookTx_step hi hpid rfl hs hv, hpid, rfl,
        fun _ h => absurd h List.not_mem_nil⟩

theorem checkWebhookCount_apart {T : WebhookTx} (hT : Registering o tenantId i T) :
    Apart app o tenantId i (fun _ => True) (checkWebhookCount T) := by
  obtain ⟨-, rfl, -⟩ := hT
  refine inWebhookTx_apart hi .free fun e s v hs hv _ => ?_
  have hcount : v.db.webhooks.count (fun w => w.tenantId = T.tenantId) =
      s.db.webhooks.count fun w => w.tenantId = T.tenantId := by
    rw [hv.webhooks]
    exact Table.count_of fun w _ hw => congrArg some (of_decide_eq_true hw)
  rw [hcount]
  split
  · exact .inl ⟨_, rfl, rfl⟩
  · exact .inr ⟨_, _, _, rfl, rfl, .refl hs hv, trivial⟩

theorem insertWebhook_apart {T : WebhookTx} {webhook : WebhookRecord}
    (hT : Registering o tenantId i T) (htenant : webhook.tenantId = tenantId)
    (hid : o.owner webhook.id = some tenantId) :
    Apart app o tenantId i (Registering o tenantId i) (insertWebhook T webhook) := by
  obtain ⟨hpid, hlock, hins⟩ := hT
  refine inWebhookTx_apart hi .free fun e s v hs hv _ => ?_
  rw [hv.webhooks, Table.insert_of hs.webhooks (congrArg some htenant) hid]
  cases s.db.webhooks.insert webhook with
  | none => exact .inl ⟨_, rfl, rfl⟩
  | some webhooks =>
      refine .inr ⟨_, _, _, rfl, rfl, putWebhookTx_step hi hpid hlock hs hv, hpid, hlock,
        fun w hw => ?_⟩
      rcases List.mem_cons.mp hw with rfl | hw
      · exact ⟨congrArg some htenant, hid⟩
      · exact hins w hw

theorem commitWebhook_apart {T : WebhookTx} {webhook : WebhookRecord}
    (hT : Registering o tenantId i T) :
    Apart app o tenantId i (fun _ => True) (commitWebhook T webhook) := by
  obtain ⟨hpid, -, hins⟩ := hT
  refine Parts.Follows.atomic .free fun e s v hs hv _ hc => ?_
  have hcall : e.pid = i := (not_issued_of_supplied hc).1
  have hend := endWebhookTx_step hi hs hv
  rw [← hcall] at hend
  have hinsert : v.db.webhooks.insertAll T.inserted =
      (s.db.webhooks.insertAll T.inserted).map fun t => t.of (some ·.tenantId) tenantId := by
    rw [hv.webhooks]
    exact Table.insertAll_of hs.webhooks (fun w hw => (hins w hw).1) fun w hw => (hins w hw).2
  dsimp only
  rw [hinsert]
  cases hall : s.db.webhooks.insertAll T.inserted with
  | none => cases e.fault <;> exact ⟨hend, rfl⟩
  | some webhooks =>
      have hwebhooks : Table.ChangedBy (some ·.tenantId) tenantId s.db.webhooks webhooks _ :=
        Table.changedBy_insertAll hall fun w hw => (hins w hw).1
      have hstep : (tenantParts app o).Step tenantId s (endWebhookTx e.pid { s with
          db.webhooks := webhooks
          history := noteCreated e .webhook webhook.id s.history }) v
          (endWebhookTx e.pid { v with
            db.webhooks := webhooks.of (some ·.tenantId) tenantId
            history := noteCreated e .webhook webhook.id v.history }) :=
        ⟨{ hend.inv with
            webhooks := hs.webhooks.insertAll hall (fun w hw => (hins w hw).1)
              fun w hw => (hins w hw).2 },
          { hend.own with webhooks := hwebhooks.own }, fun b' hb w hw => { hend.others b' hb w hw with
            webhooks := hw.webhooks.trans (hwebhooks.others b' hb).symm }⟩
      cases e.fault with
      | none => exact ⟨hstep, rfl, trivial⟩
      | failed => exact ⟨hend, rfl⟩
      | lost => exact ⟨hstep, rfl⟩

theorem createWebhook_apart {url secret : String} {events : List String} : Apart app o tenantId i
    (fun _ => True) (Db.createWebhook tenantId actorId url secret events) := by
  refine .bind .utcNow fun now _ => .bind (lockTenant_apart hi) fun T hT => ?_
  refine .bind (checkWebhookCount_apart hi hT) fun _ _ => .bind (.newUuid hi) fun id hid => ?_
  exact .bind (insertWebhook_apart hi hT rfl hid) fun T hT =>
    .bind (commitWebhook_apart hi hT) fun _ _ => .done trivial

end Tenants

end Fluxa
