import Fluxa.Outboxes.Actions

/-!
# Outboxes — the workers and the other calls

The calls that use the outboxes do nothing to the messages but what **`Action`** lists.  A worker goes through the batch that its claim has returned; **`Batch`** says what it knows of the messages still before it.

* **`notificationCall_safe`** and **`deliveryCall_safe`**: the calls on each of the two outboxes.
-/

namespace Fluxa.Outboxes
open Interleave Relational OutboxRow Db Contract Delivery

variable {R : Type} [OutboxRow R Uuid] {o : Drained R}
  {cond : Nat → Event → Env → AppState → Prop} {i : Nat}

/-! ### What a worker knows -/

variable (o) in
/-- The message is the worker's, and not sent yet. -/
def Ready (i : Nat) (r : R) (s : AppState) : Prop := Held o i r s ∧ Unsent o r s

variable (o) in
/-- The messages of a batch are the worker's, and not sent yet. -/
def Batch (i : Nat) (rs : List R) (s : AppState) : Prop := ∀ r ∈ rs, Ready o i r s

theorem ready_stable {r : R} : (outboxContract o cond).Stable i (Ready o i r) :=
  fun s s' j l e hi hs hj hg =>
    ⟨held_stable s s' j l e hi hs.1 hj hg, hg.unsent hj hs.1.lease hs.2⟩

theorem batch_stable {rs : List R} : (outboxContract o cond).Stable i (Batch o i rs) :=
  fun s s' j l e hi hs hj hg r hr => ready_stable s s' j l e hi (hs r hr) hj hg

/-- What is done to one message of the batch leaves alone what the worker knows of the others. -/
theorem Batch.change {rs : List R} {r : R} {s s' : AppState}
    {f : OutboxColumns Uuid → OutboxColumns Uuid} {hf : KeepsId f} (h : Batch o i rs s)
    (hr : key r ∉ rs.map key)
    (hrows : o.rows s' = change (o.rows s) (fun r' => key r' = key r) f hf)
    (hh : s'.history = s.history) : Batch o i rs s' := by
  intro x hx
  have hne : key x ≠ key r := fun he => hr (he ▸ List.mem_map_of_mem hx)
  have hold : ∀ r' ∈ o.rows s', key r' = key x → r' ∈ o.rows s := by
    intro r' hr' hk
    rw [hrows] at hr'
    rcases mem_change hr' with ⟨r₀, -, hp, rfl⟩ | ⟨h₀, -⟩
    · rw [key_modify hf] at hk
      exact absurd (hk.symm.trans (by simpa using hp)) hne
    · exact h₀
  obtain ⟨hheld, hunsent⟩ := h x hx
  exact ⟨⟨hheld.lease.of_eq (by rw [hh]), fun r' hr' hk => hheld.unended r' (hold r' hr' hk) hk,
    fun r' hr' hk => hheld.same r' (hold r' hr' hk) hk,
    fun hb r' hr' hk => hheld.current hb r' (hold r' hr' hk) hk⟩,
    fun r' hr' hk => hunsent r' (hold r' hr' hk) hk⟩

/-- After sending a message the worker knows of it what it knew before. -/
theorem Held.sent {r : R} {s s' : AppState} {k : Nat} {hf : KeepsId (.sent k)} (h : Held o i r s)
    (hrows : o.rows s' = OutboxRow.change (o.rows s) (fun r' => key r' = key r) (.sent k) hf)
    (hh : s'.history = s.history) : Held o i r s' := by
  rw [held_iff] at h ⊢
  refine ⟨h.1.of_eq (by rw [hh]), fun r' hr' hk => ?_⟩
  rw [hrows] at hr'
  rcases mem_change hr' with ⟨r₀, h₀, -, rfl⟩ | ⟨h₀, -⟩
  · rw [columns_modify]
    exact (h.2 r₀ h₀ ((key_modify hf).symm.trans hk)).sent
  · exact h.2 r' h₀ hk

/-! ### The statements of a worker -/

theorem rows_changeMessages {p : R → Bool} {f : OutboxColumns Uuid → OutboxColumns Uuid}
    {hf : KeepsId f} {s : AppState} :
    o.rows (changeMessages o.toOutbox p f hf s) = change (o.rows s) p f hf :=
  o.rows_setRows _ _

theorem history_changeMessages {p : R → Bool} {f : OutboxColumns Uuid → OutboxColumns Uuid}
    {hf : KeepsId f} {s : AppState} :
    (changeMessages o.toOutbox p f hf s).history = s.history :=
  o.history_setRows _ _

/-- A batch has no message twice. -/
theorem pickDue_nodup (limit : Nat) (e : Env) (s : AppState) :
    ((pickDue o.toOutbox limit e s).map key).Nodup := by
  have hsel : (((o.rows s).select fun r =>
      (columns r).due e.now && !e.locked (key r)).map key).Nodup :=
    (o.rows s).nodup.sublist (List.filter_sublist.map key)
  have hsort := ((List.perm_insertionSort
    (fun a b : R => (columns a).scheduledAt ≤ (columns b).scheduledAt) _).map key).nodup_iff.mpr
    hsel
  exact hsort.sublist ((List.take_sublist _ _).map key)

/-- What a worker has just claimed is its own. -/
theorem held_of_claim {s s' : AppState} {e : Env} {r : R} {next : Nat} {p : R → Bool} {hf}
    (hi : Inv o s) (hm : r ∈ pickDue o.toOutbox o.batch e s)
    (hp : ∀ r ∈ o.rows s, p r = true ↔ r ∈ pickDue o.toOutbox o.batch e s)
    (hrows : o.rows s' = change (o.rows s) p (.claimed s.history.leases.length next) hf)
    (hh : s'.history = { s.history with
      leases := s.history.leases ++ [(i, (pickDue o.toOutbox o.batch e s).map key)] }) :
    Ready o i (modify (.claimed s.history.leases.length next) r) s' := by
  have hr := mem_of_mem_pickDue hm
  -- The row that the claim has written is the one that it returns.
  have hrow : ∀ r' ∈ o.rows s', key r' = key r →
      columns r' = (columns r).claimed s.history.leases.length next := by
    intro r' hr' hk
    rw [hrows] at hr'
    rcases mem_change hr' with ⟨r₀, h₀, -, rfl⟩ | ⟨h₀, hn⟩
    · rw [key_modify hf] at hk
      rw [columns_modify, Table.eq_of_key h₀ hr hk]
    · obtain rfl := Table.eq_of_key h₀ hr hk
      rw [(hp r' h₀).mpr hm] at hn
      cases hn
  have hcl : (columns (modify (.claimed s.history.leases.length next) r)).claim =
      s.history.leases.length := by
    rw [columns_modify]
    rfl
  refine ⟨held_iff.mpr ⟨?_, fun r' hr' hk => ?_⟩, fun r' hr' hk => ?_⟩
  · rw [hcl, key_modify hf]
    exact leased_new hh (List.mem_map_of_mem hm)
  · rw [hcl, columns_modify, hrow r' hr' (hk.trans (key_modify hf))]
    constructor <;> simp [OutboxColumns.claimed]
  · rw [hcl, hrow r' hr' (hk.trans (key_modify hf))]
    exact fun hmem => Nat.lt_irrefl _ ((hi.messages r hr).sends_lt _ hmem)

theorem claimPending_triple : (outboxContract o cond).Triple i (fun _ => True)
    (claimPending o.toOutbox o.batch)
    (onOk fun rs s => Batch o i rs s ∧ (rs.map key).Nodup) := by
  refine sql_triple outboxContract_patient stable_const
    (fun rs => batch_stable.and stable_const) fun s e hi _ ha hfault => ?_
  have hpid : e.pid = i := (not_issued_of_admissible ha.1).1
  have hp : ∀ r ∈ o.rows s, ((pickDue o.toOutbox o.batch e s).map key).contains (key r) = true ↔
      r ∈ pickDue o.toOutbox o.batch e s := by
    intro r hr
    rw [List.contains_iff_mem, List.mem_map]
    refine ⟨fun ⟨r', hr', hk⟩ => ?_, fun h => ⟨r, h, rfl⟩⟩
    rwa [← Table.eq_of_key (mem_of_mem_pickDue hr') hr hk]
  dsimp only
  generalize hs' : AppState.mk _ _ _ _ = s'
  have hrows : o.rows s' = change (o.rows s)
      (fun r => ((pickDue o.toOutbox o.batch e s).map key).contains (key r))
      (.claimed s.history.leases.length (e.now + claimLease)) ⟨fun _ => rfl⟩ := by
    rw [← hs']
    exact (o.rows_history _ _).trans rows_changeMessages
  have hh : s'.history = { s.history with
      leases := s.history.leases ++ [(i, (pickDue o.toOutbox o.batch e s).map key)] } := by
    rw [← hs', ← hpid]
    simp only [history_changeMessages]
  refine ⟨.claim hfault hp hrows hh, fun x hx => ?_, ?_⟩
  · obtain ⟨r, hr, rfl⟩ := List.mem_map.mp hx
    exact held_of_claim hi hr hp hrows hh
  · have hkey : key ∘ modify (R := R) (OutboxColumns.claimed s.history.leases.length
        (e.now + claimLease)) = key :=
      funext fun r => key_modify (f := OutboxColumns.claimed _ _) ⟨fun _ => rfl⟩
    rw [List.map_map, hkey]
    exact pickDue_nodup _ _ _

/-- A message of the worker is sent; the rest of the batch is as it was. -/
theorem sendMessage_triple {r : R} {rest : List R} {outcome : Env → Except AppError Unit}
    (hr : key r ∉ rest.map key) : (outboxContract o cond).Triple i
    (fun s => Ready o i r s ∧ Batch o i rest s) (sendMessage o.toOutbox r outcome)
    fun _ s => Held o i r s ∧ Batch o i rest s := by
  refine Triple.atomic (ready_stable.and batch_stable) (fun _ => held_stable.and batch_stable)
    fun s e _ hs _ _ => ⟨?_, ?_, ?_⟩
  · exact .send hs.1.1.lease hs.1.2 hs.1.1.current rows_changeMessages history_changeMessages
  · exact hs.1.1.sent rows_changeMessages history_changeMessages
  · exact hs.2.change hr rows_changeMessages history_changeMessages

/-- The outcome of a claim is written; the rest of the batch is as it was. -/
theorem endMessage_triple {r : R} {rest : List R}
    {f : Env → OutboxColumns Uuid → OutboxColumns Uuid} {hf : ∀ e, KeepsId (f e)}
    (hr : key r ∉ rest.map key)
    (hends : ∀ e, EndsBy e.now (columns r).claim
      (decide ((columns r).maxAttempts ≤ (columns r).attempts)) (f e)) :
    (outboxContract o cond).Triple i (fun s => Held o i r s ∧ Batch o i rest s)
      (endMessage o.toOutbox r f hf) (onOk fun _ s => Batch o i rest s) := by
  refine sql_triple outboxContract_patient (held_stable.and batch_stable) (fun _ => batch_stable)
    fun s e _ hs _ hfault => ⟨?_, ?_⟩
  · refine .outcome hfault hs.1.lease hs.1.unended (fun r' hr' hk hhead => ?_) (hends e)
      rows_changeMessages history_changeMessages
    obtain ⟨hat, hmax⟩ := hs.1.same r' hr' hk hhead
    rw [hat, hmax, decide_eq_true_iff]
  · exact hs.2.change hr rows_changeMessages history_changeMessages

theorem markDelivered_triple {r : R} {rest : List R} (hr : key r ∉ rest.map key) :
    (outboxContract o cond).Triple i (fun s => Held o i r s ∧ Batch o i rest s)
      (markDelivered o.toOutbox r) (onOk fun _ s => Batch o i rest s) :=
  endMessage_triple hr fun _ => .delivered

theorem failMessage_triple {r : R} {rest : List R} {message : String}
    (hr : key r ∉ rest.map key) :
    (outboxContract o cond).Triple i (fun s => Held o i r s ∧ Batch o i rest s)
      (failMessage o.toOutbox r message) (onOk fun _ s => Batch o i rest s) := by
  refine Triple.seq (utcNow_keep outboxContract_patient (held_stable.and batch_stable))
    fun now => endMessage_triple hr fun _ => ?_
  have hst : statusAfterFailure r =
      if decide ((columns r).maxAttempts ≤ (columns r).attempts) then .deadLetter
      else .pending := by
    simp [statusAfterFailure]
  rw [hst]
  exact .failed _ _

/-! ### A round of a worker -/

variable (o cond) in
/-- Sending a message leaves the worker its batch. -/
def Sends (send : R → Service Unit) : Prop :=
  ∀ i r rest, key r ∉ rest.map key → (outboxContract o cond).Triple i
    (fun s => Ready o i r s ∧ Batch o i rest s) (send r)
    fun _ s => Held o i r s ∧ Batch o i rest s

theorem deliverAll_triple {send : R → Service Unit} (hsend : Sends o cond send) {rs : List R}
    (hnodup : (rs.map key).Nodup) : (outboxContract o cond).Triple i (Batch o i rs)
      (deliverAll (outboxRound o.toOutbox send) rs) (onOk fun _ _ => True) := by
  induction rs with
  | nil => exact Triple.done batch_stable fun _ _ _ => trivial
  | cons r rest ih =>
      obtain ⟨hr, hrest⟩ := List.nodup_cons.mp hnodup
      refine Triple.seq ((hsend i r rest hr).attempt.pre fun s _ hs =>
        ⟨hs r List.mem_cons_self, fun x hx => hs x (List.mem_cons_of_mem _ hx)⟩) fun sent => ?_
      cases sent with
      | ok _ => exact Triple.seq (markDelivered_triple hr) fun _ => ih hrest
      | error error => exact Triple.seq (failMessage_triple hr) fun _ => ih hrest

theorem deliverPending_safe {send : R → Service Unit} (hsend : Sends o cond send) :
    (outboxContract o cond).Safe i (deliverPending (outboxRound o.toOutbox send) o.batch) := by
  refine Triple.any (Triple.seq (R := fun _ _ => True) claimPending_triple fun rs => ?_)
  refine (Triple.of_fact fun hnodup => deliverAll_triple hsend hnodup).pre fun s _ hs => ?_
  exact ⟨hs.2, hs.1⟩

/-- A generated identifier is unused. -/
theorem newUuid_unused : (outboxContract o cond).Triple i (fun _ => True) newUuid
    (onOk fun id s => ¬ o.back → Unused o i id s) := by
  refine Triple.atomic stable_const (stable_onOk fun _ => unused_stable) fun s e hi _ _ ha => ?_
  obtain ⟨hpid, hf⟩ := not_issued_of_admissible ha.1
  refine ⟨outboxContract_patient.issue i e s hi ha, fun hb => ⟨?_, fun r hr hid => ?_, ?_⟩⟩
  · rw [hpid]
    exact List.mem_cons_self
  · exact hf (hid ▸ hi.message_issued hb r (o.rows_history s _ ▸ hr))
  · exact fun k j hk => hf (hi.claim_issued hb k j _ hk)

/-! ### Notifications -/

/-- The notifications: finished ones are removed when they are old enough. -/
def notifications (app : App) : Drained NotificationRecord :=
  { notificationOutbox with
    batch := notificationBatchSize
    gone := fun e n => n.status ≠ .pending ∧
      pastRetention app.config.notificationRetentionDays e.now n.createdAt = true
    back := False }

/-- The calls. -/
inductive NotificationCall where
  | enqueue (notification : NewNotification)
  | deliverPending
  | purge

def NotificationCall.body (app : App) : NotificationCall → Service Unit
  | .enqueue notification => do
    let _ ← Db.enqueueNotification notification app.config.maxJobAttempts
    return ()
  | .deliverPending => deliverPendingNotifications app
  | .purge => do
    let _ ← Db.purgeTerminalNotifications app.config.notificationRetentionDays
    return ()

/-- Any number of workers and other calls on the notifications, side by side. -/
def notificationSystem (app : App) :
    System Event Env AppState AppError NotificationCall Unit :=
  ⟨NotificationCall.body app, admissible⟩

variable {app : App}

theorem enqueueNotification_safe {n : NewNotification} {maxAttempts : Nat}
    (hpos : 0 < maxAttempts) : (outboxContract (notifications app) cond).Safe i
      (Db.enqueueNotification n maxAttempts) := by
  refine enqueue_from outboxContract_patient newUuid_unused (fun _ => unused_stable)
    fun s e id notifications _ hs _ hins => ?_
  have hmem := (Table.insert_eq_some hins).2
  refine .add (fun r hr => ?_) (fun r hr => (hmem r).mpr (.inl hr)) rfl
  rcases (hmem r).mp hr with h | rfl
  · exact .inl h
  · exact .inr ⟨⟨rfl, rfl, hpos, rfl, rfl⟩, hs⟩

theorem sendNotification_sends : Sends (notifications app) cond (sendNotification app) :=
  fun _ _ _ hr => sendMessage_triple hr

theorem purgeTerminalNotifications_safe : (outboxContract (notifications app) cond).Safe i
    (Db.purgeTerminalNotifications app.config.notificationRetentionDays) := by
  refine sql_safe outboxContract_patient fun s e _ _ _ => .remove (fun r hp => ?_) rfl rfl
  simp only [Bool.and_eq_true, decide_eq_true_eq] at hp
  exact hp

theorem notificationCall_safe (hpos : 0 < app.config.maxJobAttempts) (k : NotificationCall) :
    (outboxContract (notifications app) cond).Safe i (NotificationCall.body app k) := by
  cases k with
  | enqueue n => exact .bind (enqueueNotification_safe hpos) fun _ => .done
  | deliverPending => exact deliverPending_safe sendNotification_sends
  | purge => exact .bind purgeTerminalNotifications_safe fun _ => .done

/-! ### Webhook deliveries -/

/-- The webhook deliveries: finished ones stay, and may be put back. -/
def deliveries : Drained WebhookDeliveryRecord :=
  { deliveryOutbox with batch := webhookBatchSize, gone := fun _ _ => False, back := True }

/-- The calls. -/
inductive DeliveryCall where
  | enqueue (tenantId : Uuid) (eventType : String) (payload : Value)
  | dispatchPending
  | redeliver (tenantId webhookId deliveryId : Uuid)

def DeliveryCall.body : DeliveryCall → Service Unit
  | .enqueue tenantId eventType payload => do
    let _ ← Db.enqueueWebhookDeliveries tenantId eventType payload
    return ()
  | .dispatchPending => dispatchPendingWebhooks
  | .redeliver tenantId webhookId deliveryId => do
    let _ ← redeliverWebhookDelivery tenantId webhookId deliveryId
    return ()

/-- Any number of workers and other calls on the deliveries, side by side. -/
def deliverySystem : System Event Env AppState AppError DeliveryCall Unit :=
  ⟨DeliveryCall.body, admissible⟩

theorem enqueueWebhookDeliveries_safe {tenantId : Uuid} {eventType : String} {payload : Value} :
    (outboxContract deliveries cond).Safe i
      (Db.enqueueWebhookDeliveries tenantId eventType payload) := by
  refine .bind (utcNow_safe outboxContract_patient) fun now => ?_
  refine sql_safe outboxContract_patient fun s e _ _ _ => ?_
  dsimp only
  split
  · rename_i t hins
    have hmem := Table.mem_insertAll hins
    refine .add (fun r hr => ?_) (fun r hr => (hmem r).mpr (.inl hr)) rfl
    rcases (hmem r).mp hr with h | h
    · exact .inl h
    · obtain ⟨⟨w, n⟩, -, rfl⟩ := List.mem_map.mp h
      exact .inr ⟨⟨rfl, rfl, Nat.succ_pos 4, rfl, rfl⟩, fun hb => absurd trivial hb⟩
  · exact .quiet rfl rfl

/-- A delivery that cannot be sent is as it was. -/
theorem sendDelivery_sends : Sends deliveries cond sendDelivery := by
  intro i r rest hr
  have hstable : (outboxContract deliveries cond).Stable i fun s =>
      Ready deliveries i r s ∧ Batch deliveries i rest s := ready_stable.and batch_stable
  have hweaken : ∀ s, Ready deliveries i r s ∧ Batch deliveries i rest s →
      Held deliveries i r s ∧ Batch deliveries i rest s := fun s hs => ⟨hs.1.1, hs.2⟩
  have getWebhook_stay : (outboxContract deliveries cond).Triple i
      (fun s => Ready deliveries i r s ∧ Batch deliveries i rest s)
      (getWebhook r.tenantId r.webhookId)
      fun _ s => Ready deliveries i r s ∧ Batch deliveries i rest s := by
    refine Triple.bind (select_stay outboxContract_patient hstable) (fun webhook => ?_)
      fun _ _ _ hs => hs
    cases webhook with
    | none => exact Triple.done hstable fun _ _ hs => hs
    | some _ => exact Triple.done hstable fun _ _ hs => hs
  refine Triple.bind getWebhook_stay (fun webhook => ?_) fun _ s _ hs => hweaken s hs
  cases hactive : webhook.isActive with
  | false => exact Triple.done hstable fun s _ hs => hweaken s hs
  | true => exact sendMessage_triple hr

theorem redeliverWebhookDelivery_safe {tenantId webhookId deliveryId : Uuid} :
    (outboxContract deliveries cond).Safe i
      (redeliverWebhookDelivery tenantId webhookId deliveryId) := by
  refine .bind (.bind (select_safe outboxContract_patient) fun _ => .okOr) fun _ => ?_
  refine .bind (sql_safe outboxContract_patient fun s e _ _ _ => ?_) fun requeued => ?_
  · refine .redeliver trivial (fun r hp => ?_) (show _ = change s.db.webhookDeliveries
      (isRedeliverable tenantId webhookId deliveryId) (.redelivered e.now) ⟨fun _ => rfl⟩
      from rfl) rfl
    simp only [isRedeliverable, isDelivery, Bool.and_eq_true, decide_eq_true_eq] at hp
    exact hp.1.2
  · cases requeued with
    | some delivery => exact .done
    | none =>
        refine .bind (select_safe outboxContract_patient) fun existing => ?_
        exact .ite (fun _ => .fail) fun _ => .fail

theorem deliveryCall_safe (k : DeliveryCall) :
    (outboxContract deliveries cond).Safe i (DeliveryCall.body k) := by
  cases k with
  | enqueue => exact .bind enqueueWebhookDeliveries_safe fun _ => .done
  | dispatchPending => exact deliverPending_safe sendDelivery_sends
  | redeliver => exact .bind redeliverWebhookDelivery_safe fun _ => .done

end Fluxa.Outboxes
