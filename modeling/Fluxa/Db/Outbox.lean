import Fluxa.Db.Notifications
import Fluxa.Db.Webhooks
import Mathlib.Algebra.Group.Nat.Defs

/-!
# Db — outboxes

The claims and outcomes of `db/notifications.rs` and `db/webhooks.rs`.  The two files have the same statements on two tables, given here once for any **`Outbox`**, and the redelivery, which only webhooks have.  What is done with a message is noted in its trail.
-/

namespace Fluxa
open Interleave Relational OutboxRow

/-- Where an outbox is kept. -/
structure Outbox (R : Type) [OutboxRow R Uuid] where
  rows : AppState → Table R key
  setRows : Table R key → AppState → AppState
  rows_setRows : ∀ t s, rows (setRows t s) = t
  history_setRows : ∀ t s, (setRows t s).history = s.history
  rows_history : ∀ s h, rows { s with history := h } = rows s

def notificationOutbox : Outbox NotificationRecord where
  rows s := s.db.notifications
  setRows t s := { s with db.notifications := t }
  rows_setRows _ _ := rfl
  history_setRows _ _ := rfl
  rows_history _ _ := rfl

def deliveryOutbox : Outbox WebhookDeliveryRecord where
  rows s := s.db.webhookDeliveries
  setRows t s := { s with db.webhookDeliveries := t }
  rows_setRows _ _ := rfl
  history_setRows _ _ := rfl
  rows_history _ _ := rfl

namespace Db

variable {R : Type} [OutboxRow R Uuid] (o : Outbox R)

/-- The change `f` of the columns of the messages that satisfy `p`. -/
def changeMessages (p : R → Bool) (f : OutboxColumns Uuid → OutboxColumns Uuid) (hf : KeepsId f)
    (s : AppState) : AppState :=
  o.setRows (change (o.rows s) p f hf) s

/-- The due messages that a claim statement takes: the first `limit` that are not locked. -/
def pickDue (limit : Nat) (e : Env) (s : AppState) : List R :=
  (((o.rows s).select fun r => (columns r).due e.now && !e.locked (key r)).insertionSort
    fun a b => (columns a).scheduledAt ≤ (columns b).scheduledAt).take limit

/-- How long a claimed message is not due: `interval '60 seconds'`. -/
def claimLease : Nat := seconds 60

def claimPending (limit : Nat) : Service (List R) :=
  sql .claimMessages fun e s =>
    let f := OutboxColumns.claimed s.history.leases.length (e.now + claimLease)
    let picked := pickDue o limit e s
    (.ok (picked.map (modify f)),
      { changeMessages o (fun r => (picked.map key).contains (key r)) f ⟨fun _ => rfl⟩ s with
        history.leases := s.history.leases ++ [(e.pid, picked.map key)] })

/-- The outcome of the claim that has returned `r`, written by `f` to the row with the identifier
of `r`; the number of the claim is for the trail only. -/
def endMessage (r : R) (f : Env → OutboxColumns Uuid → OutboxColumns Uuid)
    (hf : ∀ e, KeepsId (f e)) : Service Unit :=
  sql (.endMessage (key r) (columns r).claim) fun e s =>
    (.ok (), changeMessages o (fun r' => key r' = key r) (f e) (hf e) s)

def markDelivered (r : R) : Service Unit :=
  endMessage o r (fun e => .delivered (columns r).claim e.now) fun _ => ⟨fun _ => rfl⟩

/-- The status after a failure of the claim that has returned `r`. -/
def statusAfterFailure (r : R) : OutboxStatus :=
  if (columns r).attempts ≥ (columns r).maxAttempts then .deadLetter else .pending

def failMessage (r : R) (message : String) : Service Unit := do
  let status := statusAfterFailure r
  let now ← utcNow
  let nextTime :=
    if status = .deadLetter then now
    else now + seconds (2 ^ (max 1 (min (columns r).attempts 8)))
  endMessage o r (fun _ => .failed (columns r).claim status nextTime message)
    fun _ => ⟨fun _ => rfl⟩

/-! ### The members -/

def claimPendingNotifications : Nat → Service (List NotificationRecord) :=
  claimPending notificationOutbox

def markNotificationSent : NotificationRecord → Service Unit := markDelivered notificationOutbox

def failNotification : NotificationRecord → String → Service Unit := failMessage notificationOutbox

def claimPendingWebhookDeliveries : Nat → Service (List WebhookDeliveryRecord) :=
  claimPending deliveryOutbox

def markWebhookDeliveryDelivered : WebhookDeliveryRecord → Service Unit :=
  markDelivered deliveryOutbox

def failWebhookDelivery : WebhookDeliveryRecord → String → Service Unit :=
  failMessage deliveryOutbox

/-- The delivery belongs to the webhook of the tenant. -/
def isDelivery (tenantId webhookId deliveryId : Uuid) (d : WebhookDeliveryRecord) : Bool :=
  d.tenantId = tenantId && d.webhookId = webhookId && d.id = deliveryId

/-- The delivery can be put back: `status IN ('delivered', 'dead_letter')`. -/
def isRedeliverable (tenantId webhookId deliveryId : Uuid) (d : WebhookDeliveryRecord) : Bool :=
  isDelivery tenantId webhookId deliveryId d && d.status ≠ .pending

def redeliverWebhookDelivery (tenantId webhookId deliveryId : Uuid) :
    Service WebhookDeliveryRecord := do
  let requeued ← sql (.redeliver deliveryId) fun e s =>
    let p := isRedeliverable tenantId webhookId deliveryId
    let f := OutboxColumns.redelivered (κ := Uuid) e.now
    (.ok (((s.db.webhookDeliveries.select p).map (modify f)).head?),
      changeMessages deliveryOutbox p f ⟨fun _ => rfl⟩ s)
  match requeued with
  | some delivery => return delivery
  | none =>
    let existing ← select fun _ s =>
      s.db.webhookDeliveries.any (isDelivery tenantId webhookId deliveryId)
    if existing then
      .fail (.conflict "delivery is already pending and will be attempted shortly")
    else .fail (.notFound "webhook delivery not found")

end Db

end Fluxa
