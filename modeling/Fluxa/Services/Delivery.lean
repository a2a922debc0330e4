import Fluxa.Db.Outbox

/-!
# Services — deliveries

`jobs/notifier.rs` and `jobs/webhook_dispatcher.rs`: one round of the workers that drain the outboxes, and the redelivery of `services/webhooks.rs`.  What is sent to whom is left out; whether it arrives is for the environment to say.
-/

namespace Fluxa
open Interleave Relational OutboxRow Db

namespace Delivery

variable {R : Type} [OutboxRow R Uuid] (o : Outbox R)

/-- Send the message under the claim that has returned it; `outcome` says what becomes of it. -/
def sendMessage (r : R) (outcome : Env → Except AppError Unit) : Service Unit :=
  .atomic (.sendMessage (key r) (columns r).claim) (fun _ => true) fun e s =>
    (outcome e, changeMessages o (fun r' => key r' = key r) (.sent (columns r).claim)
      ⟨fun _ => rfl⟩ s)

/-- What a worker does in a round: how it claims a batch, sends a message and writes the outcome. -/
structure Round (R : Type) where
  claim : Nat → Service (List R)
  send : R → Service Unit
  delivered : R → Service Unit
  failed : R → String → Service Unit

/-- Send each message and write down the outcome; a failure to do so ends the batch. -/
def deliverAll (w : Round R) : List R → Service Unit
  | [] => return ()
  | r :: rest => do
    match ← (w.send r).attempt with
    | .ok () => w.delivered r
    | .error error => w.failed r error.message
    deliverAll w rest

/-- One round of a worker: a batch is claimed and delivered. -/
def deliverPending (w : Round R) (limit : Nat) : Service Unit := do
  deliverAll w (← w.claim limit)

/-- The round of a worker on an outbox. -/
def outboxRound (send : R → Service Unit) : Round R :=
  ⟨claimPending o, send, markDelivered o, failMessage o⟩

end Delivery

/-- `NOTIFICATION_BATCH_SIZE`. -/
def notificationBatchSize : Nat := 50

/-- `AnyMailer::send`: only the SMTP provider can fail. -/
def mailOutcome (app : App) (e : Env) : Except AppError Unit :=
  if app.config.mailerProvider = "smtp" then
    match e.reply with
    | .failed => .error (.internal ("smtp delivery failed: " ++ e.detail))
    | .rejected => .error (.validation ("invalid recipient: " ++ e.detail))
    | .success _ => .ok ()
  else .ok ()

/-- The notification is rendered, which succeeds for every kind there is, and mailed. -/
def sendNotification (app : App) (n : NotificationRecord) : Service Unit :=
  Delivery.sendMessage notificationOutbox n (mailOutcome app)

def notifierRound (app : App) : Delivery.Round NotificationRecord :=
  ⟨claimPendingNotifications, sendNotification app, markNotificationSent, failNotification⟩

def deliverPendingNotifications (app : App) : Service Unit :=
  Delivery.deliverPending (notifierRound app) notificationBatchSize

/-- `WEBHOOK_BATCH_SIZE`. -/
def webhookBatchSize : Nat := 50

/-- The reply to a webhook request. -/
def webhookOutcome (e : Env) : Except AppError Unit :=
  match e.reply with
  | .failed => .error (.internal ("webhook request failed: " ++ e.detail))
  | .rejected => .error (.internal ("webhook endpoint responded with status " ++ e.detail))
  | .success _ => .ok ()

def sendDelivery (d : WebhookDeliveryRecord) : Service Unit := do
  let webhook ← getWebhook d.tenantId d.webhookId
  Prog.ensure webhook.isActive (.validation "webhook is disabled")
  Delivery.sendMessage deliveryOutbox d webhookOutcome

def dispatcherRound : Delivery.Round WebhookDeliveryRecord :=
  ⟨claimPendingWebhookDeliveries, sendDelivery, markWebhookDeliveryDelivered, failWebhookDelivery⟩

def dispatchPendingWebhooks : Service Unit :=
  Delivery.deliverPending dispatcherRound webhookBatchSize

def redeliverWebhookDelivery (tenantId webhookId deliveryId : Uuid) :
    Service WebhookDeliveryRecord := do
  let _ ← getWebhook tenantId webhookId
  Db.redeliverWebhookDelivery tenantId webhookId deliveryId

end Fluxa
