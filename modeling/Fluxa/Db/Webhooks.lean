import Fluxa.Db.Listing

/-!
# Db — webhooks

`db/webhooks.rs`, but for the claims and outcomes of deliveries.  The registration of a webhook is a transaction of several statements that holds the lock on the row of its tenant; any failure in it rolls it back.
-/

namespace Fluxa.Db
open Interleave Relational

/-- `MAX_WEBHOOKS_PER_TENANT`. -/
def maxWebhooksPerTenant : Nat := 10

/-! ### The registration -/

/-- The transaction of the call is no longer open. -/
def endWebhookTx (pid : Nat) (s : AppState) : AppState :=
  { s with db.webhookTxs := s.db.webhookTxs.filter fun T => T.pid ≠ pid }

/-- The call's open transaction is `T`. -/
def putWebhookTx (T : WebhookTx) (s : AppState) : AppState :=
  { s with db.webhookTxs := T :: s.db.webhookTxs.filter fun T' => T'.pid ≠ T.pid }

/-- A statement in the call's transaction, which waits until `ready`; a failure rolls the
transaction back. -/
def inWebhookTx {A : Type} (ready : AppState → Bool)
    (run : Env → AppState → Except AppError (A × AppState)) : Service A :=
  .atomic .quiet ready fun e s =>
    match e.fault, run e s with
    | .none, .ok (a, s') => (.ok a, s')
    | .none, .error x => (.error x, endWebhookTx e.pid s)
    | _, _ => (.error (databaseError e.detail), endWebhookTx e.pid s)

/-- Another transaction holds the lock on the row of the tenant. -/
def tenantLocked (tenantId : Uuid) (s : AppState) : Bool :=
  s.db.webhookTxs.any fun T => T.tenantId = tenantId

/-- `BEGIN` and `SELECT id FROM tenants WHERE id = $1 FOR UPDATE`. -/
def lockTenant (tenantId : Uuid) : Service WebhookTx :=
  inWebhookTx (fun s => !tenantLocked tenantId s) fun e s =>
    match s.db.tenants.find? tenantId with
    | none => .error (databaseError e.detail)
    | some _ =>
      let T : WebhookTx := { pid := e.pid, tenantId, inserted := [] }
      .ok (T, putWebhookTx T s)

/-- `SELECT COUNT(*)`, with the cap. -/
def checkWebhookCount (T : WebhookTx) : Service Unit :=
  inWebhookTx (fun _ => true) fun _ s =>
    if s.db.webhooks.count (fun w => w.tenantId = T.tenantId) ≥ maxWebhooksPerTenant then
      .error (.validation s!"a tenant may register at most {maxWebhooksPerTenant} webhooks")
    else .ok ((), s)

/-- `INSERT INTO webhooks`. -/
def insertWebhook (T : WebhookTx) (webhook : WebhookRecord) : Service WebhookTx :=
  inWebhookTx (fun _ => true) fun _ s =>
    match s.db.webhooks.insert webhook with
    | none => .error uniqueViolation
    | some _ =>
      let T := { T with inserted := webhook :: T.inserted }
      .ok (T, putWebhookTx T s)

/-- `COMMIT`. -/
def commitWebhook (T : WebhookTx) (webhook : WebhookRecord) : Service Unit :=
  .atomic .quiet (fun _ => true) fun e s =>
    match e.fault, s.db.webhooks.insertAll T.inserted with
    | .failed, _ | _, none => (.error (databaseError e.detail), endWebhookTx e.pid s)
    | fault, some webhooks =>
      (if fault = .none then .ok () else .error (databaseError e.detail),
        endWebhookTx e.pid { s with
          db.webhooks := webhooks
          history := noteCreated e .webhook webhook.id s.history })

def createWebhook (tenantId actorId : Uuid) (url secret : String) (events : List String) :
    Service WebhookRecord := do
  let now ← utcNow
  let T ← lockTenant tenantId
  checkWebhookCount T
  let id ← newUuid
  let webhook : WebhookRecord :=
    { id, tenantId, url, secret, events, isActive := true, createdBy := actorId,
      createdAt := now, updatedAt := now }
  let T ← insertWebhook T webhook
  commitWebhook T webhook
  return webhook

/-! ### The other operations -/

/-- The tenant's webhook. -/
def isWebhook (tenantId webhookId : Uuid) (w : WebhookRecord) : Bool :=
  w.tenantId = tenantId && w.id = webhookId

def listWebhooks (tenantId : Uuid) : Service (List WebhookRecord) :=
  select fun _ s => (s.db.webhooks.select fun w => w.tenantId = tenantId).insertionSort
    fun a b => !keyBelow (a.createdAt, a.id) (b.createdAt, b.id)

def getWebhook (tenantId webhookId : Uuid) : Service WebhookRecord := do
  let webhook ← select fun _ s => (s.db.webhooks.find? webhookId).filter (isWebhook tenantId webhookId)
  Prog.okOr webhook (.notFound "webhook not found")

/-- The assignments of `update_webhook`. -/
def applyWebhookUpdate (url : Option String) (events : Option (List String))
    (isActive : Option Bool) (now : Time) (w : WebhookRecord) : WebhookRecord :=
  { w with
    url := url.getD w.url, events := events.getD w.events, isActive := isActive.getD w.isActive
    updatedAt := now }

def updateWebhook (tenantId webhookId : Uuid) (url : Option String) (events : Option (List String))
    (isActive : Option Bool) : Service WebhookRecord := do
  let now ← utcNow
  sql .quiet fun _ s =>
    let f := applyWebhookUpdate url events isActive now
    match (s.db.webhooks.find? webhookId).filter (isWebhook tenantId webhookId) with
    | none => (.error (.notFound "webhook not found"), s)
    | some w => (.ok (f w), { s with
        db.webhooks := s.db.webhooks.update (isWebhook tenantId webhookId) f ⟨fun _ => rfl⟩ })

/-- A webhook goes with its deliveries. -/
def deleteWebhook (tenantId webhookId : Uuid) : Service Unit :=
  sql .quiet fun _ s =>
    if s.db.webhooks.any (isWebhook tenantId webhookId) then
      (.ok (), { s with
        db.webhooks := s.db.webhooks.delete (isWebhook tenantId webhookId)
        db.webhookDeliveries := s.db.webhookDeliveries.delete fun d => d.webhookId = webhookId })
    else (.error (.notFound "webhook not found"), s)

/-! ### Deliveries -/

/-- The default of `webhook_deliveries.max_attempts`. -/
def defaultMaxAttempts : Nat := 5

/-- The deliveries that `enqueue_webhook_deliveries` inserts. -/
def newDeliveries (s : AppState) (tenantId : Uuid) (eventType : String) (payload : Value)
    (now : Time) (rowUuid : Nat → Uuid) : List WebhookDeliveryRecord :=
  let subscribed := s.db.webhooks.select fun w =>
    w.tenantId = tenantId && w.isActive && w.events.contains eventType
  subscribed.zipIdx.map fun (w, n) =>
    { OutboxColumns.new (rowUuid n) defaultMaxAttempts now with
      webhookId := w.id, tenantId := w.tenantId, eventType, payload, createdAt := now }

def enqueueWebhookDeliveries (tenantId : Uuid) (eventType : String) (payload : Value) :
    Service Nat := do
  let now ← utcNow
  sql .quiet fun e s =>
    let deliveries := newDeliveries s tenantId eventType payload now e.rowUuid
    match s.db.webhookDeliveries.insertAll deliveries with
    | some webhookDeliveries =>
      (.ok deliveries.length, { s with db.webhookDeliveries := webhookDeliveries })
    | none => (.error uniqueViolation, s)

def listWebhookDeliveries (tenantId webhookId : Uuid) (cursor : Option AuditCursor) (limit : Nat) :
    Service (List WebhookDeliveryRecord × Option AuditCursor) :=
  select fun _ s => listCreated (fun d => (d.createdAt, d.id)) cursor limit <|
    s.db.webhookDeliveries.select fun d => d.tenantId = tenantId && d.webhookId = webhookId

end Fluxa.Db
