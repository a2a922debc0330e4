import Fluxa.Http.Members
import Fluxa.Services.Webhooks

/-!
# Http — the routes of webhooks

The handlers of `http/handlers.rs` for the webhooks of a tenant, but for their deliveries.
-/

namespace Fluxa.Http
open Interleave Db

/-- The JSON of `WebhookResponse`: the secret is not in it. -/
def webhookResponseValue (app : App) (w : WebhookRecord) : Value :=
  .obj [("id", .str (app.lib.uuidString w.id)), ("tenant_id", .str (app.lib.uuidString w.tenantId)),
    ("url", .str w.url), ("events", .arr (w.events.map .str)), ("is_active", .bool w.isActive),
    ("created_by", .str (app.lib.uuidString w.createdBy)),
    ("created_at", .str (app.lib.jsonTime w.createdAt)),
    ("updated_at", .str (app.lib.jsonTime w.updatedAt))]

def listWebhooks (app : App) (user : AuthenticatedUser) : Service (List Value) := do
  .lift (ensureAdminRole user.role)
  return (← Webhooks.listWebhooks user.tenantId).map (webhookResponseValue app)

def createWebhook (app : App) (user : AuthenticatedUser) (idempotencyKey : Option String)
    (url : String) (events : List String) : Service StoredResponse := do
  .lift (ensureAdminRole user.role)
  let key ← .lift (requiredIdempotencyKey idempotencyKey)
  idempotent app ⟨user.tenantId, "webhooks:create", key⟩ (.ok ())
    (fun _ => Webhooks.createWebhook app user.tenantId user.userId url events)
    fun webhook => createdResponse
      (.obj [("webhook", webhookResponseValue app webhook), ("secret", .str webhook.secret)])

def updateWebhook (app : App) (user : AuthenticatedUser) (webhookId : Uuid) (url : Option String)
    (events : Option (List String)) (isActive : Option Bool) : Service Value := do
  .lift (ensureAdminRole user.role)
  return webhookResponseValue app
    (← Webhooks.updateWebhook app user.tenantId webhookId url events isActive)

def deleteWebhook (user : AuthenticatedUser) (webhookId : Uuid) : Service Unit := do
  .lift (ensureAdminRole user.role)
  Webhooks.deleteWebhook user.tenantId webhookId

end Fluxa.Http
