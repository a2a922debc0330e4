import Fluxa.Db.Webhooks
import Fluxa.Hosts.Addresses

/-!
# Services — webhooks

`services/webhooks.rs` with the checks of `domain/webhooks.rs`; the redelivery is in **`Fluxa.Services.Delivery`**.
-/

namespace Fluxa
open Interleave Db

namespace Webhooks

/-- `MAX_WEBHOOK_URL_LENGTH`. -/
def maxWebhookUrlLength : Nat := 2048

/-- `SUPPORTED_WEBHOOK_EVENTS`. -/
def supportedWebhookEvents : List String :=
  ["task_created", "task_updated", "task_status_updated", "task_archived", "task_restored"]

/-- The range checks of `is_private_host`. -/
def isPrivateAddr : IpAddr → Bool
  | .v4 a b c d =>
    a = 127 || a = 10 || (a = 172 && 16 ≤ b && b ≤ 31) || (a = 192 && b = 168) ||
      (a = 169 && b = 254) || (a = 0 && b = 0 && c = 0 && d = 0) ||
      (a = 255 && b = 255 && c = 255 && d = 255)
  | .v6 segments =>
    segments = [0, 0, 0, 0, 0, 0, 0, 1] || segments = [0, 0, 0, 0, 0, 0, 0, 0] ||
      (segments.headD 0 &&& 0xfe00) = 0xfc00 || (segments.headD 0 &&& 0xffc0) = 0xfe80

/-- `host.trim_start_matches('[').trim_end_matches(']')`. -/
def withoutBrackets (host : String) : String :=
  let opened := host.toList.dropWhile (· = '[')
  String.ofList (opened.reverse.dropWhile (· = ']')).reverse

def isPrivateHost (host : String) : Bool :=
  let normalized := withoutBrackets host
  toAsciiLowercase normalized = "localhost" || (IpAddr.parse normalized.toList).any isPrivateAddr

def validateWebhookUrl (app : App) (url : String) (allowPrivateUrls : Bool) :
    Except AppError String :=
  let trimmed := trim url
  if trimmed = "" then .error (.validation "webhook url must not be empty")
  else if trimmed.utf8ByteSize > maxWebhookUrlLength then
    .error (.validation s!"webhook url must be at most {maxWebhookUrlLength} characters")
  else
    match app.lib.parseUri trimmed with
    | none => .error (.validation "webhook url is not a valid URL")
    | some parsed =>
      if parsed.scheme ≠ some "http" ∧ parsed.scheme ≠ some "https" then
        .error (.validation "webhook url must use http or https")
      else
        match parsed.host with
        | none => .error (.validation "webhook url must include a host")
        | some host =>
          if !allowPrivateUrls && isPrivateHost host then
            .error (.validation
              "webhook url must not target loopback or private network addresses")
          else .ok trimmed

/-- The loop of `validate_webhook_events`. -/
def collectEvents : List String → List String → Except AppError (List String)
  | normalized, [] => .ok normalized
  | normalized, event :: events =>
    let event := trim event
    if !supportedWebhookEvents.contains event then
      .error (.validation ("unsupported webhook event: " ++ event))
    else collectEvents (if normalized.contains event then normalized else normalized ++ [event]) events

def validateWebhookEvents (events : List String) : Except AppError (List String) := do
  let normalized ← collectEvents [] events
  if normalized = [] then .error (.validation "webhook must subscribe to at least one event")
  else .ok normalized

def listWebhooks (tenantId : Uuid) : Service (List WebhookRecord) := Db.listWebhooks tenantId

def getWebhook (tenantId webhookId : Uuid) : Service WebhookRecord := Db.getWebhook tenantId webhookId

def createWebhook (app : App) (tenantId actorId : Uuid) (url : String) (events : List String) :
    Service WebhookRecord := do
  let url ← Prog.lift (validateWebhookUrl app url app.config.webhookAllowPrivateUrls)
  let events ← Prog.lift (validateWebhookEvents events)
  let secret ← generateRandom
  Db.createWebhook tenantId actorId url secret events

def updateWebhook (app : App) (tenantId webhookId : Uuid) (url : Option String)
    (events : Option (List String)) (isActive : Option Bool) : Service WebhookRecord := do
  Prog.ensure (url.isSome || events.isSome || isActive.isSome)
    (.validation "at least one webhook field must be provided")
  let url ← Prog.lift <|
    url.mapM fun url => validateWebhookUrl app url app.config.webhookAllowPrivateUrls
  let events ← Prog.lift (events.mapM validateWebhookEvents)
  Db.updateWebhook tenantId webhookId url events isActive

def deleteWebhook (tenantId webhookId : Uuid) : Service Unit := Db.deleteWebhook tenantId webhookId

def listWebhookDeliveries (tenantId webhookId : Uuid) (cursor : Option AuditCursor) (limit : Nat) :
    Service (List WebhookDeliveryRecord × Option AuditCursor) := do
  let _ ← Db.getWebhook tenantId webhookId
  Db.listWebhookDeliveries tenantId webhookId cursor limit

end Webhooks

end Fluxa
