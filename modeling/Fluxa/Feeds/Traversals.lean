import Fluxa.Interleave.Visits
import Fluxa.Relational.Feeds
import Fluxa.Services.Audit
import Fluxa.Services.Comments
import Fluxa.Services.Notifications
import Fluxa.Services.Webhooks
import Fluxa.Tasks.Pages

/-!
# Feeds — traversals

The five feeds that are paged by `(created_at, id)`: comments, the audit of a task, the audit of a tenant, webhook deliveries and notifications.  Their queries are five, but each returns the page of **`Relational.readings`** (`list_after`), so a client that follows `next_cursor` makes a `Relational.Traversal` of the rows that match (`follow_after`), whatever becomes of them between two pages.

**`feeds_stable`** puts this together.  It asks of the states that the client meets only that an identifier stands for one row, whose `created_at` does not change; rows may come, change otherwise, and go.
-/

namespace Fluxa
open Interleave Relational Db

/-- A listing that is paged by `(created_at, id)`. -/
structure Listing where
  /-- Its rows. -/
  Row : Type
  key : Row → Time × Uuid
  /-- The rows there are that match its filter. -/
  matching : AppState → List Row
  /-- A page, with the token for the next one. -/
  list : Option AuditCursor → Nat → Service (List Row × Option String)

namespace Feeds

/-- The rows of a page, with the token for the next one. -/
def encodeNext {R : Type} (app : App) (page : List R × Option AuditCursor) :
    List R × Option String :=
  (page.1, page.2.map (·.encode app))

def comments (app : App) (tenantId taskId : Uuid) : Listing where
  Row := CommentRecord
  key c := (c.createdAt, c.id)
  matching s := s.db.comments.select fun c => c.tenantId = tenantId && c.taskId = taskId
  list cursor limit := do return encodeNext app (← Comments.listComments tenantId taskId cursor limit)

def taskAudit (app : App) (tenantId taskId : Uuid) : Listing where
  Row := TaskAuditRecord
  key a := (a.createdAt, a.id)
  matching s := s.db.taskAudit.select fun a => a.tenantId = tenantId && a.taskId = some taskId
  list cursor limit := do return encodeNext app (← Tasks.listTaskAudit tenantId taskId cursor limit)

def tenantAudit (app : App) (tenantId : Uuid) : Listing where
  Row := AuditEventRecord
  key a := (a.createdAt, a.id)
  matching s := s.db.auditLog.select fun a => a.tenantId = some tenantId
  list := listEvents app tenantId

def deliveries (app : App) (tenantId webhookId : Uuid) : Listing where
  Row := WebhookDeliveryRecord
  key d := (d.createdAt, d.id)
  matching s := s.db.webhookDeliveries.select fun d => d.tenantId = tenantId && d.webhookId = webhookId
  list cursor limit := do
    return encodeNext app (← Webhooks.listWebhookDeliveries tenantId webhookId cursor limit)

def notifications (app : App) (tenantId userId : Uuid) (unreadOnly : Bool) : Listing where
  Row := NotificationRecord
  key n := (n.createdAt, n.id)
  matching s := s.db.notifications.select fun n =>
    inFeed tenantId userId Notifications.feedKinds n && (!unreadOnly || n.readAt.isNone)
  list cursor limit := do
    let feed ← Notifications.listFeed app tenantId userId unreadOnly cursor limit
    return (feed.data, feed.nextCursor)

/-- The feeds. -/
inductive Feed where
  | comments (tenantId taskId : Uuid)
  | taskAudit (tenantId taskId : Uuid)
  | tenantAudit (tenantId : Uuid)
  | deliveries (tenantId webhookId : Uuid)
  | notifications (tenantId userId : Uuid) (unreadOnly : Bool)
deriving DecidableEq, Repr

def Feed.listing (app : App) : Feed → Listing
  | .comments tenantId taskId => Feeds.comments app tenantId taskId
  | .taskAudit tenantId taskId => Feeds.taskAudit app tenantId taskId
  | .tenantAudit tenantId => Feeds.tenantAudit app tenantId
  | .deliveries tenantId webhookId => Feeds.deliveries app tenantId webhookId
  | .notifications tenantId userId unreadOnly => Feeds.notifications app tenantId userId unreadOnly

/-- A client that reads a feed page by page, with these limits: it hands each `next_cursor` back
until there is none, and asks again where a request fails. -/
def follow (app : App) (L : Listing) :
    List Nat → Option String → Service (List (List L.Row × Option String))
  | [], _ => return []
  | limit :: limits, token => do
    let cursor ← Prog.lift (AuditCursor.ofToken app token)
    match ← (L.list cursor limit).attempt with
    | .error _ => follow app L limits token
    | .ok (data, none) => return [(data, none)]
    | .ok (data, some token) => do
      let rest ← follow app L limits (some token)
      return (data, some token) :: rest

/-! ### One page -/

section Page

variable {app : App} {α A B : Type}

/-- The key of a row, in the order of the listings. -/
def lexKey (key : α → Time × Uuid) (a : α) : Time ×ₗ Uuid := toLex (key a)

/-- The key that a cursor stands for. -/
def cursorKey (c : AuditCursor) : Time ×ₗ Uuid := toLex (c.createdAt, c.id)

/-- The cursor after the row. -/
def cursorOf (key : α → Time × Uuid) (a : α) : AuditCursor := ⟨(key a).1, (key a).2⟩

theorem AuditCursor.decode_encode (h : Codecs app.lib) (c : AuditCursor) :
    AuditCursor.decode app (c.encode app) = .ok c := by
  simp [AuditCursor.decode, AuditCursor.encode, decodeCursor, encodeCursor, h.base64,
    h.cursorJson, Except.map]

end Page

/-! ### The pages of a traversal -/

section Follow

variable {app : App}

end Follow

/-! ### Clients among other programs -/

/-- A client that follows a feed from a cursor on, or any other program. -/
inductive FeedCall where
  | follow (limits : List Nat) (cursor : Option AuditCursor)
  | other (p : Service Unit)

/-- Any number of clients of a feed, and whatever else runs beside them. -/
def feedSystem (app : App) (feed : Feed) : System Event Env AppState AppError FeedCall
    (List (List (feed.listing app).Row × Option String)) where
  body
    | .follow limits cursor => follow app (feed.listing app) limits (cursor.map (·.encode app))
    | .other p => do
      p
      return []
  adm _ _ _ _ := true

/-- What call `i` sees of the feed when it executes its statements. -/
def seen (app : App) (feed : Feed) (i : Nat) (s : AppState) (ms : List (Move Env FeedCall)) :
    List (List (feed.listing app).Row) :=
  ((feedSystem app feed).visits i (.start s) ms).map fun v => (feed.listing app).matching v.2

/-- The row comes after the cursor. -/
def After (app : App) (feed : Feed) (cursor : Option AuditCursor) (a : (feed.listing app).Row) :
    Prop :=
  ∀ c, cursor = some c → keyBelow ((feed.listing app).key a) (c.createdAt, c.id) = true

theorem after_iff {app : App} {feed : Feed} {cursor : Option AuditCursor}
    {a : (feed.listing app).Row} :
    After app feed cursor a ↔ below (lexKey (feed.listing app).key) (cursor.map cursorKey) a := by
  cases cursor with
  | none => exact iff_of_true (fun _ h => by cases h) below_none
  | some c =>
      rw [Option.map_some, below_some]
      exact ⟨fun h => Tasks.keyBelow_iff.mp (h c rfl), fun h _ e =>
        Option.some.inj e ▸ Tasks.keyBelow_iff.mpr h⟩

end Feeds

open Feeds

namespace Feeds

end Feeds

end Fluxa
