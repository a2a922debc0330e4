import Fluxa.Db.Listing

/-!
# Db — notifications and retention

`db/notifications.rs`, as far as notifications are enqueued and listed, and the purges of `db/retention.rs` that touch neither tokens nor jobs.
-/

namespace Fluxa.Db
open Interleave Relational

/-- `ON CONFLICT (dedupe_key) WHERE dedupe_key IS NOT NULL`: a row has the key already. -/
def hasDedupeKey (s : AppState) (dedupeKey : Option String) : Bool :=
  dedupeKey.isSome && s.db.notifications.any fun n => n.dedupeKey = dedupeKey

/-- The row that `enqueue_notification` inserts. -/
def newNotification (id : Uuid) (n : NewNotification) (maxAttempts : Nat) (now : Time) :
    NotificationRecord :=
  { OutboxColumns.new id maxAttempts now with
    tenantId := n.tenantId, userId := n.userId, kind := n.kind, recipient := n.recipient,
    payload := n.payload, dedupeKey := n.dedupeKey, readAt := none, createdAt := now }

def enqueueNotification (n : NewNotification) (maxAttempts : Nat) : Service Bool := do
  let id ← newUuid
  sql .quiet fun e s =>
    if hasDedupeKey s n.dedupeKey then (.ok false, s)
    else
      match s.db.notifications.insert (newNotification id n maxAttempts e.now) with
      | some notifications => (.ok true, { s with
          db.notifications := notifications
          history.enqueued := n :: s.history.enqueued })
      | none => (.error uniqueViolation, s)

def isNotificationKindEnabled (userId : Uuid) (kind : NotificationKind) : Service Bool :=
  select fun _ s => ((s.db.preferences.find? (userId, kind)).map (·.enabled)).getD true

/-! ### The feed -/

/-- The notification is in the user's feed for the tenant. -/
def inFeed (tenantId userId : Uuid) (kinds : List NotificationKind) (n : NotificationRecord) : Bool :=
  n.tenantId = some tenantId && n.userId = some userId && kinds.contains n.kind

def listNotificationFeed (tenantId userId : Uuid) (kinds : List NotificationKind)
    (unreadOnly : Bool) (cursor : Option AuditCursor) (limit : Nat) :
    Service (List NotificationRecord × Option AuditCursor) :=
  select fun _ s => listCreated (fun n => (n.createdAt, n.id)) cursor limit <|
    s.db.notifications.select fun n =>
      inFeed tenantId userId kinds n && (!unreadOnly || n.readAt.isNone)

def countUnreadNotifications (tenantId userId : Uuid) (kinds : List NotificationKind) :
    Service Nat :=
  select fun _ s => s.db.notifications.count fun n =>
    inFeed tenantId userId kinds n && n.readAt.isNone

def markNotificationRead (tenantId userId notificationId : Uuid) (kinds : List NotificationKind) :
    Service Bool :=
  sql .quiet fun e s =>
    let p := fun (n : NotificationRecord) => n.id = notificationId && inFeed tenantId userId kinds n
    let f := fun (n : NotificationRecord) => { n with readAt := some (n.readAt.getD e.now) }
    (.ok (s.db.notifications.any p), { s with db.notifications := s.db.notifications.update p f })

def markAllNotificationsRead (tenantId userId : Uuid) (kinds : List NotificationKind) :
    Service Nat :=
  sql .quiet fun e s =>
    let p := fun (n : NotificationRecord) => inFeed tenantId userId kinds n && n.readAt.isNone
    let f := fun (n : NotificationRecord) => { n with readAt := some e.now }
    (.ok (s.db.notifications.count p), { s with db.notifications := s.db.notifications.update p f })

/-! ### Retention -/

/-- `t < now() - make_interval(days => n)`. -/
def pastRetention (retentionDays : Nat) (now t : Time) : Bool :=
  t + seconds (retentionDays * 24 * 3600) < now

def purgeTerminalNotifications (retentionDays : Nat) : Service Nat :=
  sql .quiet fun e s =>
    let p := fun (n : NotificationRecord) =>
      n.status ≠ .pending && pastRetention retentionDays e.now n.createdAt
    (.ok (s.db.notifications.count p),
      { s with db.notifications := s.db.notifications.delete p })

def purgeOldAuditEvents (retentionDays : Nat) : Service Nat :=
  sql .quiet fun e s =>
    let p := fun (a : AuditEventRecord) => pastRetention retentionDays e.now a.createdAt
    (.ok (s.db.auditLog.count p), { s with db.auditLog := s.db.auditLog.delete p })

end Fluxa.Db
