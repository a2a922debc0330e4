import Fluxa.Db.Notifications

/-!
# Services — notifications

`services/notifications.rs`: the feed of a user in a tenant, with the marks of what has been read.
-/

namespace Fluxa
open Interleave Db

namespace Notifications

/-- `FEED_KINDS`. -/
def feedKinds : List NotificationKind := [.taskDueSoon, .taskOverdue, .taskCommented]

/-- `NotificationFeedResponse`. -/
structure NotificationFeed where
  data : List NotificationRecord
  nextCursor : Option String
  unreadCount : Nat

def listFeed (app : App) (tenantId userId : Uuid) (unreadOnly : Bool)
    (cursor : Option AuditCursor) (limit : Nat) : Service NotificationFeed := do
  let (data, nextCursor) ←
    listNotificationFeed tenantId userId feedKinds unreadOnly cursor limit
  let unreadCount ← countUnreadNotifications tenantId userId feedKinds
  return { data, nextCursor := nextCursor.map (·.encode app), unreadCount }

def markRead (tenantId userId notificationId : Uuid) : Service Unit := do
  Prog.ensure (← markNotificationRead tenantId userId notificationId feedKinds)
    (.notFound "notification was not found")

def markAllRead (tenantId userId : Uuid) : Service Nat :=
  markAllNotificationsRead tenantId userId feedKinds

end Notifications

end Fluxa
