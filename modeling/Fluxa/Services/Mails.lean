import Fluxa.State.Rows

/-!
# Services — mails

`notify.rs`: what is mailed about a notification.  The sending is in `Fluxa.Services.Delivery`.
-/

namespace Fluxa

/-- `MailMessage`; the recipient is its `to`. -/
structure MailMessage where
  recipient : String
  subject : String
  body : String
deriving DecidableEq, Repr

/-- A field of the payload, and nothing where there is no such text. -/
def payloadStr (payload : Value) (key : String) : String := ((payload.get key).asStr?).getD ""

/-- A row has one of these kinds; of any other the source makes an error. -/
def renderNotification (n : NotificationRecord) : MailMessage :=
  let payload := n.payload
  match n.kind with
  | .tenantInvitation =>
    { recipient := n.recipient
      subject := "You have been invited to a workspace"
      body := "You have been invited to join a workspace with the " ++ payloadStr payload "role" ++
        " role.\n" ++ "Use this invitation token to accept: " ++ payloadStr payload "token" ++
        "\n" ++ "The invitation expires at " ++ payloadStr payload "expires_at" ++ "." }
  | .emailVerification =>
    { recipient := n.recipient
      subject := "Verify your email address"
      body := "Use this token to verify your email address: " ++ payloadStr payload "token" ++
        "\n" ++ "The token expires at " ++ payloadStr payload "expires_at" ++ "." }
  | .passwordReset =>
    { recipient := n.recipient
      subject := "Reset your password"
      body := "Use this token to reset your password: " ++ payloadStr payload "token" ++ "\n" ++
        "The token expires at " ++ payloadStr payload "expires_at" ++
        ". If you did not request this, ignore this message." }
  | .taskDueSoon =>
    { recipient := n.recipient
      subject := "Task due soon: " ++ payloadStr payload "title"
      body := "The task \"" ++ payloadStr payload "title" ++ "\" is due at " ++
        payloadStr payload "due_at" ++ "." }
  | .taskOverdue =>
    { recipient := n.recipient
      subject := "Task overdue: " ++ payloadStr payload "title"
      body := "The task \"" ++ payloadStr payload "title" ++ "\" was due at " ++
        payloadStr payload "due_at" ++ " and is now overdue." }
  | .taskCommented =>
    { recipient := n.recipient
      subject := "New comment on task: " ++ payloadStr payload "title"
      body := "A new comment was added to the task \"" ++ payloadStr payload "title" ++ "\":\n" ++
        payloadStr payload "body" }

end Fluxa
