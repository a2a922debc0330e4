import Fluxa.Http.Projects
import Fluxa.Http.Tasks
import Fluxa.Http.Webhooks

/-!
# Idempotency — the requests

The requests to the eight handlers that create resources.  Each handler first makes some checks and then goes the way of **`Http.idempotent`**: what it goes on with after the checks is its `Creation`.
-/

namespace Fluxa.Idempotency
open Interleave Db

/-- The routes of the handlers, with what a request carries besides its key. -/
inductive Route where
  | createInvitation (tenantId : Uuid) (email role : String)
  | createProject (payload : CreateProjectInput)
  | createLabel (payload : CreateLabelInput)
  | createWebhook (url : String) (events : List String)
  | createTaskComment (taskId : Uuid) (body : String)
  | uploadTaskAttachment (taskId : Uuid) (fileName : String) (contentType : Option String)
      (body : Bytes)
  | createTask (payload : Http.TaskPayload)
  | createExport (payload : Http.ExportRequest)

/-- A request: the authenticated user, the header with the key, and the route. -/
structure CreateRequest where
  user : AuthenticatedUser
  idempotencyKey : Option String
  route : Route

def CreateRequest.handler (app : App) (k : CreateRequest) : Service StoredResponse :=
  match k.route with
  | .createInvitation tenantId email role =>
    Http.createInvitation app k.user tenantId k.idempotencyKey email role
  | .createProject payload => Http.createProject app k.user k.idempotencyKey payload
  | .createLabel payload => Http.createLabel app k.user k.idempotencyKey payload
  | .createWebhook url events => Http.createWebhook app k.user k.idempotencyKey url events
  | .createTaskComment taskId body =>
    Http.createTaskComment app k.user taskId k.idempotencyKey body
  | .uploadTaskAttachment taskId fileName contentType body =>
    Http.uploadTaskAttachment app k.user taskId fileName contentType k.idempotencyKey body
  | .createTask payload => Http.createTask app k.user k.idempotencyKey payload
  | .createExport payload => Http.createExport app k.user k.idempotencyKey payload

/-- Any number of requests, side by side. -/
def createSystem (app : App) :
    System Event Env AppState AppError CreateRequest StoredResponse where
  body := CreateRequest.handler app
  adm := admissible

/-! ### The creations -/

/-- What a handler goes on with after its checks. -/
inductive Creation where
  | invitation (email : String) (role : MembershipRole)
  | project (input : CreateProjectInput)
  | label (input : CreateLabelInput)
  | webhook (url : String) (events : List String)
  | comment (taskId : Uuid) (body : String)
  | attachment (taskId : Uuid) (fileName contentType : String) (body : Bytes)
  | task (payload : Http.TaskPayload)
  | exportJob (payload : Http.ExportRequest)

/-- The route in the key. -/
def Creation.keyRoute : Creation → String
  | .invitation _ _ => "invitations:create"
  | .project _ => "projects:create"
  | .label _ => "labels:create"
  | .webhook _ _ => "webhooks:create"
  | .comment _ _ => "comments:create"
  | .attachment _ _ _ _ => "attachments:create"
  | .task _ => "tasks:create"
  | .exportJob _ => "exports:create"

/-- What is validated once the key has been claimed is valid. -/
def Creation.valid (app : App) : Creation → Bool
  | .task payload => payload.toInput.toOption.isSome
  | .exportJob payload => (payload.toInput app).toOption.isSome
  | _ => true

/-- The idempotent part of the handler. -/
def Creation.run (app : App) (user : AuthenticatedUser) (key : IdempotencyKey) :
    Creation → Service StoredResponse
  | .invitation email role => Http.idempotent app key (.ok ())
      (fun _ => Fluxa.createInvitation app user.tenantId user.role user.userId email role)
      fun created => Http.createdResponse
        (.obj [("invitation", Http.invitationResponseValue app created.invitation),
          ("token", .str created.token)])
  | .project input => Http.idempotent app key (.ok ())
      (fun _ => Projects.createProject user.tenantId user.userId input)
      fun project => Http.createdResponse (Http.projectResponseValue app project)
  | .label input => Http.idempotent app key (.ok ())
      (fun _ => Labels.createLabel app user.tenantId user.userId input)
      fun label => Http.createdResponse (Http.labelResponseValue app label)
  | .webhook url events => Http.idempotent app key (.ok ())
      (fun _ => Webhooks.createWebhook app user.tenantId user.userId url events)
      fun webhook => Http.createdResponse
        (.obj [("webhook", Http.webhookResponseValue app webhook), ("secret", .str webhook.secret)])
  | .comment taskId body => Http.idempotent app key (.ok ())
      (fun _ => Comments.createComment app user.tenantId taskId user.userId body)
      fun comment => Http.createdResponse (Http.commentResponseValue app comment)
  | .attachment taskId fileName contentType body => Http.idempotent app key (.ok ())
      (fun _ => Attachments.uploadAttachment app user.tenantId taskId user.userId fileName
        contentType body)
      fun attachment => Http.createdResponse (Http.attachmentResponseValue app attachment)
  | .task payload => Http.idempotent app key payload.toInput
      (fun input => Tasks.createTask app user.tenantId user.userId input)
      fun task => Http.createdResponse (taskResponseValue app task)
  | .exportJob payload => Http.idempotent app key (payload.toInput app)
      (fun input => Jobs.createExportJob app user.tenantId user.userId input.2 input.1)
      fun job => Http.acceptedResponse (Jobs.jobResponseValue app job)

/-! ### The checks -/

/-- The checks of the handler that come before the one of the key. -/
def Route.check (app : App) (user : AuthenticatedUser) : Route → Except AppError Creation
  | .createInvitation tenantId email role => do
    Http.ensureTenantAdmin user tenantId
    let email ← normalizeEmail email
    let role ← Http.parseRole role
    return .invitation email role
  | .createProject payload => do
    ensureAdminRole user.role
    let input ← payload.validate
    return .project input
  | .createLabel payload => do
    ensureAdminRole user.role
    let input ← payload.validate
    return .label input
  | .createWebhook url events => do
    ensureAdminRole user.role
    return .webhook url events
  | .createTaskComment taskId body => do
    ensureTaskWriteRole user.role
    let body ← validateCommentBody body
    return .comment taskId body
  | .uploadTaskAttachment taskId fileName contentType body => do
    ensureTaskWriteRole user.role
    let fileName ← validateAttachmentFileName fileName
    Http.checkAttachmentBody app body
    return .attachment taskId fileName (normalizeAttachmentContentType contentType) body
  | .createTask payload => do
    ensureTaskWriteRole user.role
    return .task payload
  | .createExport payload => do
    ensureAdminRole user.role
    return .exportJob payload

/-- What a request comes to: its creation and its key, or the error of a check. -/
def CreateRequest.plan (app : App) (k : CreateRequest) :
    Except AppError (Creation × IdempotencyKey) := do
  let creation ← k.route.check app k.user
  let key ← Http.requiredIdempotencyKey k.idempotencyKey
  return (creation, ⟨k.user.tenantId, creation.keyRoute, key⟩)

/-- A check that is made of two is made one after the other. -/
theorem lift_bind {A B C : Type} (r : Except AppError A) (f : A → Except AppError B)
    (g : B → Service C) : (Prog.lift (r >>= f) : Service B).bind g =
      (Prog.lift r : Service A).bind fun a => (Prog.lift (f a) : Service B).bind g := by
  cases r with
  | ok a => rfl
  | error x => rfl

/-- A handler makes its checks and goes on with its creation. -/
theorem handler_eq (app : App) (k : CreateRequest) : k.handler app =
    (Prog.lift (k.plan app) : Service _).bind fun p => p.1.run app k.user p.2 := by
  obtain ⟨user, header, route⟩ := k
  simp only [CreateRequest.plan, lift_bind]
  cases route with
  | createInvitation tenantId email role =>
      by_cases h : user.tenantId = tenantId
      · subst h
        simp only [Route.check, lift_bind]
        rfl
      · have hcheck : Http.ensureTenantAdmin user tenantId = .error (.notFound "tenant not found") := by
          simp [Http.ensureTenantAdmin, ensureActiveTenant, h, bind, Except.bind]
        simp only [CreateRequest.handler, Http.createInvitation, Route.check, hcheck]
        rfl
  | createProject payload =>
      simp only [Route.check, lift_bind]
      rfl
  | createLabel payload =>
      simp only [Route.check, lift_bind]
      rfl
  | createWebhook url events =>
      simp only [Route.check, lift_bind]
      rfl
  | createTaskComment taskId body =>
      simp only [Route.check, lift_bind]
      rfl
  | uploadTaskAttachment taskId fileName contentType body =>
      simp only [Route.check, lift_bind]
      rfl
  | createTask payload =>
      simp only [Route.check, lift_bind]
      rfl
  | createExport payload =>
      simp only [Route.check, lift_bind]
      rfl

end Fluxa.Idempotency
