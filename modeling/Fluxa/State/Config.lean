import Fluxa.State.Text

/-!
# State — configuration

`config.rs`: the fields of `Cli` that the modelled functions read, their defaults, and the checks at startup.  The fields that have no default are the secrets; the plain configuration takes the ones of the development setup.  Negative numbers, which no check lets pass, are not modelled.
-/

namespace Fluxa

/-- `Cli`. -/
structure Cli where
  jwtSecret : String
  grpcAuthToken : String
  accessTokenMinutes : Nat := 15
  refreshTokenDays : Nat := 30
  cacheTtlSeconds : Nat := 60
  idempotencyTtlSeconds : Nat := 3600
  authRateLimitCapacity : Nat := 10
  authRateLimitRefillPerSec : Nat := 2
  appRateLimitCapacity : Nat := 120
  appRateLimitRefillPerSec : Nat := 30
  maxJobAttempts : Nat := 5
  jobLeaseSeconds : Nat := 300
  invitationTtlHours : Nat := 72
  startupMaxRetries : Nat := 20
  startupRetryDelayMs : Nat := 1500
  mailerProvider : String := "noop"
  smtpUrl : Option String := none
  mailFrom : Option String := none
  notifyDispatchIntervalMs : Nat := 5000
  requireEmailVerification : Bool := false
  emailVerificationTtlHours : Nat := 24
  passwordResetTtlMinutes : Nat := 60
  reminderDueSoonHours : Nat := 24
  reminderDedupeTtlHours : Nat := 24
  artifactStorageDir : String := "data/exports"
  maxAttachmentSizeBytes : Nat := 5242880
  webhookDispatchIntervalMs : Nat := 5000
  webhookAllowPrivateUrls : Bool := false
  retentionSweepIntervalHours : Nat := 24
  refreshTokenRetentionDays : Nat := 30
  jobRetentionDays : Nat := 30
  notificationRetentionDays : Nat := 30
  auditRetentionDays : Nat := 365
  samplerIntervalMs : Nat := 10000
  metricsAuthToken : Option String := none
  oauthGoogleClientId : Option String := none
  oauthGoogleClientSecret : Option String := none
  oauthGithubClientId : Option String := none
  oauthGithubClientSecret : Option String := none

instance : Inhabited Cli :=
  ⟨{ jwtSecret := "local-development-secret-local-development"
     grpcAuthToken := "local-development-grpc-token-local-development" }⟩

namespace Cli

def accessTokenTtl (c : Cli) : Nat := seconds (c.accessTokenMinutes * 60)

def refreshTokenTtl (c : Cli) : Nat := seconds (c.refreshTokenDays * 24 * 60 * 60)

def cacheTtl (c : Cli) : Nat := seconds c.cacheTtlSeconds

def idempotencyTtl (c : Cli) : Nat := seconds c.idempotencyTtlSeconds

def jobLease (c : Cli) : Nat := seconds c.jobLeaseSeconds

def invitationTtl (c : Cli) : Nat := seconds (c.invitationTtlHours * 60 * 60)

def emailVerificationTtl (c : Cli) : Nat := seconds (c.emailVerificationTtlHours * 60 * 60)

def passwordResetTtl (c : Cli) : Nat := seconds (c.passwordResetTtlMinutes * 60)

/-- An error with the message when the condition for it holds. -/
def rejectIf (bad : Bool) (message : String) : Except AppError Unit :=
  if bad then .error (.validation message) else .ok ()

/-- An optional setting that is absent or blank. -/
def missing (value : Option String) : Bool := value.all isBlank

/-- The checks on the mailer. -/
def validateMailer (c : Cli) : Except AppError Unit :=
  if c.mailerProvider = "noop" ∨ c.mailerProvider = "log" then .ok ()
  else if c.mailerProvider = "smtp" then do
    rejectIf (missing c.smtpUrl) "SMTP_URL is required when MAILER_PROVIDER is smtp"
    rejectIf (missing c.mailFrom) "MAIL_FROM is required when MAILER_PROVIDER is smtp"
  else .error (.validation
    ("MAILER_PROVIDER must be one of noop, log, smtp (got " ++ c.mailerProvider ++ ")"))

/-- `validate`, without the warnings. -/
def validate (c : Cli) : Except AppError Cli := do
  rejectIf (c.jwtSecret.utf8ByteSize < 32) "JWT_SECRET must be at least 32 characters long"
  rejectIf ((trim c.grpcAuthToken).utf8ByteSize < 32)
    "GRPC_AUTH_TOKEN must be at least 32 characters long"
  rejectIf (c.accessTokenMinutes = 0 || c.refreshTokenDays = 0) "token lifetimes must be positive"
  rejectIf (c.authRateLimitCapacity = 0 || c.authRateLimitRefillPerSec = 0 ||
    c.appRateLimitCapacity = 0 || c.appRateLimitRefillPerSec = 0)
    "rate limit capacity and refill must be positive"
  rejectIf (c.maxJobAttempts = 0) "MAX_JOB_ATTEMPTS must be positive"
  rejectIf (c.jobLeaseSeconds = 0) "JOB_LEASE_SECONDS must be positive"
  rejectIf (c.invitationTtlHours = 0) "INVITATION_TTL_HOURS must be positive"
  rejectIf (c.startupMaxRetries = 0 || c.startupRetryDelayMs = 0)
    "startup retry settings must be positive"
  c.validateMailer
  rejectIf (c.notifyDispatchIntervalMs = 0) "NOTIFY_DISPATCH_INTERVAL_MS must be positive"
  rejectIf (c.emailVerificationTtlHours = 0 || c.passwordResetTtlMinutes = 0)
    "account token lifetimes must be positive"
  rejectIf (c.reminderDueSoonHours = 0 || c.reminderDedupeTtlHours = 0)
    "reminder windows must be positive"
  rejectIf (isBlank c.artifactStorageDir) "ARTIFACT_STORAGE_DIR must not be empty"
  rejectIf (c.maxAttachmentSizeBytes = 0) "MAX_ATTACHMENT_SIZE_BYTES must be positive"
  rejectIf (c.webhookDispatchIntervalMs = 0) "WEBHOOK_DISPATCH_INTERVAL_MS must be positive"
  rejectIf (c.retentionSweepIntervalHours = 0 || c.refreshTokenRetentionDays = 0 ||
    c.jobRetentionDays = 0 || c.notificationRetentionDays = 0 || c.auditRetentionDays = 0)
    "retention windows must be positive"
  rejectIf (c.samplerIntervalMs = 0) "SAMPLER_INTERVAL_MS must be positive"
  rejectIf (c.metricsAuthToken.any isBlank) "METRICS_AUTH_TOKEN must not be empty when set"
  return c

@[simp] theorem rejectIf_eq_ok {bad : Bool} {message : String} {u : Unit} :
    rejectIf bad message = .ok u ↔ bad = false := by
  cases bad <;> simp [rejectIf]

theorem bind_eq_ok {A B : Type} {x : Except AppError A} {f : A → Except AppError B} {b : B} :
    (x >>= f) = .ok b ↔ ∃ a, x = .ok a ∧ f a = .ok b := by
  cases x <;> simp [bind, Except.bind]

/-- The windows of an accepted configuration are positive. -/
theorem pos_of_validate {c c' : Cli} (h : c.validate = .ok c') :
    0 < c.maxJobAttempts ∧ 0 < c.reminderDedupeTtlHours ∧ 0 < c.notificationRetentionDays := by
  simp only [validate, bind_eq_ok, rejectIf_eq_ok, exists_const, Bool.or_eq_false_iff,
    decide_eq_false_iff_not] at h
  obtain ⟨-, -, -, -, hjobs, -, -, -, _, -, -, -, hwindows, -, -, -, hretention, -⟩ := h
  exact ⟨Nat.pos_of_ne_zero hjobs, Nat.pos_of_ne_zero hwindows.2,
    Nat.pos_of_ne_zero hretention.1.2⟩

end Cli

end Fluxa
