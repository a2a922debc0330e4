import Fluxa.State.Config

/-!
# Settings — the parsed configuration

`Cli` of `config.rs` with the machine integers of the source, as it comes from the command line and the environment, and its check at startup.  The fields that no modelled function reads are left out.

**`validate_toCli`**: the check accepts and refuses as the one on `Cli`, whose numbers are what these integers stand for.
-/

namespace Fluxa

/-- `Cli`, before anything of it has been checked. -/
structure CliArgs where
  jwtSecret : String
  grpcAuthToken : String
  accessTokenMinutes : Int64 := 15
  refreshTokenDays : Int64 := 30
  cacheTtlSeconds : UInt64 := 60
  idempotencyTtlSeconds : UInt64 := 3600
  authRateLimitCapacity : UInt64 := 10
  authRateLimitRefillPerSec : UInt64 := 2
  appRateLimitCapacity : UInt64 := 120
  appRateLimitRefillPerSec : UInt64 := 30
  workerDispatchIntervalMs : UInt64 := 3000
  workerSchedulerIntervalMs : UInt64 := 60000
  maxJobAttempts : Int32 := 5
  jobLeaseSeconds : UInt64 := 300
  invitationTtlHours : Int64 := 72
  startupMaxRetries : UInt32 := 20
  startupRetryDelayMs : UInt64 := 1500
  mailerProvider : String := "noop"
  smtpUrl : Option String := none
  mailFrom : Option String := none
  notifyDispatchIntervalMs : UInt64 := 5000
  requireEmailVerification : Bool := false
  emailVerificationTtlHours : Int64 := 24
  passwordResetTtlMinutes : Int64 := 60
  reminderDueSoonHours : Int64 := 24
  reminderDedupeTtlHours : Int64 := 24
  artifactStorageDir : String := "data/exports"
  maxAttachmentSizeBytes : UInt64 := 5242880
  webhookDispatchIntervalMs : UInt64 := 5000
  webhookAllowPrivateUrls : Bool := false
  retentionSweepIntervalHours : Int64 := 24
  refreshTokenRetentionDays : Int64 := 30
  jobRetentionDays : Int64 := 30
  notificationRetentionDays : Int64 := 30
  auditRetentionDays : Int64 := 365
  samplerIntervalMs : UInt64 := 10000
  metricsAuthToken : Option String := none
  oauthGoogleClientId : Option String := none
  oauthGoogleClientSecret : Option String := none
  oauthGithubClientId : Option String := none
  oauthGithubClientSecret : Option String := none

namespace CliArgs
open Cli

/-- The numbers that the integers stand for; a negative one becomes zero, which no check lets pass
either. -/
def toCli (c : CliArgs) : Cli where
  jwtSecret := c.jwtSecret
  grpcAuthToken := c.grpcAuthToken
  accessTokenMinutes := c.accessTokenMinutes.toNatClampNeg
  refreshTokenDays := c.refreshTokenDays.toNatClampNeg
  cacheTtlSeconds := c.cacheTtlSeconds.toNat
  idempotencyTtlSeconds := c.idempotencyTtlSeconds.toNat
  authRateLimitCapacity := c.authRateLimitCapacity.toNat
  authRateLimitRefillPerSec := c.authRateLimitRefillPerSec.toNat
  appRateLimitCapacity := c.appRateLimitCapacity.toNat
  appRateLimitRefillPerSec := c.appRateLimitRefillPerSec.toNat
  maxJobAttempts := c.maxJobAttempts.toNatClampNeg
  jobLeaseSeconds := c.jobLeaseSeconds.toNat
  invitationTtlHours := c.invitationTtlHours.toNatClampNeg
  startupMaxRetries := c.startupMaxRetries.toNat
  startupRetryDelayMs := c.startupRetryDelayMs.toNat
  mailerProvider := c.mailerProvider
  smtpUrl := c.smtpUrl
  mailFrom := c.mailFrom
  notifyDispatchIntervalMs := c.notifyDispatchIntervalMs.toNat
  requireEmailVerification := c.requireEmailVerification
  emailVerificationTtlHours := c.emailVerificationTtlHours.toNatClampNeg
  passwordResetTtlMinutes := c.passwordResetTtlMinutes.toNatClampNeg
  reminderDueSoonHours := c.reminderDueSoonHours.toNatClampNeg
  reminderDedupeTtlHours := c.reminderDedupeTtlHours.toNatClampNeg
  artifactStorageDir := c.artifactStorageDir
  maxAttachmentSizeBytes := c.maxAttachmentSizeBytes.toNat
  webhookDispatchIntervalMs := c.webhookDispatchIntervalMs.toNat
  webhookAllowPrivateUrls := c.webhookAllowPrivateUrls
  retentionSweepIntervalHours := c.retentionSweepIntervalHours.toNatClampNeg
  refreshTokenRetentionDays := c.refreshTokenRetentionDays.toNatClampNeg
  jobRetentionDays := c.jobRetentionDays.toNatClampNeg
  notificationRetentionDays := c.notificationRetentionDays.toNatClampNeg
  auditRetentionDays := c.auditRetentionDays.toNatClampNeg
  samplerIntervalMs := c.samplerIntervalMs.toNat
  metricsAuthToken := c.metricsAuthToken
  oauthGoogleClientId := c.oauthGoogleClientId
  oauthGoogleClientSecret := c.oauthGoogleClientSecret
  oauthGithubClientId := c.oauthGithubClientId
  oauthGithubClientSecret := c.oauthGithubClientSecret

/-- `validate`, without the warnings. -/
def validate (c : CliArgs) : Except AppError CliArgs := do
  rejectIf (c.jwtSecret.utf8ByteSize < 32) "JWT_SECRET must be at least 32 characters long"
  rejectIf ((trim c.grpcAuthToken).utf8ByteSize < 32)
    "GRPC_AUTH_TOKEN must be at least 32 characters long"
  rejectIf (c.accessTokenMinutes ≤ 0 || c.refreshTokenDays ≤ 0) "token lifetimes must be positive"
  rejectIf (c.authRateLimitCapacity = 0 || c.authRateLimitRefillPerSec = 0 ||
    c.appRateLimitCapacity = 0 || c.appRateLimitRefillPerSec = 0)
    "rate limit capacity and refill must be positive"
  rejectIf (c.maxJobAttempts ≤ 0) "MAX_JOB_ATTEMPTS must be positive"
  rejectIf (c.jobLeaseSeconds = 0) "JOB_LEASE_SECONDS must be positive"
  rejectIf (c.invitationTtlHours ≤ 0) "INVITATION_TTL_HOURS must be positive"
  rejectIf (c.startupMaxRetries = 0 || c.startupRetryDelayMs = 0)
    "startup retry settings must be positive"
  c.toCli.validateMailer
  rejectIf (c.notifyDispatchIntervalMs = 0) "NOTIFY_DISPATCH_INTERVAL_MS must be positive"
  rejectIf (c.emailVerificationTtlHours ≤ 0 || c.passwordResetTtlMinutes ≤ 0)
    "account token lifetimes must be positive"
  rejectIf (c.reminderDueSoonHours ≤ 0 || c.reminderDedupeTtlHours ≤ 0)
    "reminder windows must be positive"
  rejectIf (isBlank c.artifactStorageDir) "ARTIFACT_STORAGE_DIR must not be empty"
  rejectIf (c.maxAttachmentSizeBytes = 0) "MAX_ATTACHMENT_SIZE_BYTES must be positive"
  rejectIf (c.webhookDispatchIntervalMs = 0) "WEBHOOK_DISPATCH_INTERVAL_MS must be positive"
  rejectIf (c.retentionSweepIntervalHours ≤ 0 || c.refreshTokenRetentionDays ≤ 0 ||
    c.jobRetentionDays ≤ 0 || c.notificationRetentionDays ≤ 0 || c.auditRetentionDays ≤ 0)
    "retention windows must be positive"
  rejectIf (c.samplerIntervalMs = 0) "SAMPLER_INTERVAL_MS must be positive"
  rejectIf (c.metricsAuthToken.any isBlank) "METRICS_AUTH_TOKEN must not be empty when set"
  return c

/-! ### The check on the numbers -/

theorem int64_nonpos_iff {x : Int64} : x ≤ 0 ↔ x.toNatClampNeg = 0 := by
  rw [Int64.le_iff_toInt_le, Int64.toNatClampNeg]
  exact Int.toNat_eq_zero.symm

theorem int32_nonpos_iff {x : Int32} : x ≤ 0 ↔ x.toNatClampNeg = 0 := by
  rw [Int32.le_iff_toInt_le, Int32.toNatClampNeg]
  exact Int.toNat_eq_zero.symm

theorem uint64_zero_iff {x : UInt64} : x = 0 ↔ x.toNat = 0 := UInt64.toNat_inj.symm

theorem uint32_zero_iff {x : UInt32} : x = 0 ↔ x.toNat = 0 := UInt32.toNat_inj.symm

theorem map_bind {A B C : Type} {x : Except AppError A} {f : A → Except AppError B} {g : B → C} :
    (x >>= f).map g = x >>= fun a => (f a).map g := by
  cases x <;> rfl

/-- The check is that of the numbers. -/
theorem validate_toCli (c : CliArgs) : c.validate.map toCli = c.toCli.validate := by
  simp only [validate, Cli.validate, map_bind, int64_nonpos_iff, int32_nonpos_iff, uint64_zero_iff,
    uint32_zero_iff]
  rfl

end CliArgs

end Fluxa
